import Bootloader.Proofs.Ledger
import Bootloader.Proofs.Uefi.Boot

/-!
# Who owns what

The firmware lends buffers and runs of pages (`lending`), and every part of the boot is balanced:
what it was lent is given back, or owned by its value.  So in each run of the boot all has been
given back at the end, unless the core was entered, and then the core owns its own pages and the
buffer of the memory map and nothing else is left (`accounted_boot`).  This needs nothing of the
firmware.
-/

namespace Bootloader.Uefi

open Program

/-- What a firmware lends: a buffer from the pool, or a run of pages. -/
inductive Resource where
  | buffer (address : UInt64)
  | pages (address count : UInt64)
deriving DecidableEq, Repr

/-- The buffer at an address; none at zero. -/
def bufferOf (address : UInt64) : Multiset Resource :=
  if address = 0 then 0 else {.buffer address}

/-- The pages of a run, if it has any. -/
def pagesOf (run : PageRun) : Multiset Resource :=
  if run.nonempty then {.pages run.address run.pages} else 0

@[simp] theorem bufferOf_zero : bufferOf 0 = 0 := rfl

@[simp] theorem pagesOf_empty : pagesOf {} = 0 := rfl

/-- What the calls that went well lend, and what is given back by which call. -/
def lending : Lending Firmware Resource where
  lent
    | ⟨.allocatePool .., got⟩ => if got.status.isError then 0 else bufferOf got.value
    | ⟨.locateHandleBuffer .., got⟩ => if got.status.isError then 0 else bufferOf got.value.buffer
    | ⟨.allocatePages _ _ pages, got⟩ =>
      if got.status.isError then 0 else pagesOf ⟨got.value, pages⟩
    | _ => 0
  returned
    | .freePool buffer => bufferOf buffer
    | .freePages address pages => pagesOf ⟨address, pages⟩
    | _ => 0

theorem lent_allocatePool (kind : UInt32) (size : UInt64) (got : Answer UInt64) :
    lending.lent ⟨.allocatePool kind size, got⟩ =
      if got.status.isError then 0 else bufferOf got.value := rfl

theorem lent_locateHandleBuffer (search : UInt32) (protocol : Guid) (got : Answer HandleList) :
    lending.lent ⟨.locateHandleBuffer search protocol, got⟩ =
      if got.status.isError then 0 else bufferOf got.value.buffer := rfl

theorem lent_allocatePages (placement kind : UInt32) (pages : UInt64) (got : Answer UInt64) :
    lending.lent ⟨.allocatePages placement kind pages, got⟩ =
      if got.status.isError then 0 else pagesOf ⟨got.value, pages⟩ := rfl

namespace SizedQuery

/-- What a measured query is lent, and what it gives back. -/
def lending : Lending SizedQuery Resource where
  lent
    | ⟨.allocate _, buffer⟩ => bufferOf buffer
    | _ => 0
  returned
    | .free buffer => bufferOf buffer
    | _ => 0

/-- What the outcome of a measured query owns. -/
def Outcome.owned : Outcome → Multiset Resource
  | filled result => bufferOf result.buffer
  | _ => 0

theorem balances_fetch (size : UInt64) : (fetch size).Balances lending 0 Outcome.owned := by
  refine balances_request rfl fun buffer => ?_
  rw [zero_add]
  by_cases hb : buffer = 0
  · rw [if_pos hb, hb]
    exact balances_done.2 rfl
  rw [if_neg hb]
  refine balances_idle rfl (fun _ => rfl) fun got => ?_
  by_cases hs : got.status = .success
  · rw [if_pos hs]
    exact balances_done.2 rfl
  · rw [if_neg hs]
    refine balances_return (zero_add _).symm (fun _ => rfl) fun _ => balances_done.2 ?_
    split <;> rfl

theorem balances_afterProbe (got : Answer UInt64) :
    (afterProbe got).Balances lending 0 Outcome.owned := by
  unfold afterProbe
  split
  · exact balances_idle rfl (fun _ => rfl) fun _ => balances_fetch _
  · exact balances_done.2 rfl

theorem balances_probe (size buffer : UInt64) :
    (probe size buffer).Balances lending (bufferOf buffer) Outcome.owned := by
  refine balances_idle rfl (fun _ => rfl) fun got => ?_
  by_cases hs : got.status = .success
  · rw [if_pos hs]
    exact balances_done.2 rfl
  rw [if_neg hs]
  by_cases hb : buffer ≠ 0
  · rw [if_pos hb]
    exact balances_return (zero_add _).symm (fun _ => rfl) fun _ => balances_afterProbe got
  · rw [if_neg hb, not_not.1 hb]
    exact balances_afterProbe got

/-- A measured query owns the buffer it was filled with, and nothing if it was not filled. -/
theorem balances_sizedQuery (initial : UInt64) :
    (sizedQuery initial).Balances lending 0 Outcome.owned := by
  unfold sizedQuery
  by_cases h0 : initial = 0
  · rw [if_pos h0]
    exact balances_probe 0 0
  rw [if_neg h0]
  refine balances_request rfl fun buffer => ?_
  rw [zero_add]
  by_cases hb : buffer = 0
  · rw [if_pos hb, hb]
    exact balances_done.2 rfl
  · rw [if_neg hb]
    exact balances_probe initial buffer

end SizedQuery

namespace Services

variable {efi : Services} {held : Multiset Resource}

section Memory

theorem balances_allocate (hl : efi.live = true) (size : UInt64) :
    (efi.allocate size).Balances lending 0 bufferOf := by
  rw [allocate, call_eq_of_live hl]
  refine balances_request rfl fun got => balances_done.2 ?_
  rw [zero_add, lent_allocatePool]
  split <;> rfl

theorem balances_free (hl : efi.live = true) (buffer : UInt64) :
    (efi.free buffer).Balances lending (bufferOf buffer) fun _ => 0 := by
  rw [free, call_eq_of_live hl]
  exact balances_return (zero_add _).symm (fun _ => rfl) fun _ => balances_done.2 rfl

theorem balances_dropBuffer (hl : efi.live = true) (buffer : UInt64) :
    (efi.dropBuffer buffer).Balances lending (bufferOf buffer) fun _ => 0 := by
  unfold dropBuffer
  split
  · exact balances_free hl buffer
  · rename_i hb
    rw [not_not.1 hb]
    exact balances_done.2 rfl

theorem balances_allocatePages (hl : efi.live = true) (pages : UInt64) :
    (efi.allocatePages pages).Balances lending 0 fun run => pagesOf (run.getD {}) := by
  rw [allocatePages, call_eq_of_live hl]
  refine balances_request rfl fun got => balances_done.2 ?_
  rw [zero_add, lent_allocatePages]
  split <;> rfl

theorem balances_dropPages (hl : efi.live = true) (run : PageRun) :
    (efi.dropPages run).Balances lending (pagesOf run) fun _ => 0 := by
  unfold dropPages
  split
  · rw [call_eq_of_live hl]
    exact balances_return (zero_add _).symm (fun _ => rfl) fun _ => balances_done.2 rfl
  · rename_i hr
    exact balances_done.2 (if_neg hr)

theorem balances_replacePages (hl : efi.live = true) (old : PageRun) (pages : UInt64) :
    (efi.replacePages old pages).Balances lending (pagesOf old) fun run =>
      pagesOf (run.getD old) := by
  refine ((balances_allocatePages hl pages).gain _).bind fun run => ?_
  cases run with
  | none => exact balances_done.2 (zero_add _)
  | some run =>
    rw [add_comm]
    exact ((balances_dropPages hl old).frame _).bind fun _ => balances_done.2 (zero_add _)

end Memory

section Queries

/-- What the pool lends to a measured query is what the query is lent. -/
theorem balances_measured {σ : Type} (hl : efi.live = true)
    {query : (size buffer : UInt64) → σ → Action (Answer UInt64 × σ)} {padding : σ → UInt64}
    (hq : ∀ size buffer s, (query size buffer s).Balances lending 0 fun _ => 0) :
    ∀ q s, (efi.measured query padding q s).Balances lending (SizedQuery.lending.returned q)
      fun x => SizedQuery.lending.lent ⟨q, x.1⟩ := by
  intro q s
  cases q with
  | allocate size => exact (balances_allocate hl size).bind fun _ => balances_done.2 rfl
  | free buffer => exact (balances_free hl buffer).bind fun _ => balances_done.2 rfl
  | query size buffer => exact hq size buffer s
  | padding => exact balances_done.2 rfl

theorem balances_fetchMap (hl : efi.live = true) (initial : UInt64) (seen : MapSeen) :
    (efi.fetchMap initial seen).Balances lending 0 fun x => x.1.owned :=
  (SizedQuery.balances_sizedQuery initial).via (balances_measured hl fun _ _ _ =>
    balances_idle rfl (fun _ => rfl) fun _ => balances_done.2 rfl) seen

theorem balances_fetchMapOrGuess (hl : efi.live = true) :
    efi.fetchMapOrGuess.Balances lending 0 fun x => x.1.owned := by
  refine (balances_fetchMap hl 0 {}).bind fun ⟨outcome, seen⟩ => ?_
  dsimp only
  split
  · rename_i ho
    rw [ho]
    exact balances_fetchMap hl _ seen
  · exact balances_done.2 rfl

/-- A snapshot owns its buffer, and takes the place of the one before. -/
theorem balances_acquireMap (hl : efi.live = true) (map : MemoryMap) :
    (efi.acquireMap map).Balances lending (bufferOf map.buffer) fun x =>
      bufferOf (if x.1 = .ok then x.2.buffer else map.buffer) := by
  rw [acquireMap, check_of_live hl, bind_done]
  split
  · exact balances_done.2 rfl
  refine ((balances_fetchMapOrGuess hl).gain _).bind ?_
  rintro ⟨outcome, seen⟩
  cases outcome with
  | filled result =>
    dsimp only
    split
    · exact ((balances_free hl _).frame _).bind fun _ => balances_done.2 (zero_add _)
    · rw [add_comm]
      exact ((balances_dropBuffer hl _).frame _).bind fun _ => balances_done.2 (zero_add _)
  | _ => exact balances_done.2 (zero_add _)

theorem balances_fileInfo (hl : efi.live = true) (file : UInt64) :
    (efi.fileInfo file).Balances lending 0 bufferOf := by
  refine ((SizedQuery.balances_sizedQuery fileInfoRoom).via (balances_measured hl fun _ _ _ =>
    balances_idle rfl (fun _ => rfl) fun _ => balances_done.2 rfl) ()).bind ?_
  rintro ⟨outcome, -⟩
  cases outcome <;> exact balances_done.2 rfl

theorem balances_fileSize (hl : efi.live = true) (file : UInt64) :
    (efi.fileSize file).Balances lending 0 fun _ => 0 := by
  refine (balances_fileInfo hl file).bind fun record => ?_
  split
  · rename_i h0
    rw [h0]
    exact balances_done.2 rfl
  refine balances_idle rfl (fun _ => rfl) fun size => ?_
  exact (balances_free hl record).bind fun _ => balances_done.2 rfl

end Queries

theorem balances_of_onConsole {α : Type} {p : Action α} (hp : OnConsole p) :
    p.Balances lending held fun _ => held :=
  Only.balances (hp.mono fun q hq => by
    cases q <;> first | exact ⟨rfl, fun _ => rfl⟩ | exact hq.elim)

theorem balances_print (hl : efi.live = true) (text : String) :
    (efi.print text).Balances lending held fun _ => held :=
  balances_of_onConsole (onConsole_print hl text)

section Loading

/-- A run that was put in the place of another is owned, whatever comes of the file. -/
theorem balances_loadOpenFile (hl : efi.live = true) (file : UInt64) (pages : PageRun) :
    (efi.loadOpenFile file pages).Balances lending (pagesOf pages) fun x => pagesOf x.2 := by
  refine ((balances_fileSize hl file).idle _).bind fun size => ?_
  cases size with
  | none => exact balances_done.2 rfl
  | some size =>
    dsimp only
    split
    · exact balances_done.2 rfl
    refine (balances_replacePages hl pages _).bind fun run => ?_
    cases run with
    | none => exact balances_done.2 rfl
    | some run =>
      refine balances_idle rfl (fun _ => rfl) fun got => ?_
      split
      · exact balances_done.2 rfl
      split <;> exact balances_done.2 rfl

theorem balances_loadFromRoot (hl : efi.live = true) (root : UInt64) (path : String)
    (pages : PageRun) :
    (efi.loadFromRoot root path pages).Balances lending (pagesOf pages) fun x => pagesOf x.2 := by
  refine balances_idle rfl (fun _ => rfl) fun file => ?_
  split
  · exact balances_done.2 rfl
  refine (balances_loadOpenFile hl _ pages).bind fun x => ?_
  exact balances_idle rfl (fun _ => rfl) fun _ => balances_done.2 rfl

theorem balances_loadFile (hl : efi.live = true) (device : UInt64) (path : String)
    (pages : PageRun) :
    (efi.loadFile device path pages).Balances lending (pagesOf pages) fun x => pagesOf x.2 := by
  rw [loadFile, call_eq_of_live hl]
  refine balances_idle rfl (fun _ => rfl) fun fileSystem => ?_
  split
  · exact balances_done.2 rfl
  refine balances_idle rfl (fun _ => rfl) fun root => ?_
  split
  · exact balances_done.2 rfl
  refine (balances_loadFromRoot hl _ path pages).bind fun x => ?_
  exact balances_idle rfl (fun _ => rfl) fun _ => balances_done.2 rfl

/-- The pages of an image, if there is one. -/
def imageOf : Option CoreImage → Multiset Resource
  | none => 0
  | some image => pagesOf image.pages

theorem balances_tryVolume (hl : efi.live = true) (handles number : UInt64) (path : String) :
    (efi.tryVolume handles number path).Balances lending 0 imageOf := by
  refine (balances_print hl _).bind fun _ => (balances_print hl _).bind fun _ => ?_
  refine (balances_print hl _).bind fun _ => balances_idle rfl (fun _ => rfl) fun device => ?_
  refine (balances_loadFile hl device path {}).bind fun ⟨result, run⟩ => ?_
  cases result with
  | ok size =>
    exact (balances_print hl _).bind fun _ => (balances_print hl _).bind fun _ =>
      (balances_print hl _).bind fun _ => balances_done.2 rfl
  | error failure =>
    exact (balances_of_onConsole (onConsole_explain hl failure)).bind fun _ =>
      (balances_print hl _).bind fun _ => (balances_dropPages hl run).bind fun _ =>
        balances_done.2 rfl

/-- Of all volumes only the one that loaded has left anything. -/
theorem balances_tryVolumes (hl : efi.live = true) (handles : UInt64) (path : String) :
    ∀ left number, (efi.tryVolumes handles path left number).Balances lending 0 imageOf
  | 0, _ => balances_done.2 rfl
  | left + 1, number => by
    refine (balances_tryVolume hl handles number path).bind fun image => ?_
    cases image with
    | some image => exact balances_done.2 rfl
    | none => exact balances_tryVolumes hl handles path left (number + 1)

theorem balances_findCore (hl : efi.live = true) (path : String) :
    (efi.findCore path {}).Balances lending 0 fun x =>
      imageOf (if x.1.isError then none else some x.2) := by
  rw [findCore, call_eq_of_live hl]
  refine balances_request rfl fun handles => ?_
  rw [zero_add, lent_locateHandleBuffer]
  split
  · rename_i hnone
    refine (balances_print hl _).bind fun _ => balances_done.2 ?_
    rw [if_pos isError_notFound]
    rcases Bool.or_eq_true _ _ ▸ hnone with hs | h0
    · rw [if_pos hs]
      rfl
    · rw [eq_of_beq h0]
      split <;> rfl
  rename_i hsome
  rw [Bool.or_eq_true, not_or] at hsome
  rw [if_neg hsome.1]
  refine ((balances_tryVolumes hl _ path _ 0).gain _).bind fun found => ?_
  rw [add_comm]
  cases found with
  | none =>
    refine ((balances_free hl _).frame _).bind fun _ => balances_done.2 ?_
    rw [if_pos isError_notFound, zero_add]
  | some found =>
    refine ((balances_dropPages hl {}).idle _).bind fun _ => ?_
    refine ((balances_free hl _).frame _).bind fun _ => balances_done.2 ?_
    rw [if_neg (by simp [Status.isError_success]), zero_add]

end Loading

section Platform

theorem balances_firstHandle (hl : efi.live = true) (protocol : Guid) :
    (efi.firstHandle protocol).Balances lending 0 fun _ => 0 := by
  rw [firstHandle, call_eq_of_live hl]
  refine balances_idle rfl (fun _ => rfl) fun got => ?_
  split
  · exact balances_done.2 rfl
  split
  · exact balances_done.2 rfl
  refine (balances_allocate hl _).bind fun buffer => ?_
  split
  · rename_i h0
    rw [h0]
    exact balances_done.2 rfl
  rw [call_eq_of_live hl]
  refine balances_idle rfl (fun _ => rfl) fun again => ?_
  split
  · exact (balances_free hl buffer).bind fun _ => balances_done.2 rfl
  · exact balances_idle rfl (fun _ => rfl) fun _ =>
      (balances_free hl buffer).bind fun _ => balances_done.2 rfl

theorem balances_locateProtocol (hl : efi.live = true) (protocol : Guid) :
    (efi.locateProtocol protocol).Balances lending 0 fun _ => 0 := by
  rw [locateProtocol, check_of_live hl, bind_done]
  split
  · rw [call_eq_of_live hl]
    exact balances_idle rfl (fun _ => rfl) fun _ => balances_done.2 rfl
  refine (balances_firstHandle hl protocol).bind fun handle => ?_
  cases handle with
  | none => exact balances_done.2 rfl
  | some handle =>
    dsimp only
    rw [call_eq_of_live hl]
    exact balances_idle rfl (fun _ => rfl) fun _ => balances_done.2 rfl

theorem balances_findGraphics (hl : efi.live = true) :
    efi.findGraphics.Balances lending 0 fun _ => 0 := by
  rw [findGraphics, check_of_live hl, bind_done]
  split
  · exact balances_locateProtocol hl _
  rw [call_eq_of_live hl]
  refine balances_idle rfl (fun _ => rfl) fun got => ?_
  split
  · exact balances_done.2 rfl
  · exact balances_locateProtocol hl _

theorem balances_fillFramebuffer (hl : efi.live = true) (info : BootInfo) :
    (efi.fillFramebuffer info).Balances lending 0 fun _ => 0 := by
  refine (balances_findGraphics hl).bind fun graphics => ?_
  split
  · exact balances_done.2 rfl
  split
  · exact balances_done.2 rfl
  split <;> exact balances_done.2 rfl

theorem balances_warn (hl : efi.live = true) (message : String) :
    (efi.warn message).Balances lending held fun _ => held :=
  balances_of_onConsole (onConsole_warn hl message)

theorem balances_describeAcpi (hl : efi.live = true) (info : BootInfo) :
    (efi.describeAcpi info).Balances lending 0 fun _ => 0 := by
  refine (balances_of_onConsole (only_fillAcpi hl info)).bind ?_
  rintro ⟨acpi, info⟩
  cases acpi
  · exact (balances_warn hl _).bind fun _ => balances_done.2 rfl
  · exact balances_done.2 rfl

theorem balances_describePlatform (hl : efi.live = true) (info : BootInfo) :
    (efi.describePlatform info).Balances lending 0 fun _ => 0 := by
  refine (balances_fillFramebuffer hl info).bind ?_
  rintro ⟨drawable, info⟩
  cases drawable
  · exact (balances_warn hl _).bind fun _ => balances_describeAcpi hl info
  · exact balances_describeAcpi hl info

end Platform

/-- What is owned when the services are to be ended. -/
def handoverOf : Except Status Handover → Multiset Resource
  | .error _ => 0
  | .ok state => pagesOf state.core.pages + bufferOf state.map.buffer

theorem balances_prepareCore (hl : efi.live = true) (core : CoreImage) :
    (efi.prepareCore core).Balances lending (pagesOf core.pages) handoverOf := by
  refine ((balances_describePlatform hl _).idle _).bind fun info => ?_
  refine (balances_of_onConsole (onConsole_printSummary hl info)).bind fun _ => ?_
  have hmap : (efi.acquireMap {}).Balances lending 0 fun x =>
      bufferOf (if x.1 = .ok then x.2.buffer else 0) := balances_acquireMap hl {}
  refine (hmap.gain _).bind fun ⟨outcome, map⟩ => ?_
  dsimp only
  split
  · exact balances_done.2 (add_comm _ _)
  · rw [bufferOf_zero, zero_add]
    exact (balances_dropPages hl _).bind fun _ =>
      (balances_of_onConsole (onConsole_fail hl _)).bind fun _ => balances_done.2 rfl

/-- A boot that fails has given everything back, and one that does not owns the core and a
snapshot. -/
theorem balances_prepare (hl : efi.live = true) :
    efi.prepare.Balances lending 0 handoverOf := by
  refine (balances_of_onConsole (onConsole_printBanner hl)).bind fun _ => ?_
  refine (balances_print hl _).bind fun _ => (balances_findCore hl _).bind fun ⟨status, core⟩ => ?_
  dsimp only
  split
  · exact (balances_of_onConsole (onConsole_fail hl _)).bind fun _ => balances_done.2 rfl
  · exact balances_prepareCore hl core

end Services

/-- The status of a call to end the services. -/
def exitStatus? : Exchange Firmware → Option Status
  | ⟨.exitBootServices .., status⟩ => some status
  | _ => none

/-- What the core owns once it was entered with the record. -/
def BootInfo.owned (info : BootInfo) : Multiset Resource :=
  pagesOf ⟨info.coreAddress, pagesForBytes info.coreSize⟩ + bufferOf info.mapAddress

/-- All was given back, each once, and the core was not entered. -/
structure Settled (es : List (Exchange Firmware)) : Prop where
  balanced : Ledger lending 0 es 0
  unentered : ∀ e ∈ es, entryOf? e = none

/-- The account of a run: it is settled by a boot that returns, by one that was refused the end of
the services for the last time, and by one that stops; and a core that is entered owns all that is
left, then and for good. -/
structure Accounted (es : List (Exchange Firmware)) (o : Option Ending) : Prop where
  returned : ∀ status, o = some (.returned status) → Settled es
  refused : ∀ status : Status, (es.filterMap exitStatus?).getLast? = some status →
    status.isError = true → Settled es
  stopped : o = none → Settled es
  entered : ∀ pre entry info (r : Unit) post, es = pre ++ ⟨.enterCore entry info, r⟩ :: post →
    Ledger lending 0 pre info.owned ∧ Ledger lending 0 es info.owned

theorem Settled.accounted {es : List (Exchange Firmware)} {o : Option Ending} (h : Settled es) :
    Accounted es o where
  returned _ _ := h
  refused _ _ _ := h
  stopped _ := h
  entered pre entry info r post hes := by
    have hentry := h.unentered ⟨.enterCore entry info, r⟩ (by simp [hes])
    cases hentry

section Attempts

variable {image : UInt64} {left : Nat} {map map' : MemoryMap} {info info' : BootInfo}
variable {es : List (Exchange Firmware)} {status : Status} {held : Multiset Resource}

theorem ledger_attempts (h : Attempts image left map info es status map' info') :
    Ledger lending held es held := by
  refine Ledger.of_idle fun ⟨q, r⟩ he => ?_
  rcases h.quiet _ he with h | ⟨_, _, h⟩ <;> cases q <;> first | exact ⟨rfl, rfl⟩ | cases h

/-- The last attempt went as the whole did. -/
theorem exists_last_exitStatus (h : Attempts image left map info es status map' info') :
    ∃ last, (es.filterMap exitStatus?).getLast? = some last ∧ last.isError = status.isError := by
  induction h with
  | ended h => exact ⟨_, rfl, rfl⟩
  | unread h hg => exact ⟨_, rfl, h.trans hg.symm⟩
  | @again _ _ _ _ _ status₁ _ _ es h hg rest ih =>
    obtain ⟨last, hlast, heq⟩ := ih
    refine ⟨last, ?_, heq⟩
    change (status₁ :: es.filterMap exitStatus?).getLast? = some last
    rw [List.getLast?_cons, hlast]
    rfl

end Attempts

theorem sum_returned_freePages (run : PageRun) :
    ((if run.nonempty then [Call.freePages run.address run.pages] else []).map
      lending.returned).sum = pagesOf run := by
  split
  · rw [List.map_singleton, List.sum_singleton]
    rfl
  · rename_i hr
    exact (if_neg hr).symm

theorem sum_returned_freePool (buffer : UInt64) :
    ((if buffer ≠ 0 then [Call.freePool buffer] else []).map lending.returned).sum =
      bufferOf buffer := by
  split
  · rw [List.map_singleton, List.sum_singleton]
    rfl
  · rename_i hb
    rw [not_not.1 hb]
    rfl

/-- After services that could not be ended everything is given back. -/
theorem ledger_abandonCalls {es : List (Exchange Firmware)} {status : Status} {state : Handover}
    (h : es.map (·.1) = abandonCalls status state) :
    Ledger lending (pagesOf state.core.pages + bufferOf state.map.buffer) es 0 := by
  have hlent : ∀ e ∈ es, lending.lent e = 0 := by
    rintro ⟨q, r⟩ he
    have hq := isParting_of_abandoned h _ he
    cases q <;> first | rfl | exact hq.elim
  have hreturned : ((abandonCalls status state).map lending.returned).sum =
      pagesOf state.core.pages + bufferOf state.map.buffer := by
    rw [abandonCalls, List.map_append, List.sum_append, List.map_append, List.sum_append,
      List.map_append, List.sum_append, sum_returned_freePages, sum_returned_freePool]
    simp [lending]
  have hmap : es.map (fun e => lending.returned e.1) =
      (abandonCalls status state).map lending.returned := by
    rw [← h, List.map_map]
    rfl
  rw [← hreturned, ← hmap, ← zero_add (List.sum _)]
  exact Ledger.of_lent_eq_zero hlent

theorem ledger_entered (info : BootInfo) (held : Multiset Resource) :
    Ledger lending held (entered info) held :=
  Ledger.of_idle (by simp [entered, enteringCall, lending])

namespace Services

variable {efi : Services}

/-- A core that is entered owns what the loader owned before the services were ended. -/
theorem accounted_of_entered {es₁ es₂ : List (Exchange Firmware)} {state final : Handover}
    {map : MemoryMap} {info : BootInfo} {status : Status} (hp : Prepared efi es₁ state)
    (hcore : ∀ e ∈ es₁, entryOf? e = none)
    (hledger : Ledger lending 0 es₁ (pagesOf state.core.pages + bufferOf state.map.buffer))
    (h : Attempts efi.image exitRetries state.map state.info es₂ status map info)
    (hs : status.isError = false) :
    Accounted (es₁ ++ (es₂ ++ entered info)) (some (.halted final)) := by
  have howned : pagesOf state.core.pages + bufferOf state.map.buffer = info.owned := by
    obtain ⟨screen, root, hinfo, -, -⟩ := hp.info
    rw [h.info_eq hinfo, BootInfo.owned, BootInfo.core_described.1, BootInfo.core_described.2,
      ← hp.core.pages, ← h.buffer_eq]
    rfl
  rw [howned] at hledger
  have hafter := hledger.append (ledger_attempts h)
  refine ⟨fun _ hreturned => ?_, fun last hlast herror => ?_, fun hstopped => ?_,
    fun pre entry told r post hes => ?_⟩
  · cases hreturned
  · obtain ⟨last', hlast', heq⟩ := exists_last_exitStatus h
    have hnone : (entered info).filterMap exitStatus? = [] := rfl
    rw [List.filterMap_append, List.filterMap_append, hnone, List.append_nil, List.getLast?_append,
      hlast', Option.some_or, Option.some.injEq] at hlast
    rw [← hlast, heq, hs] at herror
    cases herror
  · cases hstopped
  · rw [← List.append_assoc] at hes ⊢
    obtain ⟨rfl, rfl, rfl⟩ := eq_of_entered
      (List.forall_mem_append.2 ⟨hcore, h.entryOf?_eq_none⟩) hes
    exact ⟨hafter.append (Ledger.of_idle (by simp [enteringCall, lending])),
      hafter.append (ledger_entered told _)⟩

/-- Every run of the boot is accounted for. -/
theorem accounted_boot {es : List (Exchange Firmware)} {o : Option Ending}
    (h : Runs efi.boot es o) : Accounted es o := by
  cases booted_of_runs h with
  | misused hl =>
    have hsettled : Settled [⟨.debugWrite misuse, ()⟩, ⟨.halt, ()⟩] :=
      ⟨Ledger.of_idle (by simp [lending]), by simp [entryOf?]⟩
    exact hsettled.accounted
  | returned hl hr =>
    have hsettled : Settled es :=
      ⟨(balances_prepare hl).of_runs hr, entryOf?_eq_none_of_prepare hl hr⟩
    exact hsettled.accounted
  | @halted es₁ es₂ state final hl hr hend =>
    have hcore := entryOf?_eq_none_of_prepare hl hr
    have hledger := (balances_prepare hl).of_runs hr
    cases hend with
    | @refused es₂ es₃ status map' info' hattempts hs hend =>
      have hgiven := ledger_abandonCalls hend
      rw [hattempts.buffer_eq] at hgiven
      have hsettled : Settled (es₁ ++ (es₂ ++ es₃)) := by
        refine ⟨hledger.append ((ledger_attempts hattempts).append hgiven), ?_⟩
        rw [List.forall_mem_append, List.forall_mem_append]
        exact ⟨hcore, hattempts.entryOf?_eq_none, entryOf?_eq_none_of_abandoned hend⟩
      exact hsettled.accounted
    | entered hattempts hs =>
      have hprepared : efi.prepare.Ensures (fun _ => True) _ := ensures_prepare hl
      exact accounted_of_entered (hprepared.of_runs hr (fun _ _ => trivial) state rfl) hcore
        hledger hattempts hs

/-- The small firmware lends four resources, and two of them are the core's at the end. -/
theorem accounted_smallBoot : (∃ o, Accounted smallBoot o) ∧
    (smallBoot.map lending.lent).sum.card = 4 ∧
      (smallBoot.map fun e => lending.returned e.1).sum.card = 2 := by
  obtain ⟨o, h⟩ := runs_smallBoot
  exact ⟨⟨o, accounted_boot h⟩, by decide +kernel, by decide +kernel⟩

end Services

end Bootloader.Uefi
