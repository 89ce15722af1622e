import Bootloader.Proofs.Uefi.FileLoad
import Bootloader.Proofs.Uefi.Returned

/-!
# The handles of a load

A load opens a volume, and on it a file.  However it ends, both are closed again, the file first:
a call on a handle finds it open, and the call that closes it finds it the one opened last of those
that are open, with no buffer left to be given back (`handleRule`).

A part of the load keeps open what was open before it (`StillOpen`), and leaves no buffer because
its ledger has none.  So every load closes what it has opened, each handle once and nothing else
(`Services.handlesClosed_loadFile`).
-/

namespace Bootloader.Uefi

open Program

/-- The object of an answer, if it has one. -/
def Answer.object? (got : Answer UInt64) : Option UInt64 :=
  if got.status.isError || got.value == 0 then none else some got.value

/-- The handle of the volume or the file that was opened. -/
def openedHandle? : Exchange Firmware → Option UInt64
  | ⟨.openVolume _, got⟩ => got.object?
  | ⟨.openFile .., got⟩ => got.object?
  | _ => none

/-- The handle that was closed. -/
def closedHandle? : Exchange Firmware → Option UInt64
  | ⟨.closeFile file, _⟩ => some file
  | _ => none

abbrev openings : List (Exchange Firmware) → List UInt64 := picked openedHandle?

abbrev closings : List (Exchange Firmware) → List UInt64 := picked closedHandle?

/-- What an exchange leaves open of what was open before, the handle opened last first. -/
def handlesAfter (held : List UInt64) : Exchange Firmware → List UInt64
  | ⟨.closeFile file, _⟩ => held.erase file
  | e => (openedHandle? e).toList ++ held

/-- The handles that are open after some exchanges; a firmware may give one handle out twice. -/
def openHandles (es : List (Exchange Firmware)) : List UInt64 := es.foldl handlesAfter []

/-- A call on a volume or a file finds it open.  It is closed only while it is the one opened last,
and after all buffers were given back. -/
def handleRule : Rule Firmware
  | past, .openFile root .. => root ∈ openHandles past
  | past, .fileInfo file .. => file ∈ openHandles past
  | past, .fileRead file .. => file ∈ openHandles past
  | past, .closeFile file => (openHandles past).head? = some file ∧
    ∀ buffer, ¬Outstanding past (.buffer buffer)
  | _, _ => True

/-- What was opened is closed, each handle once and the last one first, and it is not called any
more after that. -/
structure HandlesClosed (es : List (Exchange Firmware)) : Prop where
  kept : handleRule.KeptBy es
  once : closings es = (openings es).reverse
  nothingOpen : openHandles es = []

/-- After the exchanges these handles are open, and no buffer is left to be given back. -/
structure StillOpen (past : List (Exchange Firmware)) (held : List UInt64) : Prop where
  handles : openHandles past = held
  buffers : ∀ buffer, ¬Outstanding past (.buffer buffer)

section Handles

variable {got : Answer UInt64} {es past : List (Exchange Firmware)} {held : List UInt64}

theorem Answer.IsObject.object?_eq (h : got.IsObject) : got.object? = some got.value :=
  if_neg ((Answer.isObject_iff got).1 h)

theorem Answer.object?_eq_none (h : ¬got.IsObject) : got.object? = none :=
  if_pos (not_not.1 (mt (Answer.isObject_iff got).2 h))

@[simp] theorem openHandles_concat (es : List (Exchange Firmware)) (e : Exchange Firmware) :
    openHandles (es ++ [e]) = handlesAfter (openHandles es) e := by
  simp [openHandles]

theorem handlesAfter_of_closedHandle? {e : Exchange Firmware} (h : closedHandle? e = none) :
    handlesAfter held e = (openedHandle? e).toList ++ held := by
  obtain ⟨q, r⟩ := e
  cases q <;> first | rfl | cases h

theorem stillOpen_nil : StillOpen [] [] := ⟨rfl, by simp [Outstanding]⟩

theorem count_pagesOf (run : PageRun) (buffer : UInt64) :
    (pagesOf run).count (.buffer buffer) = 0 := by
  unfold pagesOf
  split <;> simp

/-- A part of a load that owns nothing but pages leaves no buffer. -/
theorem not_outstanding_append {before after : PageRun} {buffer : UInt64}
    (h : ¬Outstanding past (.buffer buffer))
    (hes : Ledger lending (pagesOf before) es (pagesOf after)) :
    ¬Outstanding (past ++ es) (.buffer buffer) := by
  have hcount := congrArg (Multiset.count (.buffer buffer)) hes.conserves
  rw [Multiset.count_add, Multiset.count_add, count_pagesOf, count_pagesOf] at hcount
  unfold Outstanding at h ⊢
  rw [List.map_append, List.map_append, List.sum_append, List.sum_append, Multiset.count_add,
    Multiset.count_add]
  omega

namespace StillOpen

/-- An exchange that has nothing to do with memory opens or closes a handle, if anything. -/
theorem concat (h : StillOpen past held) {e : Exchange Firmware} (hl : lending.lent e = 0)
    (hr : lending.returned e.1 = 0) : StillOpen (past ++ [e]) (handlesAfter held e) := by
  refine ⟨by rw [openHandles_concat, h.handles], fun buffer => ?_⟩
  have hledger : Ledger lending (pagesOf {}) [e] (pagesOf {}) := .cons_idle hl hr (.nil 0)
  exact not_outstanding_append (h.buffers buffer) hledger

theorem opened (h : StillOpen past held) {e : Exchange Firmware} {handle : UInt64}
    (hl : lending.lent e = 0) (hr : lending.returned e.1 = 0) (ho : openedHandle? e = some handle)
    (hc : closedHandle? e = none) : StillOpen (past ++ [e]) (handle :: held) := by
  have hnow := h.concat hl hr
  rwa [handlesAfter_of_closedHandle? hc, ho] at hnow

theorem unopened (h : StillOpen past held) {e : Exchange Firmware} (hl : lending.lent e = 0)
    (hr : lending.returned e.1 = 0) (ho : openedHandle? e = none) (hc : closedHandle? e = none) :
    StillOpen (past ++ [e]) held := by
  have hnow := h.concat hl hr
  rwa [handlesAfter_of_closedHandle? hc, ho] at hnow

theorem close {file : UInt64} (h : StillOpen past (file :: held)) :
    StillOpen (past ++ [⟨.closeFile file, ()⟩]) held := by
  have hnow := h.concat (e := ⟨.closeFile file, ()⟩) rfl rfl
  rwa [handlesAfter, List.erase_cons_head] at hnow

/-- The handle opened last may be closed. -/
theorem rule_close {file : UInt64} (h : StillOpen past (file :: held)) :
    handleRule past (.closeFile file) := ⟨by rw [h.handles, List.head?_cons], h.buffers⟩

end StillOpen

end Handles

namespace Services

variable {efi : Services} {past : List (Exchange Firmware)} {held : List UInt64}

/-- While an open file is loaded, that file is called and no other, and stays open. -/
theorem observes_loadOpenFile (hl : efi.live = true) {file : UInt64} (pages : PageRun)
    (h : StillOpen past (file :: held)) :
    (efi.loadOpenFile file pages).Observes handleRule past fun now _ =>
      StillOpen now (file :: held) := by
  have hstep : ∀ (past : List (Exchange Firmware)) (q : Call), q.IsFillingOf file →
      openHandles past = file :: held →
        handleRule past q ∧ ∀ r, openHandles (past ++ [⟨q, r⟩]) = file :: held := by
    intro past q hq hp
    constructor
    · cases q <;> simp_all [Call.IsFillingOf, handleRule]
    · intro r
      rw [openHandles_concat, hp]
      cases q <;> first | rfl | exact hq.elim
  refine ((only_loadOpenFile hl file pages).observes hstep h.handles).runs.mono ?_
  rintro now x ⟨hnow, es, rfl, hr⟩
  have hledger := (balances_loadOpenFile hl file pages).of_runs hr
  exact ⟨hnow, fun buffer => not_outstanding_append (h.buffers buffer) hledger⟩

theorem observes_loadFromRoot (hl : efi.live = true) {root : UInt64} (path : String)
    (pages : PageRun) (h : StillOpen past (root :: held)) :
    (efi.loadFromRoot root path pages).Observes handleRule past fun now _ =>
      StillOpen now (root :: held) := by
  have hroot : root ∈ openHandles past := by simp [h.handles]
  refine observes_request.2 ⟨hroot, fun file => ?_⟩
  split
  · rename_i hnone
    have hfile : ¬file.IsObject := mt (Answer.isObject_iff _).1 (not_not.2 hnone)
    exact observes_done.2 (h.unopened rfl rfl (Answer.object?_eq_none hfile) rfl)
  · rename_i hfile
    rw [← Answer.isObject_iff] at hfile
    have hopen := h.opened (e := ⟨.openFile root path readMode 0, file⟩) rfl rfl hfile.object?_eq
      rfl
    refine (observes_loadOpenFile hl pages hopen).bind fun now x hnow => ?_
    exact observes_request.2 ⟨hnow.rule_close, fun _ => observes_done.2 hnow.close⟩

theorem observes_loadFile (hl : efi.live = true) (device : UInt64) (path : String)
    (pages : PageRun) (h : StillOpen past held) :
    (efi.loadFile device path pages).Observes handleRule past fun now _ => StillOpen now held := by
  rw [loadFile, call_eq_of_live hl]
  refine observes_request.2 ⟨trivial, fun fileSystem => ?_⟩
  have h₁ := h.unopened (e := ⟨.handleProtocol device .simpleFileSystem, fileSystem⟩) rfl rfl rfl
    rfl
  split
  · exact observes_done.2 h₁
  refine observes_request.2 ⟨trivial, fun root => ?_⟩
  split
  · rename_i hnone
    have hroot : ¬root.IsObject := mt (Answer.isObject_iff _).1 (not_not.2 hnone)
    exact observes_done.2 (h₁.unopened rfl rfl (Answer.object?_eq_none hroot) rfl)
  · rename_i hroot
    rw [← Answer.isObject_iff] at hroot
    have hopen := h₁.opened (e := ⟨.openVolume fileSystem.value, root⟩) rfl rfl hroot.object?_eq rfl
    refine (observes_loadFromRoot hl path pages hopen).bind fun now x hnow => ?_
    exact observes_request.2 ⟨hnow.rule_close, fun _ => observes_done.2 hnow.close⟩

end Services

section Once

variable {device : UInt64} {path : String} {pages : PageRun} {es : List (Exchange Firmware)}
variable {x : Except LoadFailure UInt64 × PageRun}

theorem openings_eq_nil (h : ∀ e ∈ es, e.1.IsFilling) : openings es = [] := by
  refine picked_eq_nil ?_
  rintro ⟨q, r⟩ he
  have hq := h _ he
  cases q <;> first | rfl | exact hq.elim

theorem closings_eq_nil (h : ∀ e ∈ es, e.1.IsFilling) : closings es = [] := by
  refine picked_eq_nil ?_
  rintro ⟨q, r⟩ he
  have hq := h _ he
  cases q <;> first | rfl | exact hq.elim

theorem FileLoaded.closings_eq (h : FileLoaded device path pages es x) :
    closings es = (openings es).reverse := by
  cases h with
  | noFileSystem h => rfl
  | cannotOpenVolume hf h => simp [openedHandle?, closedHandle?, Answer.object?_eq_none h]
  | cannotOpenFile hf hr h =>
    simp [openedHandle?, closedHandle?, hr.object?_eq, Answer.object?_eq_none h]
  | opened hf hr ho h =>
    simp [openedHandle?, closedHandle?, hr.object?_eq, ho.object?_eq,
      openings_eq_nil h.isFilling, closings_eq_nil h.isFilling]

end Once

namespace Services

/-- However the load of a file ends, what it has opened is closed; only a loader that has given the
services up comes to no end, and it has opened nothing. -/
theorem handlesClosed_loadFile {efi : Services} {device : UInt64} {path : String} {pages : PageRun}
    {es : List (Exchange Firmware)} {o : Option (Except LoadFailure UInt64 × PageRun)}
    (h : Runs (efi.loadFile device path pages) es o) :
    HandlesClosed es ∧ (o = none → efi.live = false ∧ openings es = []) := by
  cases hl : efi.live with
  | true =>
    have hloaded : (efi.loadFile device path pages).Ensures (fun _ => True) _ :=
      ensures_fileLoaded hl device path pages
    obtain ⟨hkept, x, rfl, hopen⟩ :=
      (observes_loadFile hl device path pages stillOpen_nil).of_runs h
    exact ⟨⟨hkept, (hloaded.of_run h).closings_eq, hopen.handles⟩, by simp⟩
  | false =>
    rw [loadFile, call, bind_assoc] at h
    obtain ⟨rfl, rfl⟩ := runs_check_of_not_live hl h
    refine ⟨⟨Rule.keptBy_of_forall ?_, rfl, rfl⟩, fun _ => ⟨rfl, rfl⟩⟩
    intro e he past
    simp only [List.mem_cons, List.not_mem_nil, or_false] at he
    rcases he with rfl | rfl <;> exact trivial

/-- The small firmware with a file whose record needs a larger buffer, and of which it reads less
than there is. -/
def reluctantFirmware : (q : Call) → (exits : Nat) → q.Reply × Nat
  | .fileInfo _ _ size _, n => (⟨if size < 200 then .bufferTooSmall else .success, 200⟩, n)
  | .fileRead .., n => (⟨.success, 100⟩, n)
  | q, n => smallFirmware q n

/-- The load of that file fails with the file open, after two buffers were given back. -/
theorem handlesClosed_shortRead : ∃ es,
    Runs (smallServices.loadFile 0x100 corePath {}) es (some (.error .shortRead, ⟨0x200000, 1⟩)) ∧
      HandlesClosed es ∧ openings es = [0x5000, 0x6000] ∧ closings es = [0x6000, 0x5000] ∧
        (es.map fun e => lending.returned e.1).sum = {.buffer 0x1000, .buffer 0x1000} := by
  have hr : Runs (smallServices.loadFile 0x100 corePath {}) _
      (some (.error .shortRead, ⟨0x200000, 1⟩)) :=
    runs_exchanges reluctantFirmware (smallServices.loadFile 0x100 corePath {}) 0
  exact ⟨_, hr, (handlesClosed_loadFile hr).1, by decide +kernel, by decide +kernel,
    by decide +kernel⟩

end Services

end Bootloader.Uefi
