import Bootloader.Proofs.Carried
import Bootloader.Proofs.Uefi.Acquisition

/-!
# Rules for the memory of the firmware

The firmware fills a buffer with as many bytes as it is told there is room for, so a size that is
not that of the buffer makes it write over memory of others.  `roomRule` says that whatever it is
asked to fill is a live buffer of just the size it is told, or none at all, and `freeRule` that
memory is given back only where there is some: a snapshot that the firmware granted without a buffer
is the one exception (`TakenBare`).

A measured query observes a rule of its own, whatever it is about (`SizedQuery.observes_sizedQuery`),
and so one that the firmware carries out observes both rules (`Services.observes_sizedQuery`).
-/

namespace Bootloader.Uefi

open Program

/-- The exchange lends this buffer, or gives it back. -/
def Touches (buffer : UInt64) : Exchange Firmware → Prop
  | ⟨.allocatePool .., got⟩ => got.status.isError = false ∧ got.value = buffer
  | ⟨.locateHandleBuffer .., got⟩ => got.status.isError = false ∧ got.value.buffer = buffer
  | ⟨.freePool given, _⟩ => given = buffer
  | _ => False

/-- The buffer was allocated with this size, and neither given back nor lent again since. -/
def Holds (past : List (Exchange Firmware)) (size buffer : UInt64) : Prop :=
  ∃ pre kind got post, past = pre ++ ⟨.allocatePool kind size, got⟩ :: post ∧
    got.status.isError = false ∧ got.value = buffer ∧ buffer ≠ 0 ∧ ∀ e ∈ post, ¬Touches buffer e

/-- There is as much room as is said: no buffer and no bytes, or a live buffer of that size. -/
def Room (past : List (Exchange Firmware)) (size buffer : UInt64) : Prop :=
  (size = 0 ∧ buffer = 0) ∨ Holds past size buffer

/-- What the call has the firmware fill, and how many bytes it says there are. -/
def Call.room? : Call → Option (UInt64 × HandleBuffer)
  | getMemoryMap size buffer => some (size, .pool buffer)
  | fileInfo _ _ size buffer => some (size, .pool buffer)
  | locateHandle _ _ size buffer => some (size, buffer)
  | _ => none

/-- What is to be filled has the size that the firmware is told. -/
def roomRule : Rule Firmware := fun past q =>
  match q.room? with
  | none => True
  | some (size, .single) => size = 8
  | some (size, .pool buffer) => Room past size buffer

/-- The first call for the memory map, which brings no buffer, was a success, with descriptors that
are too small. -/
def TakenBare (es : List (Exchange Firmware)) : Prop :=
  ∃ got, es.findSome? mapAnswer? = some got ∧ got.status = .success ∧
    got.value.descriptorSize.getD 0 < 40

/-- There is something to be given back, or the snapshot was granted without a buffer. -/
def freeRule : Rule Firmware
  | past, .freePool buffer => buffer ≠ 0 ∨ TakenBare past
  | _, .freePages _ pages => pages ≠ 0
  | _, _ => True

/-- Both rules. -/
def memoryRule : Rule Firmware := fun past q => roomRule past q ∧ freeRule past q

/-- The call is given no room and gives none back. -/
def Call.IsPlain : Call → Prop
  | getMemoryMap .. | fileInfo .. | locateHandle .. | freePool _ | freePages .. => False
  | _ => True

/-- What the action does observes both rules, whatever was before. -/
abbrev Proper {α : Type} (p : Action α) : Prop :=
  ∀ past, p.Observes memoryRule past fun _ _ => True

section Room

variable {past : List (Exchange Firmware)} {size buffer : UInt64}

theorem Holds.append {es : List (Exchange Firmware)} (h : Holds past size buffer)
    (hes : ∀ e ∈ es, ¬Touches buffer e) : Holds (past ++ es) size buffer := by
  obtain ⟨pre, kind, got, post, rfl, hs, hv, hb, hpost⟩ := h
  exact ⟨pre, kind, got, post ++ es, by simp, hs, hv, hb, List.forall_mem_append.2 ⟨hpost, hes⟩⟩

theorem Room.append {es : List (Exchange Firmware)} (h : Room past size buffer)
    (hes : ∀ e ∈ es, ¬Touches buffer e) : Room (past ++ es) size buffer :=
  h.imp_right fun h => h.append hes

theorem Holds.ne_zero (h : Holds past size buffer) : buffer ≠ 0 := by
  obtain ⟨_, _, _, _, _, _, _, hb, _⟩ := h
  exact hb

/-- Memory that was just allocated is live. -/
theorem holds_allocated (past : List (Exchange Firmware)) {kind : UInt32} {got : Answer UInt64}
    (hv : (if got.status.isError then 0 else got.value) = buffer) (hb : buffer ≠ 0) :
    Holds (past ++ [⟨.allocatePool kind size, got⟩]) size buffer := by
  cases hs : got.status.isError with
  | true => simp [hs, hb.symm] at hv
  | false =>
    rw [if_neg (by simp [hs])] at hv
    exact ⟨past, kind, got, [], rfl, hs, hv, hb, by simp⟩

theorem memoryRule_of_isPlain {q : Call} (h : q.IsPlain) : memoryRule past q := by
  cases q <;> first | exact ⟨trivial, trivial⟩ | exact h.elim

end Room

section Proper

variable {α β : Type} {p : Action α} {f : α → Action β}

theorem Proper.bind (hp : Proper p) (hf : ∀ a, Proper (f a)) : Proper (p >>= f) :=
  fun past => (hp past).bind fun now a _ => hf a now

theorem proper_done (a : α) : Proper (done a : Action α) := fun _ => observes_done.2 trivial

theorem proper_of_only {P : Call → Prop} (hp : p.Only P) (h : ∀ q, P q → q.IsPlain) : Proper p :=
  fun _ => Only.observes hp
    (fun _ q hq _ => ⟨memoryRule_of_isPlain (h q hq), fun _ => trivial⟩) trivial

theorem proper_perform {q : Call} (h : q.IsPlain) : Proper (perform q) :=
  proper_of_only (P := (· = q)) (only_perform rfl) (by simpa using h)

theorem proper_of_onConsole (hp : OnConsole p) : Proper p :=
  proper_of_only hp fun q hq => by cases q <;> first | exact trivial | exact hq.elim

end Proper

namespace SizedQuery

/-- A query is given no buffer and no bytes, or the buffer that was just allocated for it, and only
a buffer is given back. -/
def bufferRule : Rule SizedQuery
  | past, .query size buffer => (size = 0 ∧ buffer = 0) ∨
    (buffer ≠ 0 ∧ ∃ before, past = before ++ [⟨.allocate size, buffer⟩])
  | _, .free buffer => buffer ≠ 0
  | _, _ => True

/-- A buffer that was filled was allocated just before the last query, which filled it. -/
def FilledFresh (es : List (Exchange SizedQuery)) (result : Filled) : Prop :=
  result.buffer ≠ 0 ∧ ∃ before got, es = before ++ [⟨.allocate result.allocated, result.buffer⟩] ++
    [⟨.query result.allocated result.buffer, got⟩]

/-- The only query was given no buffer and was a success. -/
def FilledBare (initial : UInt64) (es : List (Exchange SizedQuery)) (result : Filled) : Prop :=
  initial = 0 ∧ result.allocated = 0 ∧ result.buffer = 0 ∧
    es = [⟨.query 0 0, (⟨.success, result.size⟩ : Answer UInt64)⟩]

variable {past : List (Exchange SizedQuery)}

theorem observes_fetch (size : UInt64) :
    (fetch size).Observes bufferRule past fun now outcome =>
      ∀ result, outcome = .filled result → FilledFresh now result := by
  refine observes_request.2 ⟨trivial, fun buffer => ?_⟩
  by_cases hb : buffer = 0
  · rw [if_pos hb]
    exact observes_done.2 (by simp)
  rw [if_neg hb]
  refine observes_request.2 ⟨.inr ⟨hb, past, rfl⟩, fun got => ?_⟩
  by_cases hs : got.status = .success
  · rw [if_pos hs]
    refine observes_done.2 ?_
    rintro _ ⟨⟩
    exact ⟨hb, past, got, rfl⟩
  · rw [if_neg hs]
    refine observes_request.2 ⟨hb, fun _ => observes_done.2 ?_⟩
    split <;> simp

theorem observes_afterProbe (got : Answer UInt64) :
    (afterProbe got).Observes bufferRule past fun now outcome =>
      ∀ result, outcome = .filled result → FilledFresh now result := by
  unfold afterProbe
  split
  · exact observes_request.2 ⟨trivial, fun more => observes_fetch _⟩
  · exact observes_done.2 (by simp)

/-- A query whose answer has to be measured gives each query the room it says, and fills a buffer of
its own unless it was granted its answer without one. -/
theorem observes_sizedQuery (initial : UInt64) :
    (sizedQuery initial).Observes bufferRule [] fun now outcome =>
      ∀ result, outcome = .filled result → FilledBare initial now result ∨ FilledFresh now result := by
  unfold sizedQuery
  by_cases h0 : initial = 0
  · rw [if_pos h0]
    refine observes_request.2 ⟨.inl ⟨rfl, rfl⟩, fun got => ?_⟩
    by_cases hs : got.status = .success
    · rw [if_pos hs]
      refine observes_done.2 ?_
      rintro _ ⟨⟩
      exact .inl ⟨h0, rfl, rfl, by rw [← hs]; rfl⟩
    · rw [if_neg hs]
      exact (observes_afterProbe got).mono fun _ _ h result hr => .inr (h result hr)
  rw [if_neg h0]
  refine observes_request.2 ⟨trivial, fun buffer => ?_⟩
  by_cases hb : buffer = 0
  · rw [if_pos hb]
    exact observes_done.2 (by simp)
  rw [if_neg hb]
  refine observes_request.2 ⟨.inr ⟨hb, [], rfl⟩, fun got => ?_⟩
  by_cases hs : got.status = .success
  · rw [if_pos hs]
    refine observes_done.2 ?_
    rintro _ ⟨⟩
    exact .inr ⟨hb, [], got, rfl⟩
  · rw [if_neg hs, if_pos hb]
    exact observes_request.2 ⟨hb, fun _ => (observes_afterProbe got).mono fun _ _ h result hr =>
      .inr (h result hr)⟩

end SizedQuery

namespace Services

variable {efi : Services} {past : List (Exchange Firmware)}

section Memory

theorem proper_call (hl : efi.live = true) {q : Call} (h : q.IsPlain) : Proper (efi.call q) := by
  rw [call_eq_of_live hl]
  exact proper_perform h

theorem proper_print (hl : efi.live = true) (text : String) : Proper (efi.print text) :=
  proper_of_onConsole (onConsole_print hl text)

theorem observes_allocate (hl : efi.live = true) (size : UInt64) :
    (efi.allocate size).Observes memoryRule past fun now buffer =>
      buffer ≠ 0 → Holds now size buffer := by
  rw [allocate, call_eq_of_live hl]
  exact observes_request.2 ⟨⟨trivial, trivial⟩, fun got => observes_done.2 (holds_allocated past rfl)⟩

theorem observes_free (hl : efi.live = true) {buffer : UInt64} (hb : buffer ≠ 0 ∨ TakenBare past) :
    (efi.free buffer).Observes memoryRule past fun _ _ => True := by
  rw [free, call_eq_of_live hl]
  exact observes_request.2 ⟨⟨trivial, hb⟩, fun _ => observes_done.2 trivial⟩

theorem proper_free (hl : efi.live = true) {buffer : UInt64} (hb : buffer ≠ 0) :
    Proper (efi.free buffer) := fun _ => observes_free hl (.inl hb)

theorem proper_dropBuffer (hl : efi.live = true) (buffer : UInt64) :
    Proper (efi.dropBuffer buffer) := by
  unfold dropBuffer
  split
  · exact proper_free hl ‹_›
  · exact proper_done _

theorem proper_dropPages (hl : efi.live = true) (run : PageRun) : Proper (efi.dropPages run) := by
  unfold dropPages
  split
  · rename_i hr
    have hpages : run.pages ≠ 0 := by simpa [PageRun.nonempty] using hr
    rw [call_eq_of_live hl]
    exact fun past => observes_request.2
      ⟨⟨trivial, hpages⟩, fun _ => observes_done.2 trivial⟩
  · exact proper_done _

theorem proper_replacePages (hl : efi.live = true) (old : PageRun) (pages : UInt64) :
    Proper (efi.replacePages old pages) := by
  have halloc : Proper (efi.allocatePages pages) := by
    have hcall : Proper (efi.call (.allocatePages anyPages loaderCode pages)) :=
      proper_call hl trivial
    exact hcall.bind fun _ => proper_done _
  refine halloc.bind fun run => ?_
  cases run with
  | none => exact proper_done _
  | some run => exact (proper_dropPages hl old).bind fun _ => proper_done _

end Memory

section Measured

variable {σ : Type} {query : (size buffer : UInt64) → σ → Action (Answer UInt64 × σ)}
variable {padding : σ → UInt64} {start fs : List (Exchange Firmware)} {s₀ : σ}
variable {R : (size buffer : UInt64) → σ → List (Exchange Firmware) → Answer UInt64 × σ → Prop}

theorem measures_allocate {s s' : σ} {size buffer : UInt64}
    (h : Measures R padding (.allocate size) s fs (buffer, s')) :
    ∃ got : Answer UInt64, fs = [⟨.allocatePool loaderData size, got⟩] ∧
      (if got.status.isError then 0 else got.value) = buffer := by
  cases h with
  | allocate size s got => exact ⟨got, rfl, rfl⟩

/-- A query is carried out with as much room as it says. -/
theorem room_of_carried {s : σ} {es : List (Exchange SizedQuery)} {size buffer : UInt64}
    (hq : SizedQuery.bufferRule es (.query size buffer))
    (hc : Carried (Measures R padding) es s₀ fs s) : Room (start ++ fs) size buffer := by
  obtain ⟨rfl, rfl⟩ | ⟨hb, before, rfl⟩ := hq
  · exact .inl ⟨rfl, rfl⟩
  · obtain ⟨fs₁, s₁, fs₂, rfl, -, hlast⟩ := hc.of_append
    obtain ⟨got, rfl, hv⟩ := measures_allocate hlast.of_singleton
    rw [← List.append_assoc]
    exact .inr (holds_allocated _ hv hb)

/-- The requests of a measured query are carried out as the rules have it, if the query itself is
where there is room. -/
theorem observes_measured (hl : efi.live = true)
    (hR : ∀ now size buffer s, Room now size buffer →
      (query size buffer s).Observes memoryRule now fun now' x =>
        ∃ fs, now' = now ++ fs ∧ R size buffer s fs x)
    (es : List (Exchange SizedQuery)) (q : SizedQuery.Request) (s : σ)
    (fs : List (Exchange Firmware)) (hq : SizedQuery.bufferRule es q)
    (hc : Carried (Measures R padding) es s₀ fs s) :
    (efi.measured query padding q s).Observes memoryRule (start ++ fs) fun now x =>
      ∃ fs', now = start ++ fs ++ fs' ∧ Measures R padding q s fs' x := by
  cases q with
  | allocate size =>
    simp only [measured, Services.allocate, call_eq_of_live hl]
    exact observes_request.2 ⟨⟨trivial, trivial⟩, fun got =>
      observes_done.2 ⟨_, rfl, .allocate size s got⟩⟩
  | free buffer =>
    simp only [measured, Services.free, call_eq_of_live hl]
    exact observes_request.2 ⟨⟨trivial, .inl hq⟩, fun status =>
      observes_done.2 ⟨_, rfl, .free buffer s status⟩⟩
  | query size buffer =>
    refine (hR _ size buffer s (room_of_carried hq hc)).mono fun now x h => ?_
    obtain ⟨fs', rfl, hx⟩ := h
    exact ⟨fs', rfl, .query hx⟩
  | padding => exact observes_done.2 ⟨[], (List.append_nil _).symm, .padding s⟩

/-- A measured query that is carried out observes the rules, and is carried out request by
request. -/
theorem observes_sizedQuery (hl : efi.live = true)
    (hR : ∀ now size buffer s, Room now size buffer →
      (query size buffer s).Observes memoryRule now fun now' x =>
        ∃ fs, now' = now ++ fs ∧ R size buffer s fs x)
    (initial : UInt64) (s₀ : σ) :
    ((sizedQuery initial).via (efi.measured query padding) s₀).Observes memoryRule past
      fun now x => ∃ es fs, now = past ++ fs ∧
        (∀ result, x.1 = .filled result →
          SizedQuery.FilledBare initial es result ∨ SizedQuery.FilledFresh es result) ∧
        Carried (Measures R padding) es s₀ fs x.2 := by
  have hcarry : ∀ es q s fs, SizedQuery.bufferRule es q → Carried (Measures R padding) es s₀ fs s →
      (efi.measured query padding q s).Observes memoryRule (past ++ fs) fun now x =>
        ∃ fs', now = past ++ fs ++ fs' ∧ Measures R padding q s fs' x :=
    observes_measured hl hR
  have h := observes_via hcarry (SizedQuery.observes_sizedQuery initial) (.nil s₀)
  rwa [List.append_nil] at h

end Measured

end Services

end Bootloader.Uefi
