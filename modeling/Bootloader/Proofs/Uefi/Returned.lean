import Bootloader.Proofs.Uefi.Ledger
import Bootloader.Proofs.Uefi.MapCourse

/-!
# What is given back to the firmware

Memory is given back once for each time it was lent, and nothing else is (`returnRule`), but for one
case.  A loader that has no buffer yet asks for the size of the memory map, and a firmware that takes
this for the whole question answers with a success.  If the descriptors are then too small to be
used, the loader gives back the buffer of the snapshot, and there is none (`keptBy_returnRule_iff`).

That what is given back was lent comes from the ledger of the run (`ledger_of_runs`), and that it is
not null from the rules for memory.
-/

namespace Bootloader.Uefi

open Program

/-- It was lent more often than it was given back; a firmware may lend one address twice. -/
def Outstanding (past : List (Exchange Firmware)) (x : Resource) : Prop :=
  (past.map fun e => lending.returned e.1).sum.count x < (past.map lending.lent).sum.count x

/-- A buffer that is given back is one, and it is outstanding, as are pages that are given back. -/
def returnRule : Rule Firmware
  | past, .freePool buffer => buffer ≠ 0 ∧ Outstanding past (.buffer buffer)
  | past, .freePages address pages => Outstanding past (.pages address pages)
  | _, _ => True

/-- The rule for a loader that may give back a null buffer. -/
def nullRule : Rule Firmware := fun past q => q = .freePool 0 ∨ returnRule past q

section TakenBare

variable {es es' : List (Exchange Firmware)}

theorem TakenBare.append (h : TakenBare es) : TakenBare (es ++ es') := by
  obtain ⟨got, hgot, hrest⟩ := h
  exact ⟨got, by rw [List.findSome?_append, hgot, Option.some_or], hrest⟩

theorem takenBare_append (h : Unmapped es) : TakenBare (es ++ es') ↔ TakenBare es' := by
  rw [TakenBare, h.findSome?_append, TakenBare]

/-- The first call for the map is in the first of two parts, if that has one or the second has
none. -/
theorem TakenBare.of_append (h : TakenBare (es ++ es')) (hes : ¬Unmapped es ∨ Unmapped es') :
    TakenBare es := by
  obtain ⟨got, hgot, hrest⟩ := h
  rw [List.findSome?_append] at hgot
  cases hfirst : es.findSome? mapAnswer? with
  | none =>
    rw [hfirst, Option.none_or] at hgot
    rcases hes with hne | hnone
    · exact absurd (List.findSome?_eq_none_iff.1 hfirst) hne
    · rw [List.findSome?_eq_none_iff.2 hnone] at hgot
      cases hgot
  | some first =>
    rw [hfirst, Option.some_or] at hgot
    exact ⟨got, hfirst.trans hgot, hrest⟩

theorem Unmapped.not_takenBare (h : Unmapped es) : ¬TakenBare es := by
  rintro ⟨got, hgot, -⟩
  rw [List.findSome?_eq_none_iff.2 h] at hgot
  cases hgot

end TakenBare

namespace Services

variable {efi : Services} {es : List (Exchange Firmware)} {o : Option Ending}

/-- Every run of the boot keeps a ledger. -/
theorem ledger_of_runs (h : Runs efi.boot es o) : ∃ after, Ledger lending 0 es after := by
  cases booted_of_runs h with
  | misused hl => exact ⟨0, Ledger.of_idle (by simp [lending])⟩
  | returned hl hr => exact ⟨_, (balances_prepare hl).of_runs hr⟩
  | halted hl hr hend =>
    have hledger := (balances_prepare hl).of_runs hr
    cases hend with
    | refused hattempts hs hend =>
      have hgiven := ledger_abandonCalls hend
      rw [hattempts.buffer_eq] at hgiven
      exact ⟨0, hledger.append ((ledger_attempts hattempts).append hgiven)⟩
    | entered hattempts hs =>
      exact ⟨_, hledger.append ((ledger_attempts hattempts).append (ledger_entered _ _))⟩

/-- All that is given back is outstanding, and a null buffer only where the snapshot has none. -/
theorem returnRule_of_runs (h : Runs efi.boot es o) {pre post : List (Exchange Firmware)}
    {e : Exchange Firmware} (hes : es = pre ++ e :: post) :
    returnRule pre e.1 ∨ (e.1 = .freePool 0 ∧ TakenBare pre) := by
  obtain ⟨after, hledger⟩ := ledger_of_runs h
  have hrule := (memoryRule_of_runs h pre e post hes).2
  rw [hes] at hledger
  obtain ⟨q, r⟩ := e
  cases q with
  | freePool buffer =>
    by_cases hb : buffer = 0
    · -- the ledger knows of no null buffer, so only the rule speaks of it
      subst hb
      exact .inr ⟨rfl, hrule.resolve_left (· rfl)⟩
    · exact .inl ⟨hb, hledger.count_lt (by simp [lending, bufferOf, hb])⟩
  | freePages address pages =>
    have hp : pages ≠ 0 := hrule
    exact .inl (hledger.count_lt (by simp [lending, pagesOf, PageRun.nonempty, hp]))
  | _ => exact .inl trivial

section Bare

variable {A : Exchange Firmware → Prop}

/-- The first call for the map has no buffer, and a success ends it all. -/
theorem ensures_fetchMapOrGuess_bare (hl : efi.live = true) :
    efi.fetchMapOrGuess.Ensures A fun es x => ∃ (got : Answer MapOutputs) (rest : _),
      es = ⟨.getMemoryMap 0 0, got⟩ :: rest ∧ (got.status = .success →
        x = (.filled ⟨0, got.value.size, 0⟩, MapSeen.update {} got.value)) := by
  refine (ensures_fetchMapOrGuess_sought hl).mono ?_
  rintro es ⟨sized, seen⟩ h
  dsimp only at h
  cases h with
  | bare hg h =>
    cases h with
    | filled hs => exact ⟨_, [], rfl, fun _ => rfl⟩
    | failed hs ht hf => exact ⟨_, _, rfl, fun h => absurd h hs⟩
    | tooSmall ht hf hp h => exact ⟨_, _, rfl, fun h => absurd (h.symm.trans ht) (by decide)⟩
  | noMemory hg hb => exact ⟨_, _, rfl, fun h => absurd (h.symm.trans hg) (by decide)⟩
  | guessed hg hb h => exact ⟨_, _, rfl, fun h => absurd (h.symm.trans hg) (by decide)⟩

/-- Where the snapshot is granted without a buffer, a null one is given back. -/
def BareReturned (es : List (Exchange Firmware)) : Prop :=
  TakenBare es → Call.freePool 0 ∈ es.map (·.1)

theorem BareReturned.append_left {es es' : List (Exchange Firmware)} (h : BareReturned es')
    (hes : Unmapped es) : BareReturned (es ++ es') := fun hbare => by
  rw [List.map_append]
  exact List.mem_append_right _ (h ((takenBare_append hes).1 hbare))

theorem BareReturned.append_right {es es' : List (Exchange Firmware)} (h : BareReturned es)
    (hes : ¬Unmapped es ∨ Unmapped es') : BareReturned (es ++ es') := fun hbare => by
  rw [List.map_append]
  exact List.mem_append_left _ (h (hbare.of_append hes))

theorem ensures_acquireMap_bare (hl : efi.live = true) (map : MemoryMap) :
    (efi.acquireMap map).Ensures A fun es x => BareReturned es ∧ (x.1 = .ok → ¬Unmapped es) := by
  rw [acquireMap, check_of_live hl, bind_done]
  split
  · exact ensures_done.2
      ⟨fun h => absurd h (Unmapped.not_takenBare (by simp [Unmapped])), by simp⟩
  refine (ensures_fetchMapOrGuess_bare hl).bind ?_
  rintro es ⟨outcome, seen⟩ ⟨got, rest, rfl, hfilled⟩
  have hasked : ∀ es', ¬Unmapped (⟨.getMemoryMap 0 0, got⟩ :: rest ++ es') := fun es' h => by
    cases h ⟨.getMemoryMap 0 0, got⟩ (by simp)
  -- a first call that is a success ends the query, so what it answered is what was seen
  have hbare : ∀ es', TakenBare (⟨.getMemoryMap 0 0, got⟩ :: rest ++ es') →
      (outcome, seen) = (.filled ⟨0, got.value.size, 0⟩, MapSeen.update {} got.value) ∧
        seen.descriptorSize < 40 := by
    rintro es' ⟨first, hfirst, hs, hsmall⟩
    cases hfirst
    have heq := hfilled hs
    exact ⟨heq, by rw [(Prod.mk.inj heq).2]; exact hsmall⟩
  cases outcome with
  | filled result =>
    dsimp only
    split
    · rw [Services.free, call_eq_of_live hl]
      refine ensures_request.2 fun _ _ => ensures_done.2 ⟨fun h => ?_, by simp⟩
      cases (hbare _ h).1
      simp
    · rename_i hlarge
      refine (only_dropBuffer hl _).ensures.bind fun es' _ _ => ensures_done.2 ?_
      exact ⟨fun h => absurd (hbare _ h).2 hlarge, fun _ => hasked _⟩
  | _ => exact ensures_done.2 ⟨fun h => (by cases (hbare _ h).1), by simp⟩

theorem bareReturned_of_acquireMap (hl : efi.live = true) {map : MemoryMap}
    {x : MapOutcome × MemoryMap} (h : Runs (efi.acquireMap map) es (some x)) :
    BareReturned es ∧ (x.1 = .ok → ¬Unmapped es) :=
  (ensures_acquireMap_bare hl map).of_run h

theorem bareReturned_of_acquisition (hl : efi.live = true) {x : Except Status Handover}
    (h : Acquisition efi es x) : BareReturned es ∧ ∀ state, x = .ok state → ¬Unmapped es := by
  induction h with
  | unasked h => exact ⟨fun hbare => absurd hbare h.not_takenBare, by simp⟩
  | refused h ha => exact ⟨(bareReturned_of_acquireMap hl h).1.append_right (.inr ha), by simp⟩
  | granted h =>
    obtain ⟨hbare, hasked⟩ := bareReturned_of_acquireMap hl h
    exact ⟨hbare, fun _ _ => hasked rfl⟩
  | later hb _ ih =>
    refine ⟨ih.1.append_left hb, fun state hstate hes => ?_⟩
    exact ih.2 state hstate (List.forall_mem_append.1 hes).2

theorem bareReturned_of_runs (h : Runs efi.boot es o) : BareReturned es := by
  cases booted_of_runs h with
  | misused hl =>
    exact fun hbare => absurd hbare (Unmapped.not_takenBare (by simp [Unmapped, mapAnswer?]))
  | returned hl hr => exact (bareReturned_of_acquisition hl (acquisition_of_prepare hl hr)).1
  | halted hl hr hend =>
    obtain ⟨hbare, hasked⟩ := bareReturned_of_acquisition hl (acquisition_of_prepare hl hr)
    exact hbare.append_right (.inl (hasked _ rfl))

end Bare

/-- In every run of the boot what is given back is outstanding, or it is a null buffer, and this
only and always where the first call for the map was granted without a buffer and has descriptors
that are too small. -/
theorem keptBy_returnRule_iff (h : Runs efi.boot es o) :
    nullRule.KeptBy es ∧ (returnRule.KeptBy es ↔ ¬TakenBare es) := by
  refine ⟨fun pre e post hes => (returnRule_of_runs h hes).symm.imp_left And.left,
    fun hkept hbare => ?_, fun hbare pre e post hes => ?_⟩
  · obtain ⟨e, he, hfree⟩ := List.mem_map.1 (bareReturned_of_runs h hbare)
    obtain ⟨pre, post, hes⟩ := List.append_of_mem he
    have hrule := hkept pre e post hes
    rw [hfree] at hrule
    exact hrule.1 rfl
  · refine (returnRule_of_runs h hes).resolve_right fun hnull => hbare ?_
    rw [hes]
    exact hnull.2.append

end Services

/-- On the older firmware the record of the core's file and two lists of handles are given back. -/
theorem keptBy_returnRule_olderBoot : returnRule.KeptBy olderBoot ∧
    (olderBoot.map fun e => lending.returned e.1).sum =
      {.buffer 0x1000, .buffer 0x4000, .buffer 0x1000} := by
  refine ⟨?_, by decide +kernel⟩
  have hbare : ¬TakenBare olderBoot := by
    rintro ⟨got, hgot, hs, -⟩
    have hfirst : (olderBoot.findSome? mapAnswer?).map Answer.status = some .bufferTooSmall := by
      decide +kernel
    rw [hgot, Option.map_some, hs] at hfirst
    cases hfirst
  unfold olderBoot at hbare ⊢
  exact (Services.keptBy_returnRule_iff (runs_exchanges _ _ 0)).2.2 hbare

/-- The small firmware with a memory map of no descriptors, which it grants to whoever asks. -/
def bareFirmware : (q : Call) → (exits : Nat) → q.Reply × Nat
  | .getMemoryMap .., n => (⟨.success, ⟨0, some 0, some 0, some 1⟩⟩, n)
  | q, n => smallFirmware q n

/-- A boot on that firmware gives back a null buffer. -/
theorem not_forall_keptBy_returnRule :
    ¬∀ (efi : Services) (es : List (Exchange Firmware)) (o : Option Ending),
      Runs efi.boot es o → returnRule.KeptBy es := by
  intro hall
  have hnull : Call.freePool 0 ∈ (smallServices.boot.exchanges bareFirmware 0).map (·.1) := by
    decide +kernel
  obtain ⟨e, he, hfree⟩ := List.mem_map.1 hnull
  obtain ⟨pre, post, hes⟩ := List.append_of_mem he
  have hr := runs_exchanges bareFirmware smallServices.boot 0
  have hrule := hall smallServices _ _ hr pre e post hes
  rw [hfree] at hrule
  exact hrule.1 rfl

end Bootloader.Uefi
