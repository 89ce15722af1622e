import Bootloader.Proofs.Uefi.Ledger
import Bootloader.Proofs.Uefi.MapCourse

/-!
# The verdict on the memory map

What the taking of a snapshot comes to follows from what the calls for the map were answered
(`mapVerdict`), and it is that there was no memory just if an allocation failed.  `Acquired` says so,
with the course of the calls (`MapSought`), what is done after them (`MapEnded`), and what is lent
and given back.
-/

namespace Bootloader.Uefi

open Program

/-- What the calls for the memory map were answered. -/
def mapAnswers (es : List (Exchange Firmware)) : List (Answer MapOutputs) :=
  es.filterMap mapAnswer?

/-- What such answers have written, those that failed included. -/
def seenFrom (before : MapSeen) (answers : List (Answer MapOutputs)) : MapSeen :=
  answers.foldl (fun seen got => seen.update got.value) before

/-- The pool was asked for a buffer and granted none. -/
def Ungranted : Exchange Firmware → Prop
  | ⟨.allocatePool .., got⟩ => Answer.granted got = 0
  | _ => False

/-- A map that was granted is of use only if its descriptors are large enough. -/
def grantVerdict (seen : MapSeen) : MapOutcome :=
  if 40 ≤ seen.descriptorSize then .ok else .failed

/-- What the answers to a fetch come to; if there is none, there was no memory. -/
def fetchVerdict (seen : MapSeen) : List (Answer MapOutputs) → MapOutcome
  | [] => .allocationFailed
  | got :: _ =>
    if got.status = .success then grantVerdict seen
    else if got.status = .bufferTooSmall then .stillTooSmall
    else .failed

/-- What the answers to the last probe and to a fetch come to. -/
def probeVerdict (seen : MapSeen) : List (Answer MapOutputs) → MapOutcome
  | [] => .allocationFailed
  | got :: fetches =>
    if got.status = .success then grantVerdict seen
    else if got.status = .bufferTooSmall then fetchVerdict seen fetches
    else .noService

/-- What all the answers come to; the first probe is the last but if it was taken for a mistake. -/
def mapVerdict (seen : MapSeen) : List (Answer MapOutputs) → MapOutcome
  | [] => .noService
  | got :: answers =>
    probeVerdict seen (if got.status = .invalidParameter then answers else got :: answers)

/-- What the caller of a query for the map is told. -/
def SizedQuery.Outcome.verdict (seen : MapSeen) : SizedQuery.Outcome → MapOutcome
  | filled _ => grantVerdict seen
  | queryFailed _ => .noService
  | allocationFailed => .allocationFailed
  | stillTooSmall => .stillTooSmall
  | fetchFailed _ => .failed

/-- What is done once the map was sought, what the caller is told, and the snapshot after it: a map
that is of use takes the place of the one before, and one that is not is given back. -/
inductive MapEnded (map : MemoryMap) (seen : MapSeen) :
    SizedQuery.Outcome → List (Exchange Firmware) → MapOutcome → MemoryMap → Prop where
  | taken {result : SizedQuery.Filled} {es : List (Exchange Firmware)}
      (hd : 40 ≤ seen.descriptorSize) (hf : GivenBack map.buffer es) :
    MapEnded map seen (.filled result) es .ok
      ⟨result.buffer, result.allocated, result.size, seen.key, seen.descriptorSize,
        seen.descriptorVersion, .success⟩
  | unusable {result : SizedQuery.Filled} (hd : ¬40 ≤ seen.descriptorSize)
      (status : Status) :
    MapEnded map seen (.filled result) [⟨.freePool result.buffer, status⟩] .failed
      { map with status := .unsupported }
  | unfilled {sized : SizedQuery.Outcome} (h : ∀ result, sized ≠ .filled result) :
    MapEnded map seen sized [] (sized.verdict seen) { map with status := sized.status }

/-- The exchanges tell what was written and how a query ended: there was no memory just if an
allocation failed, and a buffer was filled just if the last call was a success. -/
structure Told (before : MapSeen) (es : List (Exchange Firmware)) (sized : SizedQuery.Outcome)
    (after : MapSeen) : Prop where
  after_eq : after = seenFrom before (mapAnswers es)
  allocationFailed_iff : sized = .allocationFailed ↔ ∃ e ∈ es, Ungranted e
  filled_iff : (∃ result, sized = .filled result) ↔
    ∃ got ∈ (mapAnswers es).getLast?, got.status = .success

/-- How the taking of a snapshot goes, what it comes to, and what it leaves. -/
structure Acquired (efi : Services) (map : MemoryMap) (es : List (Exchange Firmware))
    (outcome : MapOutcome) (map' : MemoryMap) : Prop where
  unoffered : efi.table.offersMemoryMap = false → es = [] ∧ outcome = .noService
  course : efi.table.offersMemoryMap = true → ∃ sought ended sized seen, es = sought ++ ended ∧
    MapSought sought sized seen ∧ MapEnded map seen sized ended outcome map'
  verdict : outcome = mapVerdict (seenFrom {} (mapAnswers es)) (mapAnswers es)
  allocationFailed_iff : outcome = .allocationFailed ↔ ∃ e ∈ es, Ungranted e
  ok_iff : outcome = .ok ↔ ∃ got ∈ (mapAnswers es).getLast?, got.status = .success ∧
    40 ≤ (seenFrom {} (mapAnswers es)).descriptorSize
  kept : outcome ≠ .ok → map' = { map with status := map'.status }
  ledger : Ledger lending (bufferOf map.buffer) es (bufferOf map'.buffer)

section Answers

variable {es es' : List (Exchange Firmware)} {size buffer : UInt64}

@[simp] theorem mapAnswers_nil : mapAnswers [] = [] := rfl

@[simp] theorem mapAnswers_cons_call {got : Answer MapOutputs} :
    mapAnswers (mapCall size buffer got :: es) = got :: mapAnswers es := rfl

@[simp] theorem mapAnswers_cons_lent {lent : Answer UInt64} :
    mapAnswers (allocateCall size lent :: es) = mapAnswers es := rfl

theorem mapAnswers_append : mapAnswers (es ++ es') = mapAnswers es ++ mapAnswers es' :=
  List.filterMap_append ..

@[simp] theorem ungranted_call {got : Answer MapOutputs} : ¬Ungranted (mapCall size buffer got) := id

@[simp] theorem ungranted_lent {lent : Answer UInt64} :
    Ungranted (allocateCall size lent) ↔ lent.granted = 0 := Iff.rfl

end Answers

/-- All of it is given back to the pool. -/
def OnlyFrees (es : List (Exchange Firmware)) : Prop := ∀ e ∈ es, ∃ buffer, e.1 = .freePool buffer

section OnlyFrees

variable {es : List (Exchange Firmware)}

theorem GivenBack.onlyFrees {buffer : UInt64} (h : GivenBack buffer es) : OnlyFrees es :=
  fun e he => ⟨buffer, h.eq_freePool e he⟩

theorem OnlyFrees.mapAnswers_eq_nil (h : OnlyFrees es) : mapAnswers es = [] := by
  refine List.filterMap_eq_nil_iff.2 fun ⟨q, r⟩ he => ?_
  obtain ⟨buffer, rfl⟩ := h _ he
  rfl

theorem OnlyFrees.not_ungranted (h : OnlyFrees es) : ∀ e ∈ es, ¬Ungranted e := by
  rintro ⟨q, r⟩ he
  obtain ⟨buffer, rfl⟩ := h _ he
  exact id

end OnlyFrees

namespace Told

variable {before after : MapSeen} {es given : List (Exchange Firmware)}
variable {sized : SizedQuery.Outcome} {size buffer : UInt64} {got : Answer MapOutputs}

/-- Where nothing was asked for and nothing failed, the exchanges tell of nothing. -/
theorem of_onlyFrees (h : OnlyFrees es) (hn : sized ≠ .allocationFailed)
    (hf : ∀ result, sized ≠ .filled result) : Told before es sized before where
  after_eq := by rw [h.mapAnswers_eq_nil]; rfl
  allocationFailed_iff := iff_of_false hn fun ⟨e, he, hu⟩ => h.not_ungranted e he hu
  filled_iff := by simp [h.mapAnswers_eq_nil, hf]

theorem of_ungranted {lent : Answer UInt64} (hb : lent.granted = 0) :
    Told before [allocateCall size lent] .allocationFailed before := by
  constructor <;> simp [seenFrom, hb]

theorem of_success (hs : got.status = .success) (result : SizedQuery.Filled) :
    Told before [mapCall size buffer got] (.filled result) (before.update got.value) := by
  constructor <;> simp [seenFrom, hs]

/-- A call that was refused tells only of what it has written. -/
theorem cons_call (hs : got.status ≠ .success) (h : Told (before.update got.value) es sized after) :
    Told before (mapCall size buffer got :: es) sized after := by
  refine ⟨h.after_eq, by simp [h.allocationFailed_iff], ?_⟩
  rw [mapAnswers_cons_call, List.getLast?_cons, h.filled_iff]
  cases (mapAnswers es).getLast? <;> simp [hs]

theorem cons_lent {lent : Answer UInt64} (hb : lent.granted ≠ 0) (h : Told before es sized after) :
    Told before (allocateCall size lent :: es) sized after :=
  ⟨h.after_eq, by simp [h.allocationFailed_iff, hb], h.filled_iff⟩

theorem append_left (hg : OnlyFrees given) (h : Told before es sized after) :
    Told before (given ++ es) sized after := by
  have hanswers : mapAnswers (given ++ es) = mapAnswers es := by
    rw [mapAnswers_append, hg.mapAnswers_eq_nil, List.nil_append]
  refine ⟨by rw [hanswers, h.after_eq], ?_, by rw [hanswers, h.filled_iff]⟩
  have hnone : ¬∃ e ∈ given, Ungranted e := fun ⟨e, he, hu⟩ => hg.not_ungranted e he hu
  simp only [List.mem_append, or_and_right, exists_or, hnone, false_or, h.allocationFailed_iff]

end Told

section Sought

variable {size buffer : UInt64} {before after : MapSeen} {es : List (Exchange Firmware)}
variable {sized : SizedQuery.Outcome} {got : Answer MapOutputs}

theorem MapFetched.told (h : MapFetched size before es sized after) :
    Told before es sized after := by
  cases h with
  | noMemory hb => exact .of_ungranted hb
  | filled hb hs => exact .cons_lent hb (.of_success hs _)
  | refused hb hs status =>
    refine .cons_lent hb (.cons_call hs (.of_onlyFrees (by simp [OnlyFrees]) ?_ ?_))
    · split <;> simp
    · split <;> simp

theorem MapProbed.told (h : MapProbed size buffer before got es sized after) :
    Told before es sized after := by
  cases h with
  | filled hs => exact .of_success hs _
  | failed hs ht hf => exact .cons_call hs (.of_onlyFrees hf.onlyFrees (by simp) (by simp))
  | tooSmall ht hf hp h =>
    exact .cons_call (by rw [ht]; decide) (h.told.append_left hf.onlyFrees)

theorem MapSought.told (h : MapSought es sized after) : Told {} es sized after := by
  cases h with
  | bare hg h => exact h.told
  | noMemory hg hb => exact .cons_call (by rw [hg]; decide) (.of_ungranted hb)
  | guessed hg hb h => exact .cons_call (by rw [hg]; decide) (.cons_lent hb h.told)

variable (seen : MapSeen)

theorem MapFetched.verdict_eq (h : MapFetched size before es sized after) :
    sized.verdict seen = fetchVerdict seen (mapAnswers es) := by
  cases h with
  | noMemory hb => rfl
  | filled hb hs => simp [fetchVerdict, SizedQuery.Outcome.verdict, hs]
  | @refused lent got hb hs status =>
    by_cases ht : got.status = .bufferTooSmall
    · rw [if_pos ht, mapAnswers_cons_lent, mapAnswers_cons_call, fetchVerdict, if_neg hs, if_pos ht]
      rfl
    · simp [fetchVerdict, SizedQuery.Outcome.verdict, hs, ht]

/-- The first call of a probe is the one that was answered `got`. -/
theorem MapProbed.mapAnswers_eq (h : MapProbed size buffer before got es sized after) :
    ∃ fetches, mapAnswers es = got :: fetches ∧
      sized.verdict seen = probeVerdict seen (got :: fetches) := by
  cases h with
  | filled hs => exact ⟨[], rfl, by simp [probeVerdict, SizedQuery.Outcome.verdict, hs]⟩
  | @failed given hs ht hf =>
    refine ⟨[], ?_, by simp [probeVerdict, SizedQuery.Outcome.verdict, hs, ht]⟩
    exact congrArg (got :: ·) hf.onlyFrees.mapAnswers_eq_nil
  | @tooSmall given es more _ _ ht hf hp h =>
    refine ⟨mapAnswers es, ?_, ?_⟩
    · have hgiven : mapAnswers given = [] := hf.onlyFrees.mapAnswers_eq_nil
      simp [mapAnswers_append, hgiven]
    · rw [h.verdict_eq, probeVerdict, if_neg (by rw [ht]; decide), if_pos ht]

theorem MapSought.verdict_eq (h : MapSought es sized after) :
    sized.verdict seen = mapVerdict seen (mapAnswers es) := by
  cases h with
  | bare hg h =>
    obtain ⟨fetches, hes, hverdict⟩ := h.mapAnswers_eq seen
    rw [hes, mapVerdict, if_neg hg, hverdict]
  | noMemory hg hb => simp [mapVerdict, probeVerdict, hg, SizedQuery.Outcome.verdict]
  | guessed hg hb h =>
    obtain ⟨fetches, hes, hverdict⟩ := h.mapAnswers_eq seen
    rw [mapAnswers_cons_call, mapAnswers_cons_lent, mapVerdict, if_pos hg, hes, hverdict]

end Sought

section Ended

variable {map map' : MemoryMap} {seen : MapSeen} {sized : SizedQuery.Outcome}
variable {es : List (Exchange Firmware)} {outcome : MapOutcome}

theorem MapEnded.onlyFrees (h : MapEnded map seen sized es outcome map') : OnlyFrees es := by
  cases h with
  | taken hd hf => exact hf.onlyFrees
  | unusable hd status => simp [OnlyFrees]
  | unfilled h => simp [OnlyFrees]

theorem MapEnded.outcome_eq (h : MapEnded map seen sized es outcome map') :
    outcome = sized.verdict seen := by
  cases h with
  | taken hd hf => exact (if_pos hd).symm
  | unusable hd status => exact (if_neg hd).symm
  | unfilled h => rfl

theorem MapEnded.kept (h : MapEnded map seen sized es outcome map') (ho : outcome ≠ .ok) :
    map' = { map with status := map'.status } := by
  cases h with
  | taken hd hf => exact absurd rfl ho
  | unusable hd status => rfl
  | unfilled h => rfl

theorem SizedQuery.Outcome.verdict_eq_allocationFailed :
    sized.verdict seen = .allocationFailed ↔ sized = .allocationFailed := by
  cases sized <;> simp [verdict, grantVerdict]
  split <;> simp

theorem SizedQuery.Outcome.verdict_eq_ok : sized.verdict seen = .ok ↔
    (∃ result, sized = .filled result) ∧ 40 ≤ seen.descriptorSize := by
  cases sized <;> simp [verdict, grantVerdict]

end Ended

namespace Services

variable {efi : Services} {A : Exchange Firmware → Prop}

theorem ensures_acquireMap_ended (hl : efi.live = true) (ht : efi.table.offersMemoryMap = true)
    (map : MemoryMap) : (efi.acquireMap map).Ensures A fun es x => ∃ sought ended sized seen,
      es = sought ++ ended ∧ MapSought sought sized seen ∧
        MapEnded map seen sized ended x.1 x.2 := by
  rw [acquireMap, check_of_live hl, bind_done, if_neg (by simp [ht])]
  refine (ensures_fetchMapOrGuess_sought hl).bind ?_
  rintro sought ⟨sized, seen⟩ hsought
  cases sized with
  | filled result =>
    dsimp only
    split
    · rename_i hsmall
      rw [free, call_eq_of_live hl]
      refine ensures_request.2 fun status _ => ensures_done.2 ?_
      exact ⟨sought, _, _, seen, rfl, hsought, .unusable (UInt64.not_le.2 hsmall) status⟩
    · rename_i hlarge
      refine (ensures_dropBuffer hl map.buffer).bind fun es _ hes => ensures_done.2 ?_
      rw [List.append_nil]
      exact ⟨sought, es, _, seen, rfl, hsought, .taken (UInt64.not_lt.1 hlarge) hes⟩
  | _ => exact ensures_done.2 ⟨sought, [], _, seen, rfl, hsought, .unfilled (by simp)⟩

theorem acquired_of_unoffered (hl : efi.live = true) (ht : efi.table.offersMemoryMap = false)
    (map : MemoryMap) : (efi.acquireMap map).Ensures A fun es x =>
      Acquired efi map es x.1 x.2 := by
  rw [acquireMap, check_of_live hl, bind_done, if_pos (by simp [ht])]
  refine ensures_done.2 ⟨fun _ => ⟨rfl, rfl⟩, by simp [ht], rfl, by simp, by simp, fun _ => rfl,
    .nil _⟩

/-- What the caller is told of a map that was sought is as the calls tell. -/
theorem acquired_of_ended (ht : efi.table.offersMemoryMap = true) {map map' : MemoryMap}
    {sought ended : List (Exchange Firmware)} {sized : SizedQuery.Outcome} {seen : MapSeen}
    {outcome : MapOutcome} (hs : MapSought sought sized seen)
    (he : MapEnded map seen sized ended outcome map')
    (hledger : Ledger lending (bufferOf map.buffer) (sought ++ ended) (bufferOf map'.buffer)) :
    Acquired efi map (sought ++ ended) outcome map' := by
  have htold := hs.told
  -- all that comes after the search is given back, and tells of nothing
  have hanswers : mapAnswers (sought ++ ended) = mapAnswers sought := by
    rw [mapAnswers_append, he.onlyFrees.mapAnswers_eq_nil, List.append_nil]
  have hseen : seenFrom {} (mapAnswers (sought ++ ended)) = seen := by
    rw [hanswers, htold.after_eq]
  have hverdict := he.outcome_eq
  refine ⟨by simp [ht], fun _ => ⟨sought, ended, sized, seen, rfl, hs, he⟩, ?_, ?_, ?_, he.kept,
    hledger⟩
  · rw [hseen, hanswers, hverdict, hs.verdict_eq]
  · have hnone : ¬∃ e ∈ ended, Ungranted e := fun ⟨e, hmem, hu⟩ =>
      he.onlyFrees.not_ungranted e hmem hu
    simp only [List.mem_append, or_and_right, exists_or, hnone, or_false]
    rw [hverdict, SizedQuery.Outcome.verdict_eq_allocationFailed, htold.allocationFailed_iff]
  · rw [hverdict, SizedQuery.Outcome.verdict_eq_ok, htold.filled_iff, hseen, hanswers]
    simp only [exists_and_right, ← and_assoc]

/-- In every run, and for every firmware, a snapshot is taken as `Acquired` has it; only a loader
that has given the services up comes to nothing. -/
theorem acquired_of_runs {map : MemoryMap} {es : List (Exchange Firmware)}
    {o : Option (MapOutcome × MemoryMap)} (h : Runs (efi.acquireMap map) es o) :
    (efi.live = false ∧ o = none) ∨
      ∃ outcome map', o = some (outcome, map') ∧ Acquired efi map es outcome map' := by
  cases hl : efi.live with
  | false => exact .inl ⟨rfl, (runs_check_of_not_live hl h).2⟩
  | true =>
    refine .inr ?_
    cases ht : efi.table.offersMemoryMap with
    | false =>
      obtain ⟨⟨outcome, map'⟩, rfl, hx⟩ :=
        acquired_of_unoffered hl ht map es o h fun _ _ => trivial
      exact ⟨outcome, map', rfl, hx⟩
    | true =>
      obtain ⟨⟨outcome, map'⟩, rfl, sought, ended, sized, seen, rfl, hs, he⟩ :=
        ensures_acquireMap_ended hl ht map es o h fun _ _ => trivial
      have hledger := (balances_acquireMap hl map).of_runs h
      refine ⟨outcome, map', rfl, acquired_of_ended ht hs he ?_⟩
      dsimp only at hledger he
      by_cases ho : outcome = .ok
      · rwa [if_pos ho] at hledger
      · rw [if_neg ho] at hledger
        rwa [he.kept ho]

end Services

/-- The small firmware with a longer memory map, which it will not be asked for without a buffer. -/
def strictFirmware : (q : Call) → (exits : Nat) → q.Reply × Nat
  | .getMemoryMap size _, n =>
    (⟨if size = 0 then .invalidParameter else if size < 960 then .bufferTooSmall else .success,
      ⟨960, some 0, some 48, some 1⟩⟩, n)
  | q, n => smallFirmware q n

/-- There it takes two probes and a fetch, and the guessed buffer is given back in between. -/
theorem acquired_strictFirmware : ∃ es map',
    Runs (smallServices.acquireMap {}) es (some (.ok, map')) ∧
      Acquired smallServices {} es .ok map' ∧ es.map (·.1) =
        [.getMemoryMap 0 0, .allocatePool loaderData 640, .getMemoryMap 640 0x1000,
          .freePool 0x1000, .allocatePool loaderData 1344, .getMemoryMap 1344 0x1000] := by
  have hr := runs_exchanges strictFirmware (smallServices.acquireMap {}) 0
  have hok : (((smallServices.acquireMap {}).run strictFirmware 0).1.map (·.1)) = some .ok := by
    decide +kernel
  obtain ⟨⟨outcome, map'⟩, ho, rfl⟩ := Option.map_eq_some_iff.1 hok
  rw [ho] at hr
  rcases Services.acquired_of_runs hr with ⟨hl, -⟩ | ⟨_, _, ⟨⟩, hacquired⟩
  · cases hl
  · exact ⟨_, map', hr, hacquired, by decide +kernel⟩

end Bootloader.Uefi
