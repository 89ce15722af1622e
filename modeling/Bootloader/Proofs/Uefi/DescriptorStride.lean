import Bootloader.Proofs.Uefi.Acquisition
import Bootloader.Proofs.Uefi.MapKey

/-!
# The descriptors of a snapshot

The descriptors of a memory map lie as far apart as the firmware says.  If that is no less than a
descriptor takes (`MemoryMap.Usable`), all of them lie within the snapshot
(`MemoryMap.entriesWithin_of_usable`).

A snapshot that is acquired is usable, for the loader looks at what the firmware says before it takes
it.  It does not look when it refreshes one, so a snapshot that has been refreshed is usable just if
the last answer was (`Current.usable_iff`).  The core may be entered with either: `strideKept` says
what it gets.
-/

namespace Bootloader.Uefi

open Program

namespace MemoryMap

/-- The descriptors lie no closer than they are long. -/
def Usable (map : MemoryMap) : Prop := 40 ≤ map.descriptorSize

/-- Each descriptor lies within the bytes of the snapshot. -/
def EntriesWithin (map : MemoryMap) : Prop := ∀ i < map.entryCount,
  (map.entryAddress i - map.buffer).toNat + 40 ≤ map.size.toNat

theorem entriesWithin_of_usable {map : MemoryMap} (h : map.Usable) : map.EntriesWithin := by
  intro i hi
  have hstride : 40 ≤ map.descriptorSize.toNat := UInt64.le_iff_toNat_le.1 h
  have hpos : 0 < map.descriptorSize.toNat := Nat.lt_of_lt_of_le (by decide) hstride
  have hne : map.descriptorSize ≠ 0 := fun h0 => by simp [h0] at hpos
  have hcount : i.toNat < map.size.toNat / map.descriptorSize.toNat := by
    rw [entryCount, if_neg hne, UInt64.lt_iff_toNat_lt, UInt64.toNat_div] at hi
    exact hi
  have hend : (i.toNat + 1) * map.descriptorSize.toNat ≤ map.size.toNat :=
    (Nat.le_div_iff_mul_le hpos).1 hcount
  have hoffset : map.entryAddress i - map.buffer = i * map.descriptorSize := by
    rw [entryAddress, UInt64.add_comm, UInt64.add_sub_cancel]
  have hlt := map.size.toNat_lt
  rw [Nat.add_mul, Nat.one_mul] at hend
  rw [hoffset, UInt64.toNat_mul, Nat.mod_eq_of_lt (by omega)]
  omega

end MemoryMap

/-- The firmware said that the descriptors lie no closer than they are long. -/
def SaysUsable (got : Answer MapOutputs) : Prop :=
  40 ≤ got.value.descriptorSize.getD 0

/-- A snapshot was acquired, and since then refreshed with these answers. -/
inductive Current (efi : Services) : List (Answer MapOutputs) → MemoryMap → Prop where
  | acquired {before map : MemoryMap} {es : List (Exchange Firmware)}
      (h : Runs (efi.acquireMap before) es (some (.ok, map))) : Current efi [] map
  | refreshed {answers : List (Answer MapOutputs)} {before map : MemoryMap}
      {got : Answer MapOutputs} (hc : Current efi answers before)
      (h : Runs (efi.refreshMap before) [refreshCall before got] (some (.success, map))) :
    Current efi (answers ++ [got]) map

/-- What was answered about the map since the first attempt to end the services. -/
def answersSinceExit (es : List (Exchange Firmware)) : List (Answer MapOutputs) :=
  (es.dropWhile fun e => !isExit e).filterMap mapAnswer?

namespace BootInfo

/-- The record tells of this snapshot. -/
structure TellsOf (info : BootInfo) (map : MemoryMap) : Prop where
  address : info.mapAddress = map.buffer
  size : info.mapSize = map.size
  key : info.mapKey = map.key
  descriptorSize : info.descriptorSize = map.descriptorSize
  descriptorVersion : info.descriptorVersion = map.descriptorVersion

theorem tellsOf_withMap (info : BootInfo) (map : MemoryMap) : (info.withMap map).TellsOf map :=
  ⟨rfl, rfl, rfl, rfl, rfl⟩

theorem TellsOf.eq_withMap {info : BootInfo} {map : MemoryMap} (h : info.TellsOf map) :
    info = info.withMap map := by
  rw [withMap, ← h.address, ← h.size, ← h.key, ← h.descriptorSize, ← h.descriptorVersion]

end BootInfo

/-- What is known of the snapshots of a loader: one that is current is usable just if the last answer
it was refreshed with said so, and then its descriptors lie within it; and the record with which the
core is entered tells of one that is current. -/
structure StrideKept (efi : Services) : Prop where
  usable : ∀ answers map, Current efi answers map →
    (map.Usable ↔ ∀ got ∈ answers.getLast?, SaysUsable got)
  within : ∀ answers map, Current efi answers map → map.Usable → map.EntriesWithin
  entered : ∀ es o, Runs efi.boot es o →
    ∀ pre entry info (r : Unit) post, es = pre ++ ⟨.enterCore entry info, r⟩ :: post →
      ∃ map, Current efi (answersSinceExit pre) map ∧ info.TellsOf map

namespace Services

variable {efi : Services} {A : Exchange Firmware → Prop}

/-- A snapshot is acquired only if its descriptors are large enough. -/
theorem ensures_acquireMap_usable (hl : efi.live = true) (map : MemoryMap) :
    (efi.acquireMap map).Ensures A fun _ x => x.1 = .ok → x.2.Usable := by
  rw [acquireMap, check_of_live hl, bind_done]
  split
  · exact ensures_done.2 (by simp)
  refine (only_fetchMapOrGuess hl).ensures.bind ?_
  rintro _ ⟨outcome, seen⟩ -
  cases outcome with
  | filled result =>
    dsimp only
    split
    · exact (only_free hl _).ensures.bind fun _ _ _ => ensures_done.2 (by simp)
    · rename_i hlarge
      exact (only_dropBuffer hl _).ensures.bind fun _ _ _ =>
        ensures_done.2 fun _ => UInt64.not_lt.1 hlarge
  | _ => exact ensures_done.2 (by simp)

theorem usable_of_acquireMap {before map : MemoryMap} {es : List (Exchange Firmware)}
    (h : Runs (efi.acquireMap before) es (some (.ok, map))) : map.Usable := by
  cases hl : efi.live with
  | false =>
    cases (runs_check_of_not_live hl h).2
  | true => exact (ensures_acquireMap_usable hl before).of_run h rfl

theorem descriptorSize_of_refreshMap {before map : MemoryMap} {got : Answer MapOutputs}
    (h : Runs (efi.refreshMap before) [refreshCall before got] (some (.success, map))) :
    map.descriptorSize = got.value.descriptorSize.getD 0 := by
  cases hl : efi.live with
  | false =>
    cases (runs_call_of_not_live hl h).2
  | true =>
    obtain ⟨got', hes, ⟨hg, heq⟩ | ⟨-, heq⟩⟩ := (ensures_refreshMap hl before).of_run h
    · rw [← (Prod.mk.inj heq).1] at hg
      cases hg
    · cases hes
      cases heq
      rfl

end Services

/-- A current snapshot is usable just if the last answer it was refreshed with said so. -/
theorem Current.usable_iff {efi : Services} {answers : List (Answer MapOutputs)} {map : MemoryMap}
    (h : Current efi answers map) : map.Usable ↔ ∀ got ∈ answers.getLast?, SaysUsable got := by
  cases h with
  | acquired h => exact iff_of_true (Services.usable_of_acquireMap h) (by simp)
  | refreshed _ h =>
    rw [List.getLast?_concat, MemoryMap.Usable, Services.descriptorSize_of_refreshMap h]
    simp [SaysUsable]

namespace Services

variable {efi : Services}

theorem runs_refreshMap (hl : efi.live = true) {map : MemoryMap} {got : Answer MapOutputs}
    (hg : got.status.isError = false) :
    Runs (efi.refreshMap map) [refreshCall map got] (some (.success, map.refreshed got)) := by
  rw [refreshMap, call_eq_of_live hl]
  refine runs_request.2 ⟨got, [], rfl, ?_⟩
  rw [if_neg (by simp [hg])]
  exact .done _

/-- Attempts that end the services refresh the snapshot with what they were answered. -/
theorem current_of_attempts (hl : efi.live = true) {image : UInt64} {left : Nat}
    {map map' : MemoryMap} {info info' : BootInfo} {es : List (Exchange Firmware)}
    {status : Status} {answers : List (Answer MapOutputs)}
    (h : Attempts image left map info es status map' info') (hs : status.isError = false)
    (hc : Current efi answers map) : Current efi (answers ++ es.filterMap mapAnswer?) map' := by
  -- each refusal refreshes the snapshot once more, so what it was answered joins the answers before
  induction h generalizing answers with
  | @ended _ map _ status =>
    have hnone : [exitCall image map status].filterMap mapAnswer? = [] := rfl
    rwa [hnone, List.append_nil]
  | unread h hg => simp [hg] at hs
  | @again _ map _ _ _ status₁ _ got es h hg rest ih =>
    have hanswers : answers ++ (exitCall image map status₁ :: refreshCall map got :: es).filterMap
        mapAnswer? = answers ++ [got] ++ es.filterMap mapAnswer? := by
      rw [List.append_assoc]
      rfl
    rw [hanswers]
    exact ih hs (.refreshed hc (runs_refreshMap hl hg))

theorem current_of_acquisition {es : List (Exchange Firmware)} {x : Except Status Handover}
    (h : Acquisition efi es x) : ∀ state, x = .ok state → Current efi [] state.map := by
  induction h with
  | unasked => simp
  | refused => simp
  | granted h =>
    rintro _ ⟨⟩
    exact .acquired h
  | later _ _ ih => exact ih

/-- The answers since the first attempt are those to the attempts. -/
theorem answersSinceExit_attempts {image : UInt64} {left : Nat} {map map' : MemoryMap}
    {info info' : BootInfo} {es es' : List (Exchange Firmware)} {status : Status}
    (h : Attempts image left map info es status map' info') (hes' : ∀ e ∈ es', isExit e = false) :
    answersSinceExit (es' ++ es ++ [enteringCall]) = es.filterMap mapAnswer? := by
  have hhead : ∃ status rest, es = exitCall image map status :: rest := by
    cases h <;> exact ⟨_, _, rfl⟩
  obtain ⟨status, rest, rfl⟩ := hhead
  have hnone : [enteringCall].filterMap mapAnswer? = [] := rfl
  rw [answersSinceExit, List.append_assoc, List.dropWhile_append_of_pos (by simpa using hes'),
    List.cons_append, List.dropWhile_cons_of_neg (by simp), ← List.cons_append,
    List.filterMap_append, hnone, List.append_nil]

/-- Whenever the core is entered, the record tells of a snapshot that is current. -/
theorem current_of_entered {es : List (Exchange Firmware)} {o : Option Ending}
    (h : Runs efi.boot es o) {pre post : List (Exchange Firmware)} {entry : UInt64} {info : BootInfo}
    {r : Unit} (hes : es = pre ++ ⟨.enterCore entry info, r⟩ :: post) :
    ∃ map, Current efi (answersSinceExit pre) map ∧ info.TellsOf map := by
  have hmem : ⟨.enterCore entry info, r⟩ ∈ es := by simp [hes]
  cases booted_of_runs h with
  | misused hl => simp at hmem
  | returned hl hr => cases entryOf?_eq_none_of_prepare hl hr _ hmem
  | @halted es₁ es₂ state final hl hr hend =>
    have hcore := entryOf?_eq_none_of_prepare hl hr
    cases hend with
    | refused hattempts hs hend =>
      rcases List.mem_append.1 hmem with hmem | hmem
      · cases hcore _ hmem
      rcases List.mem_append.1 hmem with hmem | hmem
      · cases hattempts.entryOf?_eq_none _ hmem
      · cases entryOf?_eq_none_of_abandoned hend _ hmem
    | @entered es₂ status map' info' hattempts hs =>
      rw [← List.append_assoc] at hes
      obtain ⟨rfl, rfl, rfl⟩ := eq_of_entered
        (List.forall_mem_append.2 ⟨hcore, hattempts.entryOf?_eq_none⟩) hes
      have hc := current_of_acquisition (acquisition_of_prepare hl hr) state rfl
      obtain ⟨screen, root, hinfo, -, -⟩ := ((ensures_prepare hl).of_run hr state rfl).info
      refine ⟨map', ?_, ?_⟩
      · rw [answersSinceExit_attempts hattempts fun e he =>
          isExit_eq_false ((beforeEnd_prepare hl).of_runs hr e he)]
        exact current_of_attempts hl hattempts hs hc
      · rw [hattempts.info_eq hinfo]
        exact BootInfo.tellsOf_withMap _ map'

/-- Snapshots keep their stride as far as the firmware does. -/
theorem strideKept (efi : Services) : StrideKept efi where
  usable _ _ h := h.usable_iff
  within _ _ _ h := MemoryMap.entriesWithin_of_usable h
  entered _ _ h _ _ _ _ _ hes := current_of_entered h hes

end Services

/-- The core is entered on the small firmware after one refresh, with a snapshot that is usable. -/
theorem strideKept_smallBoot : ∃ pre entry info post map,
    smallBoot = pre ++ ⟨.enterCore entry info, ()⟩ :: post ∧
      answersSinceExit pre = [⟨.success, ⟨480, some 1, some 48, some 1⟩⟩] ∧
        Current smallServices (answersSinceExit pre) map ∧ info.TellsOf map ∧ map.EntriesWithin := by
  have hsplit := List.takeWhile_append_dropWhile (p := fun e => (entryOf? e).isNone) (l := smallBoot)
  have hanswers : answersSinceExit (smallBoot.takeWhile fun e => (entryOf? e).isNone) =
      [⟨.success, ⟨480, some 1, some 48, some 1⟩⟩] := by decide +kernel
  have hentry : ((smallBoot.dropWhile fun e => (entryOf? e).isNone).head?.bind entryOf?).isSome =
      true := by decide +kernel
  generalize smallBoot.takeWhile (fun e => (entryOf? e).isNone) = pre at hsplit hanswers
  cases hrest : smallBoot.dropWhile (fun e => (entryOf? e).isNone) with
  | nil => simp [hrest] at hentry
  | cons e post =>
    rw [hrest] at hsplit hentry
    obtain ⟨⟨entry, info⟩, he⟩ := Option.isSome_iff_exists.1 hentry
    obtain ⟨r, rfl⟩ := eq_of_entryOf? he
    obtain ⟨o, h⟩ := runs_smallBoot
    have hkept := Services.strideKept smallServices
    obtain ⟨map, hc, htells⟩ := hkept.entered _ _ h pre entry info r post hsplit.symm
    have husable : map.Usable := (hkept.usable _ map hc).2 (by
      rw [hanswers]
      rintro got ⟨⟩
      exact (by decide : (40 : UInt64) ≤ 48))
    exact ⟨pre, entry, info, post, map, hsplit.symm, hanswers, hc, htells,
      hkept.within _ map hc husable⟩

/-- What the small firmware may answer when the snapshot is refreshed: descriptors that are shorter
than they should be. -/
def shortDescriptors : Answer MapOutputs := ⟨.success, ⟨264, some 1, some 24, some 1⟩⟩

/-- The snapshot that is acquired from the small firmware. -/
def smallMap : MemoryMap :=
  { buffer := 0x1000, bufferSize := 864, size := 480, key := 0, descriptorSize := 48,
    descriptorVersion := 1 }

theorem current_smallMap : Current smallServices [] smallMap := by
  have hr := runs_exchanges smallFirmware (smallServices.acquireMap {}) 0
  have ho : ((smallServices.acquireMap {}).run smallFirmware 0).1 = some (.ok, smallMap) := by
    decide +kernel
  rw [ho] at hr
  exact .acquired hr

/-- A snapshot that is refreshed with short descriptors is taken, and the last of them lies past its
end. -/
theorem not_forall_current_usable : ¬∀ (efi : Services) (answers : List (Answer MapOutputs))
    (map : MemoryMap), Current efi answers map → map.Usable ∧ map.EntriesWithin := by
  intro hall
  obtain ⟨-, hwithin⟩ := hall smallServices [shortDescriptors] (smallMap.refreshed shortDescriptors)
    (.refreshed current_smallMap (Services.runs_refreshMap rfl rfl))
  exact absurd (hwithin 10 (by decide)) (by decide)

end Bootloader.Uefi
