import Bootloader.Proofs.Uefi.DescriptorStride
import Bootloader.Proofs.Uefi.LiveEntry

/-!
# What failures leave of a snapshot

A snapshot that could not be acquired, or refreshed, is what it was before but for the status it now
has.  While the services are being ended the record for the core is told of each snapshot as soon as
there is one, so it tells of the last snapshot however that ends, and the key it tells is the one
that the firmware was given last (`Attempts.getLast?_exitKey`).  `snapshotKept` puts this together.
-/

namespace Bootloader.Uefi

open Program

/-- Nothing but the status may be another. -/
def MemoryMap.KeptAs (map map' : MemoryMap) : Prop := map' = { map with status := map'.status }

/-- The other fields of a record. -/
def BootInfo.withoutMap (info : BootInfo) : BootInfo :=
  { info with
    mapAddress := 0
    mapSize := 0
    mapKey := 0
    descriptorSize := 0
    descriptorVersion := 0 }

/-- The call takes memory from the firmware or gives it back. -/
def Call.IsMemory : Call → Prop
  | allocatePool .. | freePool _ | allocatePages .. | freePages .. | locateHandleBuffer .. => True
  | _ => False

/-- What is kept of a snapshot, and of the record that tells of it, by all that may fail: a snapshot
that is not acquired, one that is refreshed, and the end of the services with a record that tells of
the snapshot at hand. -/
structure SnapshotKept (efi : Services) : Prop where
  acquire : ∀ map es outcome map', Runs (efi.acquireMap map) es (some (outcome, map')) →
    outcome ≠ .ok → map.KeptAs map'
  refresh : ∀ map es status map', Runs (efi.refreshMap map) es (some (status, map')) →
    (status.isError = true → map.KeptAs map') ∧ map'.buffer = map.buffer ∧
      map'.bufferSize = map.bufferSize
  refresh_quiet : ∀ map es o, Runs (efi.refreshMap map) es o → ∀ e ∈ es, ¬e.1.IsMemory
  exit : ∀ map info es exit, info.TellsOf map →
    Runs (efi.exitBootServices map info) es (some exit) →
      exit.info.TellsOf exit.map ∧ exit.info.withoutMap = info.withoutMap ∧
        (es.filterMap exitKey?).getLast? = some exit.info.mapKey

/-- The key that the firmware was given last is that of the snapshot that is left. -/
theorem Attempts.getLast?_exitKey {image : UInt64} {left : Nat} {map map' : MemoryMap}
    {info info' : BootInfo} {es : List (Exchange Firmware)} {status : Status}
    (h : Attempts image left map info es status map' info') :
    (es.filterMap exitKey?).getLast? = some map'.key := by
  induction h with
  | ended h => rfl
  -- a snapshot that could not be refreshed keeps its key
  | unread h hg => rfl
  | @again _ map _ _ _ status₁ _ got es h hg rest ih =>
    have hkeys : (exitCall image map status₁ :: refreshCall map got :: es).filterMap exitKey? =
        map.key :: es.filterMap exitKey? := rfl
    rw [hkeys, List.getLast?_cons, ih]
    rfl

namespace Services

variable {efi : Services} {A : Exchange Firmware → Prop}

theorem ensures_acquireMap_kept (hl : efi.live = true) (map : MemoryMap) :
    (efi.acquireMap map).Ensures A fun _ x => x.1 ≠ .ok → map.KeptAs x.2 := by
  rw [acquireMap, check_of_live hl, bind_done]
  split
  · exact ensures_done.2 fun _ => rfl
  refine (only_fetchMapOrGuess hl).ensures.bind ?_
  rintro _ ⟨outcome, seen⟩ -
  rcases outcome with result | _ | _ | _ | _
  · dsimp only
    split
    · exact (only_free hl _).ensures.bind fun _ _ _ => ensures_done.2 fun _ => rfl
    · exact (only_dropBuffer hl _).ensures.bind fun _ _ _ => ensures_done.2 fun h => absurd rfl h
  all_goals exact ensures_done.2 fun _ => rfl

theorem keptAs_of_acquireMap {map map' : MemoryMap} {es : List (Exchange Firmware)}
    {outcome : MapOutcome} (h : Runs (efi.acquireMap map) es (some (outcome, map')))
    (ho : outcome ≠ .ok) : map.KeptAs map' := by
  rcases hl : efi.live with _ | _
  · cases (runs_check_of_not_live hl h).2
  · exact (ensures_acquireMap_kept hl map).of_run h ho

theorem keptAs_of_refreshMap {map map' : MemoryMap} {es : List (Exchange Firmware)}
    {status : Status} (h : Runs (efi.refreshMap map) es (some (status, map'))) :
    (status.isError = true → map.KeptAs map') ∧ map'.buffer = map.buffer ∧
      map'.bufferSize = map.bufferSize := by
  rcases hl : efi.live with _ | _
  · cases (runs_call_of_not_live hl h).2
  · obtain ⟨got, -, ⟨hg, heq⟩ | ⟨-, heq⟩⟩ := (ensures_refreshMap hl map).of_run h
    · cases heq
      exact ⟨fun _ => rfl, rfl, rfl⟩
    · cases heq
      refine ⟨fun hs => ?_, rfl, rfl⟩
      rw [Status.isError_success] at hs
      cases hs

theorem not_isMemory_of_refreshMap {map : MemoryMap} {es : List (Exchange Firmware)}
    {o : Option (Status × MemoryMap)} (h : Runs (efi.refreshMap map) es o) :
    ∀ e ∈ es, ¬e.1.IsMemory := by
  rcases hl : efi.live with _ | _
  · obtain ⟨rfl, -⟩ := runs_call_of_not_live hl h
    simp [Call.IsMemory]
  · have hrefresh : (efi.refreshMap map).Ensures (fun _ => True) _ := ensures_refreshMap hl map
    obtain ⟨_, -, got, rfl, -⟩ := hrefresh es o h fun _ _ => trivial
    simp [refreshCall, Call.IsMemory]

theorem tellsOf_of_exitBootServices {map : MemoryMap} {info : BootInfo}
    {es : List (Exchange Firmware)} {exit : Exit} (hinfo : info.TellsOf map)
    (h : Runs (efi.exitBootServices map info) es (some exit)) :
    exit.info.TellsOf exit.map ∧ exit.info.withoutMap = info.withoutMap ∧
      (es.filterMap exitKey?).getLast? = some exit.info.mapKey := by
  rcases hl : efi.live with _ | _
  · cases (runs_call_of_not_live hl h).2
  · obtain ⟨hattempts, -⟩ := (ensures_exitBootServices hl map info).of_run h
    have htold : exit.info = info.withMap exit.map := hattempts.info_eq hinfo.eq_withMap
    refine ⟨?_, ?_, ?_⟩
    · rw [htold]
      exact BootInfo.tellsOf_withMap info exit.map
    · rw [htold]
      rfl
    · rw [hattempts.getLast?_exitKey, htold]
      rfl

/-- Failures leave a snapshot as it was, and the record for the core tells of the snapshot there
is. -/
theorem snapshotKept (efi : Services) : SnapshotKept efi where
  acquire _ _ _ _ h := keptAs_of_acquireMap h
  refresh _ _ _ _ h := keptAs_of_refreshMap h
  refresh_quiet _ _ _ h := not_isMemory_of_refreshMap h
  exit _ _ _ _ hinfo h := tellsOf_of_exitBootServices hinfo h

/-- The first attempt to end the services of the small firmware, if it is refused and there is no
fresh snapshot to be had. -/
def refusedExit : List (Exchange Firmware) :=
  [exitCall smallServices.image smallHandover.map .invalidParameter,
    refreshCall smallHandover.map ⟨.deviceError, ⟨0, none, none, none⟩⟩]

/-- A map that has become longer, and whose descriptors have. -/
def longerMap : Answer MapOutputs := ⟨.success, ⟨560, some 2, some 56, some 3⟩⟩

/-- Both attempts, if both are refused, the second one with the key of a longer map. -/
def refusedTwice : List (Exchange Firmware) :=
  [exitCall smallServices.image smallHandover.map .invalidParameter,
    refreshCall smallHandover.map longerMap,
    exitCall smallServices.image (smallHandover.map.refreshed longerMap) .invalidParameter]

/-- The record then tells of the old snapshot, with the key that was refused, or of the longer one
with all that is new about it. -/
theorem snapshotKept_refusedExit :
    (∃ exit, Runs (smallServices.exitBootServices smallHandover.map smallHandover.info) refusedExit
        (some exit) ∧
      exit.status = .deviceError ∧ exit.info.TellsOf exit.map ∧
        exit.info.withoutMap = smallHandover.info.withoutMap ∧ exit.info.mapKey = 1) ∧
      ∃ exit, Runs (smallServices.exitBootServices smallHandover.map smallHandover.info)
          refusedTwice (some exit) ∧
        exit.status = .invalidParameter ∧ exit.info.mapAddress = 0x1000 ∧
          exit.info.mapSize = 560 ∧ exit.info.mapKey = 2 ∧ exit.info.descriptorSize = 56 ∧
            exit.info.descriptorVersion = 3 ∧
              exit.info.withoutMap = smallHandover.info.withoutMap := by
  have htold : smallHandover.info.TellsOf smallHandover.map := BootInfo.tellsOf_withMap _ _
  have hkept := snapshotKept smallServices
  constructor
  · have hr : Runs (smallServices.exitBootServices smallHandover.map smallHandover.info)
        refusedExit (some ⟨.deviceError, smallServices,
          { smallHandover.map with status := .deviceError }, smallHandover.info⟩) :=
      .ask (.ask (.done _))
    obtain ⟨htells, hothers, hkey⟩ := hkept.exit _ _ _ _ htold hr
    have hlast : refusedExit.filterMap exitKey? = [1] := rfl
    rw [hlast, List.getLast?_singleton, Option.some_inj] at hkey
    exact ⟨_, hr, rfl, htells, hothers, hkey.symm⟩
  · have hr : Runs (smallServices.exitBootServices smallHandover.map smallHandover.info)
        refusedTwice (some ⟨.invalidParameter, smallServices,
          { smallHandover.map.refreshed longerMap with status := .success },
          smallHandover.info.withMap (smallHandover.map.refreshed longerMap)⟩) :=
      .ask (.ask (.ask (.done _)))
    obtain ⟨htells, hothers, -⟩ := hkept.exit _ _ _ _ htold hr
    exact ⟨_, hr, rfl, htells.address, htells.size, htells.key, htells.descriptorSize,
      htells.descriptorVersion, hothers⟩

end Services

end Bootloader.Uefi
