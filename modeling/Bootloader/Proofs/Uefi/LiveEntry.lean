import Bootloader.Proofs.Uefi.Silence

/-!
# Whether the core is entered with live services

The core is entered unless the last attempt to end the services was refused with an error, and the
services are given up only if that attempt was a success.  So with a warning, which is neither, the
core is entered by a loader that still holds the services (`leftWith_handOff`).
-/

namespace Bootloader.Uefi

open Program

/-- Before the core was entered the loader left the services: `hold` is its hold on them since then,
and `last` is what the last attempt to end them came to. -/
structure LeftWith (efi : Services) (map : MemoryMap) (info : BootInfo)
    (pre : List (Exchange Firmware)) (hold : Services) (last : Status) : Prop where
  left : ∃ es exit, Runs (efi.exitBootServices map info) es (some exit) ∧
    pre = es ++ [enteringCall] ∧ exit.efi = hold
  last : (pre.filterMap exitStatus?).getLast? = some last

theorem eq_of_exitStatus? {e : Exchange Firmware} {status : Status}
    (h : exitStatus? e = some status) :
    ∃ image key, e = ⟨.exitBootServices image key, status⟩ := by
  obtain ⟨q, r⟩ := e
  cases q <;> cases h
  exact ⟨_, _, rfl⟩

/-- If the services were ended, the last attempt came to what the whole did. -/
theorem Attempts.getLast?_exitStatus {image : UInt64} {left : Nat} {map map' : MemoryMap}
    {info info' : BootInfo} {es : List (Exchange Firmware)} {status : Status}
    (h : Attempts image left map info es status map' info') (hs : status.isError = false) :
    (es.filterMap exitStatus?).getLast? = some status := by
  obtain ⟨last, hlast, heq⟩ := exists_last_exitStatus h
  obtain ⟨e, he, hstatus⟩ := List.mem_filterMap.1 (List.mem_of_getLast? hlast)
  obtain ⟨image', key, rfl⟩ := eq_of_exitStatus? hstatus
  obtain ⟨pre, post, hes⟩ := List.append_of_mem he
  obtain ⟨-, rfl⟩ := h.eq_of_ended hes (heq.trans hs)
  exact hlast

namespace Services

variable {efi : Services} {core : CoreImage} {map : MemoryMap} {info told : BootInfo}
variable {es pre post : List (Exchange Firmware)} {o : Option Handover} {entry : UInt64} {r : Unit}

/-- Services that were given up before are not left for the core. -/
theorem runs_handOff_of_not_live (hl : efi.live = false)
    (h : Runs (efi.handOff core map info) es o) :
    es = [⟨.debugWrite misuse, ()⟩, ⟨.halt, ()⟩] := by
  rw [handOff, exitBootServices, call, bind_assoc, bind_assoc] at h
  exact (runs_check_of_not_live hl h).1

/-- Whenever the core is entered, the last attempt to end the services was no error, and they have
been given up just if it was a success. -/
theorem leftWith_handOff (h : Runs (efi.handOff core map info) es o)
    (hes : es = pre ++ ⟨.enterCore entry told, r⟩ :: post) :
    ∃ hold last, LeftWith efi map info pre hold last ∧ last.isError = false ∧
      (hold.live = false ↔ last = .success) := by
  have hmem : ⟨.enterCore entry told, r⟩ ∈ es := by simp [hes]
  cases hl : efi.live with
  | false =>
    rw [runs_handOff_of_not_live hl h] at hmem
    simp at hmem
  | true =>
    have hexit : (efi.exitBootServices map info).Ensures (fun _ => True) _ :=
      ensures_exitBootServices hl map info
    rcases runs_bind_iff.1 h with ⟨hstop, -⟩ | ⟨exit, es₁, es₂, rfl, h₁, h₂⟩
    · obtain ⟨_, hx, -⟩ := hexit es none hstop fun _ _ => trivial
      cases hx
    obtain ⟨hattempts, hefi⟩ := hexit.of_runs h₁ fun _ _ => trivial
    cases hs : exit.status.isError with
    | true =>
      have hne : exit.status ≠ .success := fun h => by simp [h, Status.isError_success] at hs
      rw [if_neg hne] at hefi
      dsimp only at h₂
      rw [if_pos hs, hefi] at h₂
      have habandon : (abandon exit.status ⟨efi, core, exit.map, exit.info⟩).Ensures
          (fun _ => True) _ := ensures_abandon hl exit.status
      obtain ⟨_, -, hend, -⟩ := habandon es₂ o h₂ fun _ _ => trivial
      rcases List.mem_append.1 hmem with hmem | hmem
      · cases hattempts.entryOf?_eq_none _ hmem
      · cases entryOf?_eq_none_of_abandoned hend _ hmem
    | false =>
      dsimp only at h₂
      rw [if_neg (by simp [hs])] at h₂
      have henter : (enter ⟨exit.efi, core, exit.map, exit.info⟩).Ensures (fun _ => True) _ :=
        ensures_enter _
      obtain ⟨_, -, rfl, -⟩ := henter es₂ o h₂ fun _ _ => trivial
      obtain ⟨rfl, -, -⟩ := eq_of_entered hattempts.entryOf?_eq_none hes
      refine ⟨exit.efi, exit.status, ⟨⟨es₁, exit, h₁, rfl, rfl⟩, ?_⟩, hs, ?_⟩
      · have hnone : [enteringCall].filterMap exitStatus? = [] := rfl
        rw [List.filterMap_append, hnone, List.append_nil, hattempts.getLast?_exitStatus hs]
      · rw [hefi]
        by_cases hsuccess : exit.status = .success
        · simp [hsuccess, giveUp]
        · simp [hsuccess, hl]

/-- Every answer that is no error, to the first attempt, has the core entered. -/
theorem runs_handOff_of_ended (hl : efi.live = true) {status : Status}
    (hs : status.isError = false) :
    Runs (efi.handOff core map info) (exitCall efi.image map status :: entered info)
      (some (Handover.released
        ⟨if status = .success then efi.giveUp else efi, core, map, info⟩)) := by
  have hexit : Runs (efi.exitBootServices map info) [exitCall efi.image map status]
      (some ⟨status, if status = .success then efi.giveUp else efi, map, info⟩) := by
    rw [exitBootServices, call_eq_of_live hl]
    refine runs_request.2 ⟨status, [], rfl, ?_⟩
    rw [exitRetries, exitAgain, if_neg (by simp [hs])]
    exact .done _
  refine runs_bind_iff.2 (.inr ⟨_, _, entered info, rfl, hexit, ?_⟩)
  dsimp only
  rw [if_neg (by simp [hs])]
  exact .ask (.ask (.ask (.ask (.done _))))

/-- What the loader has at hand when it leaves the small firmware. -/
def smallHandover : Handover :=
  let map : MemoryMap :=
    { buffer := 0x1000, bufferSize := 816, size := 480, key := 1, descriptorSize := 48,
      descriptorVersion := 1 }
  ⟨smallServices, ⟨⟨0x200000, 1⟩, 4096⟩, map, (BootInfo.forCore 0x200000 4096 0x7000).withMap map⟩

/-- The calls of leaving it, if it ends its services with a status. -/
def smallHandOff (status : Status) : List (Exchange Firmware) :=
  exitCall smallServices.image smallHandover.map status :: entered smallHandover.info

theorem runs_smallHandOff (status : Status) (hs : status.isError = false) :
    ∃ o, Runs (smallServices.handOff smallHandover.core smallHandover.map smallHandover.info)
      (smallHandOff status) o :=
  ⟨_, runs_handOff_of_ended rfl hs⟩

theorem smallHandOff_eq (status : Status) : smallHandOff status =
    [exitCall smallServices.image smallHandover.map status, enteringCall] ++
      ⟨.enterCore smallHandover.info.entry smallHandover.info, ()⟩ ::
        (entered smallHandover.info).drop 2 := rfl

/-- After a success the core is entered without services. -/
theorem leftWith_smallHandOff : ∃ pre hold,
    LeftWith smallServices smallHandover.map smallHandover.info pre hold .success ∧
      hold.live = false := by
  obtain ⟨o, h⟩ := runs_smallHandOff .success Status.isError_success
  obtain ⟨hold, last, hleft, -, hlive⟩ := leftWith_handOff h (smallHandOff_eq _)
  have hlast : some Status.success = some last := hleft.last
  cases hlast
  exact ⟨_, hold, hleft, hlive.2 rfl⟩

/-- Whenever the core is entered, the services have been given up and ended with success. -/
def EntersEnded (efi : Services) : Prop :=
  ∀ (core : CoreImage) (map : MemoryMap) (info : BootInfo) (es : List (Exchange Firmware))
    (o : Option Handover), Runs (efi.handOff core map info) es o →
      ∀ pre entry told (r : Unit) post, es = pre ++ ⟨.enterCore entry told, r⟩ :: post →
        ∃ hold, LeftWith efi map info pre hold .success ∧ hold.live = false

/-- That is not so: after a warning the core is entered as well. -/
theorem not_entersEnded : ¬smallServices.EntersEnded := by
  intro hall
  obtain ⟨o, h⟩ := runs_smallHandOff ⟨1⟩ rfl
  obtain ⟨hold, hleft, -⟩ := hall _ _ _ _ o h _ _ _ _ _ (smallHandOff_eq _)
  have hlast : some (Status.mk 1) = some .success := hleft.last
  cases hlast

end Services

end Bootloader.Uefi
