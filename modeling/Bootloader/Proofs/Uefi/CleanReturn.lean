import Bootloader.Proofs.Uefi.Silence

/-!
# How the boot comes back

The boot comes back to the firmware only after a failure, and then with an error, whatever status
the failure came with (`MapOutcome.isError_failure`).  Until then it works on what leads up to the
end of the services, in which there is no wait (`ensures_prepare_failed`); the failure is shown and
waited for last.  A boot that does not come back has left the firmware, so it has tried to end the
services and comes to a halt.  `cleanReturn_boot` shows both of every run.
-/

namespace Bootloader.Uefi

open Program

def Call.IsStall : Call → Prop
  | stall _ => True
  | _ => False

def failureShown (message : String) : List (Exchange Firmware) :=
  [⟨.setColour lightRed, ()⟩, ⟨.outputString "Error: ", ()⟩, ⟨.outputString message, ()⟩,
    ⟨.setColour lightGrey, ()⟩, ⟨.outputString "\r\n", ()⟩]

/-- What the boot can fail of: what is said of it, and the status that the firmware gets. -/
inductive BootFailure : String → Status → Prop where
  | noCore : BootFailure ("could not load " ++ corePath) .notFound
  | noMap {outcome : MapOutcome} (status : Status) (h : outcome ≠ .ok) :
    BootFailure outcome.text (outcome.failure status)

/-- The failure is shown and then waited for, and there was no other wait. -/
def FailedWith (es : List (Exchange Firmware)) (status : Status) : Prop :=
  ∃ before message, BootFailure message status ∧
    es = before ++ (failureShown message ++ [⟨.stall failureStall, ()⟩]) ∧
    ∀ e ∈ before ++ failureShown message, ¬e.1.IsStall

/-- The hold on the services that is left when the boot has ended. -/
def Ending.hold (efi : Services) : Ending → Services
  | returned _ => efi
  | halted final => final.efi

/-- The boot comes back with an error that it has shown, and has not begun to leave the
firmware. -/
structure CleanReturn (efi : Services) (es : List (Exchange Firmware)) (status : Status) :
    Prop where
  error : status.isError = true
  beforeEnd : ∀ e ∈ es, ¬e.1.IsEnd
  live : ((Ending.returned status).hold efi).live = true
  failed : FailedWith es status

/-- The boot has tried to end the services, in any case before it entered the core, and halts. -/
structure NeverReturns (es : List (Exchange Firmware)) (o : Option Ending) : Prop where
  attempted : ∃ e ∈ es, isExit e = true
  entered : ∀ pre entry info (r : Unit) post, es = pre ++ ⟨.enterCore entry info, r⟩ :: post →
    ∃ e ∈ pre, isExit e = true
  halted : ∃ final, Halted es o final

theorem MapOutcome.isError_failure (outcome : MapOutcome) (status : Status) :
    (outcome.failure status).isError = true := by
  have hdefault : (if status.isError then status else Status.loadError).isError = true := by
    split
    · assumption
    · decide
  rcases outcome with _ | _ | _ | _ | _
  · exact hdefault
  · rw [failure]
    decide
  · rw [failure]
    decide
  · rw [failure]
    decide
  · exact hdefault

theorem FailedWith.isError {es : List (Exchange Firmware)} {status : Status}
    (h : FailedWith es status) : status.isError = true := by
  obtain ⟨_, _, hfailure, -, -⟩ := h
  rcases hfailure with _ | _
  · exact Services.isError_notFound
  · exact MapOutcome.isError_failure _ _

theorem not_isStall_failureShown (message : String) :
    ∀ e ∈ failureShown message, ¬e.1.IsStall := by
  simp [failureShown, Call.IsStall]

theorem FailedWith.append_left {es es' : List (Exchange Firmware)} {status : Status}
    (h : FailedWith es status) (hes' : ∀ e ∈ es', ¬e.1.IsStall) :
    FailedWith (es' ++ es) status := by
  obtain ⟨before, message, hfailure, rfl, hbefore⟩ := h
  refine ⟨es' ++ before, message, hfailure, by simp, ?_⟩
  rw [List.append_assoc]
  exact List.forall_mem_append.2 ⟨hes', hbefore⟩

theorem not_isStall_of_isShown {q : Call} (h : q.IsShown) : ¬q.IsStall := by
  cases q <;> first | exact id | exact h.elim

namespace Services

variable {efi : Services} {A : Exchange Firmware → Prop}

theorem ensures_fail (hl : efi.live = true) {message : String} {status : Status}
    (h : BootFailure message status) :
    (efi.fail message).Ensures A fun es _ => FailedWith es status := by
  simp only [fail, setColour, print, stall, call_eq_of_live hl]
  refine ensures_request.2 fun _ _ => ensures_request.2 fun _ _ => ensures_request.2 fun _ _ => ?_
  refine ensures_request.2 fun _ _ => ensures_request.2 fun _ _ => ensures_ask.2 fun _ _ => ?_
  exact ensures_done.2 ⟨[], message, h, rfl, not_isStall_failureShown message⟩

/-- What goes before a failure adds no wait to it. -/
theorem ensures_failed_bind {α : Type} {p : Action α} {f : α → Action (Except Status Handover)}
    (hp : p.Only fun q : Call => ¬q.IsStall)
    (hf : ∀ a, (f a).Ensures A fun es x => ∀ status, x = .error status → FailedWith es status) :
    (p >>= f).Ensures A fun es x => ∀ status, x = .error status → FailedWith es status :=
  hp.ensures.bind fun _ a hes => (hf a).mono fun _ _ h status hx => (h status hx).append_left hes

theorem ensures_prepareCore_failed (hl : efi.live = true) (core : CoreImage) :
    (efi.prepareCore core).Ensures A fun es x =>
      ∀ status, x = .error status → FailedWith es status := by
  have hask : ∀ q : Call, q.IsPlatform → ¬q.IsStall := by
    intro q hq
    cases q <;> first | exact id | exact hq.elim
  have hmap : ∀ q : Call, q.IsMapping → ¬q.IsStall := by
    intro q hq
    cases q <;> first | exact id | exact hq.elim
  refine ensures_failed_bind
    (only_describePlatform hl hask (fun _ => not_isStall_of_isShown) _) fun info => ?_
  refine ensures_failed_bind
    ((shows_printSummary hl info).mono fun _ => not_isStall_of_isShown) fun _ => ?_
  refine ensures_failed_bind ((only_acquireMap hl {}).mono hmap) ?_
  rintro ⟨outcome, map⟩
  dsimp only
  split
  · exact ensures_done.2 (by simp)
  · rename_i hne
    refine ensures_failed_bind (only_dropPages hl fun _ _ => id) fun _ => ?_
    refine (ensures_fail hl (.noMap map.status hne)).bind fun es _ hes => ensures_done.2 ?_
    rintro _ ⟨⟩
    rwa [List.append_nil]

/-- A boot that fails before it leaves the firmware shows the failure last. -/
theorem ensures_prepare_failed (hl : efi.live = true) :
    efi.prepare.Ensures A fun es x => ∀ status, x = .error status → FailedWith es status := by
  have hload : ∀ q : Call, q.IsLoading → ¬q.IsStall := by
    intro q hq
    cases q <;> first | exact id | exact hq.elim
  refine ensures_failed_bind
    ((shows_printBanner hl).mono fun _ => not_isStall_of_isShown) fun _ => ?_
  refine ensures_failed_bind ((shows_print hl _).mono fun _ => not_isStall_of_isShown) fun _ => ?_
  refine ensures_failed_bind
    (only_findCore hl hload (fun _ => not_isStall_of_isShown) _ _) ?_
  rintro ⟨status, core⟩
  dsimp only
  split
  · refine (ensures_fail hl .noCore).bind fun es _ hes => ensures_done.2 ?_
    rintro _ ⟨⟩
    rwa [List.append_nil]
  · exact ensures_prepareCore_failed hl core

end Services

section HandedOff

variable {efi : Services} {core : CoreImage} {map map' : MemoryMap} {info info' : BootInfo}
variable {es : List (Exchange Firmware)} {status : Status} {final : Handover}

theorem Attempts.exists_isExit {image : UInt64} {left : Nat}
    (h : Attempts image left map info es status map' info') : ∃ e ∈ es, isExit e = true := by
  cases h <;> exact ⟨_, List.mem_cons_self .., rfl⟩

theorem HandedOff.exists_isExit (h : HandedOff efi core map info es final) :
    ∃ e ∈ es, isExit e = true := by
  rcases h with ⟨hattempts, -, -⟩ | ⟨hattempts, -⟩
  all_goals
    obtain ⟨e, he, hexit⟩ := hattempts.exists_isExit
    exact ⟨e, List.mem_append_left _ he, hexit⟩

theorem HandedOff.getLast?_eq (h : HandedOff efi core map info es final) :
    es.getLast? = some ⟨.halt, ()⟩ := by
  rcases h with ⟨-, -, hend⟩ | ⟨-, -⟩
  · obtain ⟨pre, hcalls⟩ := exists_calls_of_abandoned hend
    rw [List.getLast?_append, getLast?_of_map_eq (hcalls.trans (List.append_cons ..)),
      Option.some_or]
  · rw [List.getLast?_append]
    rfl

theorem HandedOff.exists_isExit_of_entered {es' pre post : List (Exchange Firmware)}
    {entry : UInt64} {told : BootInfo} {r : Unit} (h : HandedOff efi core map info es final)
    (hes' : ∀ e ∈ es', entryOf? e = none)
    (hes : es' ++ es = pre ++ ⟨.enterCore entry told, r⟩ :: post) :
    ∃ e ∈ pre, isExit e = true := by
  rcases h with ⟨hattempts, -, hend⟩ | ⟨hattempts, -⟩
  · have hnone := List.forall_mem_append.2 ⟨hes', List.forall_mem_append.2
      ⟨hattempts.entryOf?_eq_none, entryOf?_eq_none_of_abandoned hend⟩⟩
    cases hnone ⟨.enterCore entry told, r⟩ (by simp [hes])
  · rw [← List.append_assoc] at hes
    obtain ⟨rfl, -, -⟩ := eq_of_entered
      (List.forall_mem_append.2 ⟨hes', hattempts.entryOf?_eq_none⟩) hes
    obtain ⟨e, he, hexit⟩ := hattempts.exists_isExit
    exact ⟨e, by simp [he], hexit⟩

end HandedOff

namespace Services

variable {efi : Services}

/-- A run of the boot that comes back does so cleanly, and one that does not has tried to end the
services and halts, if it was started with services that may be used, as `start` does. -/
theorem cleanReturn_boot {es : List (Exchange Firmware)} {o : Option Ending}
    (h : Runs efi.boot es o) :
    (∀ status, o = some (.returned status) → CleanReturn efi es status) ∧
      (efi.live = true → (∀ status, o ≠ some (.returned status)) → NeverReturns es o) := by
  cases booted_of_runs h with
  | misused hl => exact ⟨by simp, by simp [hl]⟩
  | returned hl hr =>
    refine ⟨?_, fun _ hne => absurd rfl (hne _)⟩
    rintro _ ⟨⟩
    have hfailed := (ensures_prepare_failed hl).of_run hr _ rfl
    exact ⟨hfailed.isError, (beforeEnd_prepare hl).of_runs hr, hl, hfailed⟩
  | @halted es₁ es₂ state final hl hr hend =>
    refine ⟨by simp, fun _ _ => ⟨?_, ?_, final, ?_, rfl⟩⟩
    · obtain ⟨e, he, hexit⟩ := hend.exists_isExit
      exact ⟨e, List.mem_append_right _ he, hexit⟩
    · intro pre entry info r post hes
      exact hend.exists_isExit_of_entered (entryOf?_eq_none_of_prepare hl hr) hes
    · rw [List.getLast?_append, hend.getLast?_eq, Option.some_or]

end Services

/-- The small firmware, if it warns of the memory map that it gives. -/
def warningFirmware (q : Call) (exits : Nat) : q.Reply × Nat :=
  match q with
  | .getMemoryMap size buffer =>
    let (got, exits) := smallFirmware (.getMemoryMap size buffer) exits
    (if got.status = .success then { got with status := ⟨1⟩ } else got, exits)
  | q => smallFirmware q exits

/-- A warning instead of a map is returned as an error, and the boot that gets its map halts. -/
theorem cleanReturn_smallBoot :
    CleanReturn smallServices (smallServices.boot.exchanges warningFirmware 0) .loadError ∧
      ∃ o, NeverReturns smallBoot o := by
  have hwarned := runs_exchanges warningFirmware smallServices.boot 0
  have hreturned : (smallServices.boot.run warningFirmware 0).1 = some (.returned .loadError) := rfl
  obtain ⟨o, hsmall⟩ := runs_smallBoot
  refine ⟨(Services.cleanReturn_boot hwarned).1 _ hreturned, o,
    (Services.cleanReturn_boot hsmall).2 rfl ?_⟩
  rintro status rfl
  obtain ⟨-, hbefore, -, -⟩ := (Services.cleanReturn_boot hsmall).1 status rfl
  have hexit : (smallBoot.any isExit) = true := by decide +kernel
  obtain ⟨e, he, hisExit⟩ := List.any_eq_true.1 hexit
  have hfalse := isExit_eq_false (hbefore e he)
  rw [hisExit] at hfalse
  cases hfalse

end Bootloader.Uefi
