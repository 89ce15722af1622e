import Bootloader.Proofs.Uefi.CoreFile
import Bootloader.Proofs.Uefi.Platform
import Bootloader.Proofs.Uefi.Termination

/-!
# All that a boot can be

The boot is what leads up to the end of the services, `Services.prepare`, and what follows from
there, `finish` (`boot_eq_prepare`).  Nothing in the first part ends the services, enters the core
or halts (`beforeEnd_prepare`).

So a run of the boot is one of three (`booted_of_runs`): a loader that has given the services up
does nothing but say so and halt, one that fails before the end of the services returns, and any
other leaves the firmware.
-/

namespace Bootloader.Uefi

open Program

/-- The call ends the services, or comes after their end. -/
def Call.IsEnd : Call → Prop
  | exitBootServices .. | enterCore .. | debugWrite _ | halt => True
  | _ => False

/-- The action belongs to the time before the services end. -/
abbrev BeforeEnd {α : Type} (p : Action α) : Prop := p.Only fun q : Call => ¬q.IsEnd

namespace Services

variable (efi : Services)

/-- What leads from a core that was loaded up to the end of the services: all that the loader has at
hand then, or the status of a failure. -/
def prepareCore (core : CoreImage) : Action (Except Status Handover) := do
  let info ← efi.describePlatform
    (BootInfo.forCore core.pages.address core.size efi.table.address)
  efi.printSummary info
  let (outcome, map) ← efi.acquireMap {}
  if outcome = .ok then
    return .ok ⟨efi, core, map, info.withMap map⟩
  else
    efi.dropPages core.pages
    efi.fail outcome.text
    return .error (outcome.failure map.status)

/-- What leads up to the end of the services. -/
def prepare : Action (Except Status Handover) := do
  efi.printBanner
  efi.print ("Searching for " ++ corePath ++ "\r\n")
  let (status, core) ← efi.findCore corePath {}
  if status.isError then
    efi.fail ("could not load " ++ corePath)
    return .error .notFound
  else
    efi.prepareCore core

end Services

/-- What is at hand when the services are to be ended: the core was read from a file, and the record
is of it, of what was reported and of the snapshot. -/
structure Prepared (efi : Services) (es : List (Exchange Firmware)) (state : Handover) : Prop where
  services : state.efi = efi
  core : CoreRead es state.core
  info : ∃ screen root,
    state.info =
      (BootInfo.described state.core efi.table.address screen root).withMap state.map ∧
    (∀ s ∈ screen, ReportedScreen efi.table es s.1 s.2) ∧ ∀ r ∈ root, ReportedRoot efi.table r

/-- The record tells of the core and of the snapshot what they are. -/
theorem BootInfo.core_described {core : CoreImage} {map : MemoryMap} {systemTable : UInt64}
    {screen : Option (GraphicsMode × ModeInformation)} {root : Option UInt64} :
    ((described core systemTable screen root).withMap map).coreAddress = core.pages.address ∧
      ((described core systemTable screen root).withMap map).coreSize = core.size := by
  cases screen <;> cases root <;> exact ⟨rfl, rfl⟩

/-- What follows: a return to the firmware, or the end of the services. -/
def finish : Except Status Handover → Action Ending
  | .error status => return .returned status
  | .ok state => return .halted (← state.efi.handOff state.core state.map state.info)

namespace Services

variable {efi : Services}

theorem bootCore_eq_prepareCore (core : CoreImage) :
    efi.bootCore core = efi.prepareCore core >>= finish := by
  simp only [bootCore, prepareCore, bind_assoc]
  congr 1
  funext info
  congr 1
  funext _
  congr 1
  funext ⟨outcome, map⟩
  dsimp only
  split
  · rfl
  · simp only [bind_assoc]
    rfl

theorem boot_eq_prepare : efi.boot = efi.prepare >>= finish := by
  simp only [boot, prepare, bind_assoc]
  congr 1
  funext _
  congr 1
  funext _
  congr 1
  funext ⟨status, core⟩
  dsimp only
  split
  · simp only [bind_assoc]
    rfl
  · exact bootCore_eq_prepareCore core

theorem beforeEnd_of_onConsole {α : Type} {p : Action α} (hp : OnConsole p) : BeforeEnd p :=
  hp.mono fun q hq => by cases q <;> first | exact id | exact hq.elim

theorem beforeEnd_of_onPlatform {α : Type} {p : Action α} (hp : OnPlatform p) : BeforeEnd p :=
  hp.mono fun q hq => by cases q <;> first | exact id | exact (hq.elim id id).elim

theorem beforeEnd_of_onLoading {α : Type} {p : Action α} (hp : OnLoading p) : BeforeEnd p :=
  hp.mono fun q hq => by cases q <;> first | exact id | exact (hq.elim id id).elim

theorem beforeEnd_acquireMap (hl : efi.live = true) (map : MemoryMap) :
    BeforeEnd (efi.acquireMap map) :=
  (only_acquireMap hl map).mono fun q hq => by cases q <;> first | exact id | exact hq.elim

theorem beforeEnd_prepareCore (hl : efi.live = true) (core : CoreImage) :
    BeforeEnd (efi.prepareCore core) := by
  refine (beforeEnd_of_onPlatform (onPlatform_describePlatform hl _)).bind fun info => ?_
  refine (beforeEnd_of_onConsole (onConsole_printSummary hl info)).bind fun _ => ?_
  refine (beforeEnd_acquireMap hl {}).bind fun ⟨outcome, map⟩ => ?_
  dsimp only
  split
  · exact only_done
  · exact (only_dropPages hl fun _ _ => id).bind fun _ =>
      (beforeEnd_of_onConsole (onConsole_fail hl _)).bind fun _ => only_done

theorem beforeEnd_prepare (hl : efi.live = true) : BeforeEnd efi.prepare := by
  refine (beforeEnd_of_onConsole (onConsole_printBanner hl)).bind fun _ => ?_
  refine (beforeEnd_of_onConsole (onConsole_print hl _)).bind fun _ => ?_
  refine (beforeEnd_of_onLoading (onLoading_findCore hl _ _)).bind fun ⟨status, core⟩ => ?_
  dsimp only
  split
  · exact (beforeEnd_of_onConsole (onConsole_fail hl _)).bind fun _ => only_done
  · exact beforeEnd_prepareCore hl core

theorem unread_of_onPlatform {α : Type} {p : Action α} (hp : OnPlatform p) : Unread p :=
  hp.mono fun q hq r => by cases q <;> first | rfl | exact (hq.elim id id).elim

theorem unread_acquireMap (hl : efi.live = true) (map : MemoryMap) :
    Unread (efi.acquireMap map) :=
  (only_acquireMap hl map).mono fun q hq r => by cases q <;> first | rfl | exact hq.elim

theorem ensures_prepare (hl : efi.live = true) {A : Exchange Firmware → Prop} :
    efi.prepare.Ensures A fun es x => ∀ state, x = .ok state → Prepared efi es state := by
  refine (unread_of_onConsole (onConsole_printBanner hl)).ensures.bind fun es₁ _ h₁ => ?_
  refine (unread_of_onConsole (onConsole_print hl _)).ensures.bind fun es₂ _ h₂ => ?_
  refine (ensures_findCore hl _).bind fun es₃ ⟨status, core⟩ h₃ => ?_
  dsimp only
  split
  · exact (onConsole_fail hl _).ensures.bind fun _ _ _ => ensures_done.2 (by simp)
  rename_i hs
  rw [if_neg hs] at h₃
  refine ((ensures_describePlatform hl _).and
    (unread_of_onPlatform (onPlatform_describePlatform hl _)).ensures).bind ?_
  rintro es₄ info ⟨⟨screen, root, rfl, hscreen, hroot⟩, h₄⟩
  refine (unread_of_onConsole (onConsole_printSummary hl _)).ensures.bind fun es₅ _ h₅ => ?_
  refine (unread_acquireMap hl {}).ensures.bind fun es₆ ⟨outcome, map⟩ h₆ => ?_
  dsimp only
  split
  · refine ensures_done.2 fun state hstate => ?_
    cases hstate
    have hcore : CoreRead (es₃ ++ (es₄ ++ (es₅ ++ es₆))) core :=
      CoreRead.append_right h₃ (by simp [h₄, h₅, h₆])
    refine ⟨rfl, ?_, screen, root, rfl, fun s hs => ReportedScreen.mono (hscreen s hs) ?_, hroot⟩
    · rw [List.append_nil]
      exact (hcore.append_left h₂).append_left h₁
    · simp +contextual
  · have hdrop : (efi.dropPages core.pages).Only fun _ => True :=
      only_dropPages hl fun _ _ => trivial
    exact hdrop.ensures.bind fun _ _ _ => (onConsole_fail hl _).ensures.bind fun _ _ _ =>
      ensures_done.2 (by simp)

/-- The snapshot is of the last call there was. -/
theorem ensures_prepare_map (hl : efi.live = true) :
    efi.prepare.Ensures WritesMap fun es x => ∀ state, x = .ok state →
      ∃ es₀ e, es = es₀ ++ [e] ∧ state.map.TakenBy e := by
  refine (onConsole_printBanner hl).ensures.bind fun es₁ _ _ => ?_
  refine (onConsole_print hl _).ensures.bind fun es₂ _ _ => ?_
  refine (onLoading_findCore hl _ _).ensures.bind fun es₃ ⟨status, core⟩ _ => ?_
  dsimp only
  split
  · exact (onConsole_fail hl _).ensures.bind fun _ _ _ => ensures_done.2 (by simp)
  refine (onPlatform_describePlatform hl _).ensures.bind fun es₄ info _ => ?_
  refine (onConsole_printSummary hl _).ensures.bind fun es₅ _ _ => ?_
  refine (ensures_acquireMap hl rfl).bind fun es₆ ⟨outcome, map⟩ hmap => ?_
  dsimp only
  split
  · rename_i hok
    obtain ⟨es₀, e, rfl, he⟩ := hmap hok
    refine ensures_done.2 fun state hstate => ?_
    cases hstate
    exact ⟨es₁ ++ (es₂ ++ (es₃ ++ (es₄ ++ (es₅ ++ es₀)))), e, by simp, he⟩
  · have hdrop : (efi.dropPages core.pages).Only fun _ => True :=
      only_dropPages hl fun _ _ => trivial
    exact hdrop.ensures.bind fun _ _ _ => (onConsole_fail hl _).ensures.bind fun _ _ _ =>
      ensures_done.2 (by simp)

theorem entryOf?_eq_none_of_prepare (hl : efi.live = true) {es : List (Exchange Firmware)}
    {o : Option (Except Status Handover)} (h : Runs efi.prepare es o) :
    ∀ e ∈ es, entryOf? e = none := by
  rintro ⟨q, r⟩ he
  have hq := (beforeEnd_prepare hl).of_runs h _ he
  cases q <;> first | rfl | exact (hq trivial).elim

theorem runs_boot_of_not_live (hl : efi.live = false) {es : List (Exchange Firmware)}
    {o : Option Ending} (h : Runs efi.boot es o) :
    es = [⟨.debugWrite misuse, ()⟩, ⟨.halt, ()⟩] ∧ o = none := by
  rw [boot, printBanner, bind_assoc] at h
  exact runs_check_of_not_live hl h

end Services

/-- All that a boot can be: a line about services that were given up, a return to the firmware, or a
boot that leaves the firmware. -/
inductive Booted (efi : Services) : List (Exchange Firmware) → Option Ending → Prop where
  | misused (hl : efi.live = false) :
    Booted efi [⟨.debugWrite Services.misuse, ()⟩, ⟨.halt, ()⟩] none
  | returned {es : List (Exchange Firmware)} {status : Status} (hl : efi.live = true)
      (h : Runs efi.prepare es (some (.error status))) :
    Booted efi es (some (.returned status))
  | halted {es₁ es₂ : List (Exchange Firmware)} {state final : Handover} (hl : efi.live = true)
      (h : Runs efi.prepare es₁ (some (.ok state)))
      (hend : HandedOff efi state.core state.map state.info es₂ final) :
    Booted efi (es₁ ++ es₂) (some (.halted final))

namespace Services

variable {efi : Services}

theorem booted_of_runs {es : List (Exchange Firmware)} {o : Option Ending}
    (h : Runs efi.boot es o) : Booted efi es o := by
  cases hl : efi.live with
  | false =>
    obtain ⟨rfl, rfl⟩ := runs_boot_of_not_live hl h
    exact .misused hl
  | true =>
    have hprepare : efi.prepare.Ensures (fun _ => True) _ := ensures_prepare hl
    rw [boot_eq_prepare] at h
    rcases runs_bind_iff.1 h with ⟨hstop, -⟩ | ⟨x, es₁, es₂, rfl, h₁, h₂⟩
    · obtain ⟨_, hx, -⟩ := hprepare es none hstop fun _ _ => trivial
      cases hx
    cases x with
    | error status =>
      obtain ⟨rfl, rfl⟩ := runs_done_iff.1 h₂
      rw [List.append_nil]
      exact .returned hl h₁
    | ok state =>
      have hefi : state.efi = efi :=
        ((hprepare.of_runs h₁ fun _ _ => trivial) state rfl).services
      have hfinish : (finish (.ok state)).Ensures (fun _ => True) fun es o =>
          ∃ final, o = .halted final ∧ HandedOff efi state.core state.map state.info es final := by
        rw [finish, hefi]
        refine (ensures_handOff hl _ _ _).bind fun es final hend => ensures_done.2 ?_
        rw [List.append_nil]
        exact ⟨final, rfl, hend⟩
      obtain ⟨_, rfl, final, rfl, hend⟩ := hfinish es₂ o h₂ fun _ _ => trivial
      exact .halted hl h₁ hend

end Services

/-- A firmware with one volume, a core of 4096 bytes on it, and a memory map of ten descriptors.  It
ends its services at the second attempt. -/
def smallFirmware : (q : Call) → (exits : Nat) → q.Reply × Nat
  | .allocatePool .., n => (⟨.success, 0x1000⟩, n)
  | .freePool _, n => (.success, n)
  | .allocatePages .., n => (⟨.success, 0x200000⟩, n)
  | .freePages .., n => (.success, n)
  | .getMemoryMap size _, n =>
    (⟨if size < 480 then .bufferTooSmall else .success,
      ⟨480, some (UInt64.ofNat n), some 48, some 1⟩⟩, n)
  | .handleProtocol .., n => (⟨.success, 0x2000⟩, n)
  | .locateHandle .., n => (⟨.notFound, ⟨0, 0⟩⟩, n)
  | .locateProtocol _, n => (⟨.success, 0x3000⟩, n)
  | .locateHandleBuffer .., n => (⟨.success, ⟨1, 0x4000⟩⟩, n)
  | .openVolume _, n => (⟨.success, 0x5000⟩, n)
  | .openFile .., n => (⟨.success, 0x6000⟩, n)
  | .closeFile _, n => ((), n)
  | .fileInfo .., n => (⟨.success, 80⟩, n)
  | .fileRead _ size _, n => (⟨.success, size⟩, n)
  | .exitBootServices .., n => (if n = 0 then .invalidParameter else .success, n + 1)
  | .stall _, n => ((), n)
  | .outputString _, n => ((), n)
  | .setColour _, n => ((), n)
  | .clearScreen, n => ((), n)
  | .load _, n => (4096, n)
  | .debugWrite _, n => ((), n)
  | .enterCore .., n => ((), n)
  | .halt, n => ((), n)

/-- What that firmware publishes. -/
def smallTable : SystemTable where
  address := 0x7000
  revision := 0x20046
  firmwareRevision := 0x10000
  vendor := none
  consoleHandle := 0
  servicesRevision := 0x20046
  offersMemoryMap := true
  configuration := some [⟨.acpi20, 0x8000⟩]
  graphicsMode _ := none

/-- The hold on that firmware. -/
def smallServices : Services := ⟨0x100, smallTable, true⟩

/-- A boot on that firmware. -/
def smallBoot : List (Exchange Firmware) := smallServices.boot.exchanges smallFirmware 0

theorem runs_smallBoot : ∃ o, Runs smallServices.boot smallBoot o := by
  unfold smallBoot
  exact ⟨_, runs_exchanges _ _ 0⟩

theorem writesMap_smallFirmware (q : Call) (n : Nat) : WritesMap ⟨q, (smallFirmware q n).1⟩ := by
  cases q <;> first | exact trivial | exact fun _ => ⟨rfl, rfl, rfl⟩

theorem writesMap_smallBoot : ∀ e ∈ smallBoot, WritesMap e := by
  unfold smallBoot
  exact forall_mem_exchanges _ writesMap_smallFirmware _ 0

end Bootloader.Uefi
