import Bootloader.Proofs.Ensures
import Bootloader.Uefi.Boot

/-!
# What the parts of the boot call for

While the services are live, a call through them is a call of the firmware and nothing else.  So
what is shown to the user is console calls only (`onConsole_printBanner` and the others), and the
platform is described without files, pages or memory maps (`onPlatform_describePlatform`).
-/

namespace Bootloader.Uefi

open Program

/-- The call writes on the console. -/
def Call.IsShown : Call → Prop
  | outputString _ | setColour _ | clearScreen => True
  | _ => False

/-- The call writes on the console, or lets time pass. -/
def Call.IsConsole : Call → Prop
  | outputString _ | setColour _ | clearScreen | stall _ => True
  | _ => False

/-- The call asks the firmware what it knows of the platform, or handles memory for that. -/
def Call.IsPlatform : Call → Prop
  | handleProtocol .. | locateHandle .. | locateProtocol .. | load _ => True
  | allocatePool .. | freePool _ => True
  | _ => False

/-- What the core is told of the platform after the framebuffer. -/
def Services.describeAcpi (efi : Services) (info : BootInfo) : Action BootInfo := do
  let (acpi, info) ← efi.fillAcpi info
  if !acpi then efi.warn "ACPI RSDP not found"
  return info

/-- The calls that give a run back, if it is one. -/
def PageRun.dropCalls (run : PageRun) : List Call :=
  if run.nonempty then [.freePages run.address run.pages] else []

/-- The action writes on the console and does nothing else. -/
abbrev Shows {α : Type} (p : Action α) : Prop := p.Only Call.IsShown

/-- The action calls the console and nothing else. -/
abbrev OnConsole {α : Type} (p : Action α) : Prop := p.Only Call.IsConsole

/-- The action asks for the platform and does nothing else. -/
abbrev Asks {α : Type} (p : Action α) : Prop := p.Only Call.IsPlatform

/-- The action asks for the platform, and may show something. -/
abbrev OnPlatform {α : Type} (p : Action α) : Prop :=
  p.Only fun q : Call => q.IsPlatform ∨ q.IsConsole

theorem Call.IsShown.isConsole {q : Call} (h : q.IsShown) : q.IsConsole := by
  cases q <;> trivial

theorem only_perform {P : Call → Prop} {q : Call} (h : P q) : (perform q).Only P :=
  ⟨h, fun _ => trivial⟩

namespace Services

variable {efi : Services} {P : Call → Prop}

theorem only_call (hl : efi.live = true) {q : Call} (h : P q) : (efi.call q).Only P := by
  rw [call_eq_of_live hl]
  exact only_perform h

theorem only_check (hl : efi.live = true) : efi.check.Only P := by
  rw [check_of_live hl]
  trivial

/-- Nothing comes of services that were given up but a line about it and a halt. -/
theorem runs_check_of_not_live {α : Type} {f : Unit → Action α} {es : List (Exchange Firmware)}
    {o : Option α} (hl : efi.live = false) (h : Runs (efi.check >>= f) es o) :
    es = [⟨.debugWrite misuse, ()⟩, ⟨.halt, ()⟩] ∧ o = none := by
  have hcheck : efi.check >>= f = .ask (.debugWrite misuse) fun _ => .ask .halt fun _ => .stop := by
    simp [check, hl, perform, request]
  rw [hcheck] at h
  obtain ⟨_, es₁, rfl, h₁⟩ := runs_ask_iff.1 h
  obtain ⟨_, es₂, rfl, h₂⟩ := runs_ask_iff.1 h₁
  obtain ⟨rfl, rfl⟩ := runs_stop_iff.1 h₂
  exact ⟨rfl, rfl⟩

theorem runs_call_of_not_live {α : Type} {q : Call} {f : q.Reply → Action α}
    {es : List (Exchange Firmware)} {o : Option α} (hl : efi.live = false)
    (h : Runs (efi.call q >>= f) es o) :
    es = [⟨.debugWrite misuse, ()⟩, ⟨.halt, ()⟩] ∧ o = none := by
  rw [call, bind_bind] at h
  exact runs_check_of_not_live hl h

section Console

theorem shows_print (hl : efi.live = true) (text : String) : Shows (efi.print text) :=
  only_call hl trivial

theorem shows_setColour (hl : efi.live = true) (colour : UInt64) :
    Shows (efi.setColour colour) :=
  only_call hl trivial

theorem shows_printRevision (hl : efi.live = true) (revision : UInt32) :
    Shows (efi.printRevision revision) :=
  (shows_setColour hl _).bind fun _ => (shows_print hl _).bind fun _ =>
    (shows_print hl _).bind fun _ => (shows_print hl _).bind fun _ =>
      shows_setColour hl _

theorem shows_printBanner (hl : efi.live = true) : Shows efi.printBanner := by
  refine (only_check hl).bind fun _ => (only_call hl trivial).bind fun _ => ?_
  refine (shows_setColour hl _).bind fun _ => (shows_print hl _).bind fun _ => ?_
  refine (shows_setColour hl _).bind fun _ => (shows_print hl _).bind fun _ => ?_
  refine (shows_print hl _).bind fun _ => (shows_setColour hl _).bind fun _ => ?_
  refine (shows_print hl _).bind fun _ => (shows_setColour hl _).bind fun _ => ?_
  refine (shows_print hl _).bind fun _ => (shows_printRevision hl _).bind fun _ => ?_
  refine (shows_print hl _).bind fun _ => (shows_printRevision hl _).bind fun _ => ?_
  exact shows_print hl _

theorem shows_warn (hl : efi.live = true) (message : String) :
    Shows (efi.warn message) :=
  (shows_setColour hl _).bind fun _ => (shows_print hl _).bind fun _ =>
    (shows_print hl _).bind fun _ => (shows_setColour hl _).bind fun _ =>
      shows_print hl _

theorem shows_printFramebuffer (hl : efi.live = true) (info : BootInfo) :
    Shows (efi.printFramebuffer info) := by
  refine (shows_print hl _).bind fun _ => (shows_print hl _).bind fun _ => ?_
  refine (shows_print hl _).bind fun _ => (shows_print hl _).bind fun _ => ?_
  refine (shows_print hl _).bind fun _ => (shows_print hl _).bind fun _ => ?_
  exact (shows_print hl _).bind fun _ => (shows_print hl _).bind fun _ =>
    shows_print hl _

theorem shows_printAcpi (hl : efi.live = true) (info : BootInfo) :
    Shows (efi.printAcpi info) :=
  (shows_print hl _).bind fun _ => (shows_print hl _).bind fun _ => shows_print hl _

theorem shows_printSummary (hl : efi.live = true) (info : BootInfo) :
    Shows (efi.printSummary info) := by
  have hacpi : Shows (if info.acpiRoot ≠ 0 then efi.printAcpi info else pure ()) := by
    split
    · exact shows_printAcpi hl info
    · trivial
  refine (shows_print hl _).bind fun _ => (shows_print hl _).bind fun _ => ?_
  refine (shows_print hl _).bind fun _ => (shows_print hl _).bind fun _ => ?_
  refine (shows_print hl _).bind fun _ => ?_
  by_cases hf : info.framebufferAddress ≠ 0
  · rw [if_pos hf]
    exact (shows_printFramebuffer hl info).bind fun _ => hacpi
  · rw [if_neg hf]
    exact hacpi

theorem shows_printStatus (hl : efi.live = true) (status : Status) :
    Shows (efi.printStatus status) := by
  unfold printStatus
  split
  · exact (shows_print hl _).bind fun _ => (shows_print hl _).bind fun _ =>
      shows_print hl _
  · trivial

theorem shows_explain (hl : efi.live = true) (failure : LoadFailure) :
    Shows (efi.explain failure) := by
  have hp := shows_print hl
  have hs := shows_printStatus hl
  cases failure with
  | noFileSystem status => exact (hp _).bind fun _ => hs status
  | cannotOpenVolume status => exact (hp _).bind fun _ => hs status
  | cannotOpenFile status =>
    rw [explain]
    split
    · exact hp _
    · exact (hp _).bind fun _ => hs status
  | readFailed status => exact (hp _).bind fun _ => hs status
  | cannotGetSize => exact hp _
  | emptyFile => exact hp _
  | outOfMemory => exact hp _
  | shortRead => exact hp _

theorem onConsole_of_shows {α : Type} {p : Action α} (hp : Shows p) : OnConsole p :=
  hp.mono fun _ => Call.IsShown.isConsole

theorem onConsole_print (hl : efi.live = true) (text : String) : OnConsole (efi.print text) :=
  onConsole_of_shows (shows_print hl text)

theorem onConsole_setColour (hl : efi.live = true) (colour : UInt64) :
    OnConsole (efi.setColour colour) :=
  onConsole_of_shows (shows_setColour hl colour)

theorem onConsole_printBanner (hl : efi.live = true) : OnConsole efi.printBanner :=
  onConsole_of_shows (shows_printBanner hl)

theorem onConsole_warn (hl : efi.live = true) (message : String) :
    OnConsole (efi.warn message) :=
  onConsole_of_shows (shows_warn hl message)

theorem onConsole_printSummary (hl : efi.live = true) (info : BootInfo) :
    OnConsole (efi.printSummary info) :=
  onConsole_of_shows (shows_printSummary hl info)

theorem onConsole_explain (hl : efi.live = true) (failure : LoadFailure) :
    OnConsole (efi.explain failure) :=
  onConsole_of_shows (shows_explain hl failure)

theorem onConsole_fail (hl : efi.live = true) (message : String) :
    OnConsole (efi.fail message) :=
  (onConsole_setColour hl _).bind fun _ => (onConsole_print hl _).bind fun _ =>
    (onConsole_print hl _).bind fun _ => (onConsole_setColour hl _).bind fun _ =>
      (onConsole_print hl _).bind fun _ => only_call hl trivial

end Console

section Pages

variable {A : Exchange Firmware → Prop}

theorem ensures_dropPages (hl : efi.live = true) (run : PageRun) :
    (efi.dropPages run).Ensures A fun es _ => es.map (·.1) = run.dropCalls := by
  unfold dropPages PageRun.dropCalls
  split
  · rw [call_eq_of_live hl]
    exact ensures_request.2 fun _ _ => ensures_done.2 rfl
  · exact ensures_done.2 rfl

/-- A run is put in the place of another as soon as it is granted. -/
theorem ensures_replacePages (hl : efi.live = true) (old : PageRun) (pages : UInt64) :
    (efi.replacePages old pages).Ensures A fun es run => ∃ granted : Answer UInt64,
      (granted.status.isError = true ∧ run = none ∧
          es = [⟨.allocatePages anyPages loaderCode pages, granted⟩]) ∨
        (granted.status.isError = false ∧ run = some ⟨granted.value, pages⟩ ∧
          ∃ dropped, es = ⟨.allocatePages anyPages loaderCode pages, granted⟩ :: dropped ∧
            dropped.map (·.1) = old.dropCalls) := by
  rw [replacePages, allocatePages, call_eq_of_live hl]
  refine ensures_request.2 fun granted _ => ?_
  cases hg : granted.status.isError with
  | true => exact ensures_done.2 ⟨granted, .inl ⟨hg, rfl, rfl⟩⟩
  | false =>
    refine (ensures_dropPages hl old).bind fun dropped _ hd => ensures_done.2 ?_
    rw [List.append_nil]
    exact ⟨granted, .inr ⟨hg, rfl, dropped, rfl, hd⟩⟩

end Pages

section Platform

theorem asks_allocate (hl : efi.live = true) (size : UInt64) : Asks (efi.allocate size) :=
  (only_call hl trivial).bind fun _ => trivial

theorem asks_free (hl : efi.live = true) (buffer : UInt64) : Asks (efi.free buffer) :=
  (only_call hl trivial).bind fun _ => trivial

theorem asks_firstHandle (hl : efi.live = true) (protocol : Guid) :
    Asks (efi.firstHandle protocol) := by
  refine (only_call hl trivial).bind fun got => ?_
  split
  · trivial
  split
  · trivial
  refine (asks_allocate hl _).bind fun buffer => ?_
  split
  · trivial
  refine (only_call hl trivial).bind fun again => ?_
  split
  · exact (asks_free hl _).bind fun _ => trivial
  · exact (only_perform trivial).bind fun _ => (asks_free hl _).bind fun _ => trivial

theorem asks_locateProtocol (hl : efi.live = true) (protocol : Guid) :
    Asks (efi.locateProtocol protocol) := by
  refine (only_check hl).bind fun _ => ?_
  split
  · exact (only_call hl trivial).bind fun _ => trivial
  refine (asks_firstHandle hl protocol).bind fun handle => ?_
  cases handle with
  | none => trivial
  | some handle => exact (only_call hl trivial).bind fun _ => trivial

theorem asks_findGraphics (hl : efi.live = true) : Asks efi.findGraphics := by
  refine (only_check hl).bind fun _ => ?_
  split
  · exact asks_locateProtocol hl _
  refine (only_call hl trivial).bind fun got => ?_
  split
  · trivial
  · exact asks_locateProtocol hl _

theorem asks_fillFramebuffer (hl : efi.live = true) (info : BootInfo) :
    Asks (efi.fillFramebuffer info) := by
  refine (asks_findGraphics hl).bind fun graphics => ?_
  split
  · trivial
  split
  · trivial
  split <;> trivial

theorem only_findConfiguration (hl : efi.live = true) (guid : Guid) :
    (efi.findConfiguration guid).Only P :=
  (only_check hl).bind fun _ => trivial

/-- The tables that the firmware publishes are looked at without a call. -/
theorem only_fillAcpi (hl : efi.live = true) (info : BootInfo) : (efi.fillAcpi info).Only P := by
  have hfind : efi.findAcpi.Only P := by
    refine (only_findConfiguration hl _).bind fun root => ?_
    split
    · trivial
    · exact only_findConfiguration hl _
  refine hfind.bind fun root => ?_
  split <;> trivial

theorem only_describeAcpi (hl : efi.live = true) (hshow : ∀ q : Call, q.IsShown → P q)
    (info : BootInfo) : (efi.describeAcpi info).Only P := by
  refine (only_fillAcpi hl info).bind ?_
  rintro ⟨acpi, info⟩
  cases acpi
  · exact ((shows_warn hl _).mono hshow).bind fun _ => trivial
  · trivial

theorem only_describePlatform (hl : efi.live = true) (hask : ∀ q : Call, q.IsPlatform → P q)
    (hshow : ∀ q : Call, q.IsShown → P q) (info : BootInfo) :
    (efi.describePlatform info).Only P := by
  refine ((asks_fillFramebuffer hl info).mono hask).bind ?_
  rintro ⟨drawable, info⟩
  cases drawable
  · exact ((shows_warn hl _).mono hshow).bind fun _ => only_describeAcpi hl hshow info
  · exact only_describeAcpi hl hshow info

theorem onPlatform_describePlatform (hl : efi.live = true) (info : BootInfo) :
    OnPlatform (efi.describePlatform info) :=
  only_describePlatform hl (fun _ => .inl) (fun _ h => .inr h.isConsole) info

end Platform

end Services

end Bootloader.Uefi
