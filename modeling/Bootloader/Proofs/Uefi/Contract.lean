import Bootloader.Proofs.Uefi.Framebuffer

/-!
# What the core may rely on

Whenever the core is entered, the record it gets agrees with what the firmware has said before:
`Contract` lists it field by field, and `contract_boot` shows it of every run, however the firmware
answers and however many attempts it takes to end the services.
-/

namespace Bootloader.Uefi

open Program

/-- The buffer and the outputs of a call for the memory map that went well. -/
def mapTaken? : Exchange Firmware → Option (UInt64 × MapOutputs)
  | ⟨.getMemoryMap _ buffer, got⟩ =>
    if got.status.isError then none else some (buffer, got.value)
  | _ => none

/-- The key of a call to end the services. -/
def exitKey? : Exchange Firmware → Option UInt64
  | ⟨.exitBootServices _ key, _⟩ => some key
  | _ => none

namespace BootInfo

/-- The outputs that the record was told of a snapshot. -/
def mapOutputs (info : BootInfo) : MapOutputs :=
  ⟨info.mapSize, some info.mapKey, some info.descriptorSize, some info.descriptorVersion⟩

/-- The record tells of no framebuffer. -/
structure FramebufferZero (info : BootInfo) : Prop where
  address : info.framebufferAddress = 0
  size : info.framebufferSize = 0
  width : info.framebufferWidth = 0
  height : info.framebufferHeight = 0
  bitsPerPixel : info.framebufferBitsPerPixel = 0
  pixelFormat : info.framebufferPixelFormat = 0
  pitch : info.framebufferPitch = 0

/-- The constants of the protocol: the letters LBLBINFO, version 1.0 and the two sizes. -/
structure HasHeader (info : BootInfo) : Prop where
  magic : info.magic = 0x4C424C42494E464F
  version : info.version = 0x00010000
  headerSize : info.headerSize = 24
  totalSize : info.totalSize = 152

/-- The reserved fields are zero. -/
structure ReservedZero (info : BootInfo) : Prop where
  reserved0 : info.reserved0 = 0
  reserved2 : info.reserved2 = 0
  reserved3 : info.reserved3 = 0
  reservedExt1 : info.reservedExt1 = 0
  reservedExt2 : info.reservedExt2 = 0

end BootInfo

/-- What the record says to a core that is entered at `entry` after the exchanges `es`. -/
structure Contract (efi : Services) (es : List (Exchange Firmware)) (entry : UInt64)
    (info : BootInfo) : Prop where
  map : (es.filterMap mapTaken?).getLast? = some (info.mapAddress, info.mapOutputs)
  key : (es.filterMap exitKey?).getLast? = some info.mapKey
  core : CoreRead es ⟨⟨info.coreAddress, pagesForBytes info.coreSize⟩, info.coreSize⟩
  entry : entry = info.coreAddress + info.coreEntryOffset
  header : info.HasHeader
  systemTable : info.systemTable = efi.table.address
  framebuffer : info.FramebufferZero ∨
    ∃ mode information, ReportedScreen efi.table es mode information ∧
      FramebufferOf mode information info
  acpi : info.acpiRoot = 0 ∨ ReportedRoot efi.table info.acpiRoot
  reserved : info.ReservedZero

section Described

variable {efi : Services} {es : List (Exchange Firmware)} {core : CoreImage} {map : MemoryMap}
variable {screen : Option (GraphicsMode × ModeInformation)} {root : Option UInt64}
variable {systemTable : UInt64}

namespace BootInfo

theorem hasHeader_described :
    ((described core systemTable screen root).withMap map).HasHeader := by
  cases screen <;> cases root <;> exact ⟨rfl, rfl, rfl, rfl⟩

theorem reservedZero_described :
    ((described core systemTable screen root).withMap map).ReservedZero := by
  cases screen <;> cases root <;> exact ⟨rfl, rfl, rfl, rfl, rfl⟩

theorem systemTable_described :
    ((described core systemTable screen root).withMap map).systemTable = systemTable := by
  cases screen <;> cases root <;> rfl

theorem framebufferZero_described :
    ((described core systemTable none root).withMap map).FramebufferZero := by
  cases root <;> exact ⟨rfl, rfl, rfl, rfl, rfl, rfl, rfl⟩

theorem framebufferOf_described {table : SystemTable} {graphics : UInt64} {mode : GraphicsMode}
    {information : ModeInformation} (h : Drawable table graphics mode information) :
    FramebufferOf mode information
      ((described core systemTable (some (mode, information)) root).withMap map) := by
  -- no other group has a field of the framebuffer, so it may as well be filled in last
  have hlast : (described core systemTable (some (mode, information)) root).withMap map =
      (((forCore core.pages.address core.size systemTable).withRoot root).withMap
        map).withFramebuffer mode information := by
    cases root <;> rfl
  rw [hlast]
  exact h.framebufferOf

theorem acpiRoot_described :
    ((described core systemTable screen root).withMap map).acpiRoot = root.getD 0 := by
  cases screen <;> cases root <;> rfl

end BootInfo

/-- A record made of what was read, taken and reported keeps the contract. -/
theorem contract_of_described
    (hmap : (es.filterMap mapTaken?).getLast? = some (map.buffer, map.outputs))
    (hkey : (es.filterMap exitKey?).getLast? = some map.key) (hcore : CoreRead es core)
    (hscreen : ∀ s ∈ screen, ReportedScreen efi.table es s.1 s.2)
    (hroot : ∀ r ∈ root, ReportedRoot efi.table r) :
    Contract efi es ((BootInfo.described core efi.table.address screen root).withMap map).entry
      ((BootInfo.described core efi.table.address screen root).withMap map) where
  map := hmap
  key := hkey
  core := by
    rw [BootInfo.core_described.1, BootInfo.core_described.2, ← hcore.pages]
    exact hcore
  entry := rfl
  header := BootInfo.hasHeader_described
  systemTable := BootInfo.systemTable_described
  framebuffer := by
    cases screen with
    | none => exact .inl BootInfo.framebufferZero_described
    | some s =>
      obtain ⟨e, he, graphics, hfinds, hdrawable⟩ := hscreen s rfl
      exact .inr ⟨s.1, s.2, ⟨e, he, graphics, hfinds, hdrawable⟩,
        BootInfo.framebufferOf_described hdrawable⟩
  acpi := by
    rw [BootInfo.acpiRoot_described]
    cases root with
    | none => exact .inl rfl
    | some r => exact .inr (hroot r rfl)
  reserved := BootInfo.reservedZero_described

end Described

section Entry

variable {image : UInt64} {left : Nat} {map map' : MemoryMap} {info info' : BootInfo}
variable {es : List (Exchange Firmware)} {status : Status}

theorem MemoryMap.TakenBy.mapTaken?_eq {e : Exchange Firmware} (h : map.TakenBy e) :
    mapTaken? e = some (map.buffer, map.outputs) := by
  obtain ⟨status, hs, rfl⟩ := h
  simp [mapTaken?, hs]

theorem MemoryMap.TakenBy.exitKey?_eq {e : Exchange Firmware} (h : map.TakenBy e) :
    exitKey? e = none := by
  obtain ⟨_, _, rfl⟩ := h
  rfl

theorem Attempts.filterMap_fullRead? (h : Attempts image left map info es status map' info') :
    es.filterMap fullRead? = [] := by
  refine List.filterMap_eq_nil_iff.2 fun ⟨q, r⟩ he => ?_
  rcases h.quiet _ he with h | ⟨_, _, h⟩ <;> cases q <;> first | rfl | cases h

end Entry

namespace Services

variable {efi : Services}

/-- A core that is entered after attempts from a boot that was prepared gets a record that keeps
the contract. -/
theorem contract_of_attempts {es es₁ : List (Exchange Firmware)} {state : Handover}
    {map : MemoryMap} {info : BootInfo} {status : Status} (hp : Prepared efi es state)
    (hm : ∃ es₀ e, es = es₀ ++ [e] ∧ state.map.TakenBy e)
    (h : Attempts efi.image exitRetries state.map state.info es₁ status map info)
    (hs : status.isError = false) (hw : ∀ e ∈ es₁, WritesMap e) :
    Contract efi (es ++ (es₁ ++ [enteringCall])) info.entry info := by
  obtain ⟨es₀, e, rfl, he⟩ := hm
  obtain ⟨screen, root, hinfo, hscreen, hroot⟩ := hp.info
  obtain ⟨es₂, e', hes, he'⟩ := h.last hs he hw
  have hunread : (es₁ ++ [enteringCall]).filterMap fullRead? = [] := by
    rw [List.filterMap_append, h.filterMap_fullRead?]
    rfl
  have hcore := CoreRead.append_right hp.core hunread
  rw [h.info_eq hinfo]
  have hsplit : es₀ ++ [e] ++ (es₁ ++ [enteringCall]) =
      es₀ ++ es₂ ++ [e', exitCall efi.image map status, enteringCall] := by
    rw [List.append_assoc, List.singleton_append, ← List.cons_append, hes]
    simp
  refine contract_of_described ?_ ?_ hcore (fun s hs => ?_) hroot
  · have htaken : [e', exitCall efi.image map status, enteringCall].filterMap mapTaken? =
        [(map.buffer, map.outputs)] :=
      List.filterMap_cons_some he'.mapTaken?_eq
    rw [hsplit, List.filterMap_append, htaken]
    exact List.getLast?_concat
  · have hkey : [e', exitCall efi.image map status, enteringCall].filterMap exitKey? =
        [map.key] :=
      List.filterMap_cons_none he'.exitKey?_eq
    rw [hsplit, List.filterMap_append, hkey]
    exact List.getLast?_concat
  · exact ReportedScreen.mono (hscreen s hs) fun x hx => List.mem_append_left _ hx

/-- Whenever a run of the boot enters the core, the record keeps the contract. -/
theorem contract_boot {es pre post : List (Exchange Firmware)} {o : Option Ending}
    {entry : UInt64} {info : BootInfo} {r : Unit} (h : Runs efi.boot es o)
    (hw : ∀ e ∈ es, WritesMap e) (hes : es = pre ++ ⟨.enterCore entry info, r⟩ :: post) :
    Contract efi pre entry info := by
  have hmem : ⟨.enterCore entry info, r⟩ ∈ es := by simp [hes]
  cases booted_of_runs h with
  | misused hl => simp at hmem
  | returned hl hr => cases entryOf?_eq_none_of_prepare hl hr _ hmem
  | @halted es₁ es₂ state final hl hr hend =>
    rw [List.forall_mem_append] at hw
    have hprepared := (ensures_prepare hl).of_runs hr hw.1 state rfl
    have hmap := (ensures_prepare_map hl).of_runs hr hw.1 state rfl
    have hbefore := entryOf?_eq_none_of_prepare hl hr
    cases hend with
    | refused hattempts hs hend =>
      rcases List.mem_append.1 hmem with hmem | hmem
      · cases hbefore _ hmem
      rcases List.mem_append.1 hmem with hmem | hmem
      · cases hattempts.entryOf?_eq_none _ hmem
      · cases entryOf?_eq_none_of_abandoned hend _ hmem
    | @entered es₂ status map' info' hattempts hs =>
      rw [← List.append_assoc] at hes
      obtain ⟨rfl, rfl, rfl⟩ := eq_of_entered
        (List.forall_mem_append.2 ⟨hbefore, hattempts.entryOf?_eq_none⟩) hes
      rw [List.append_assoc]
      exact contract_of_attempts hprepared hmap hattempts hs (List.forall_mem_append.1 hw.2).1

end Services

/-- The small firmware with a screen to draw on. -/
def drawnServices : Services :=
  ⟨0x100, { smallTable with graphicsMode := colourServices.table.graphicsMode }, true⟩

/-- A boot on that firmware. -/
def drawnBoot : List (Exchange Firmware) := drawnServices.boot.exchanges smallFirmware 0

/-- What the core is told there. -/
def drawnInfo : BootInfo where
  magic := 0x4C424C42494E464F
  version := 0x00010000
  headerSize := 24
  totalSize := 152
  coreAddress := 0x200000
  coreSize := 4096
  mapAddress := 0x1000
  mapSize := 480
  mapKey := 1
  descriptorSize := 48
  descriptorVersion := 1
  framebufferAddress := 0x80000000
  framebufferSize := 0x100000
  framebufferWidth := 800
  framebufferHeight := 600
  framebufferPitch := 1664
  framebufferBitsPerPixel := 15
  framebufferPixelFormat := 3
  acpiRoot := 0x8000
  systemTable := 0x7000

/-- The core is entered there with all that there is to be told, and the key of the second
attempt. -/
theorem contract_drawnBoot : ∃ pre post r,
    drawnBoot = pre ++ ⟨.enterCore 0x200000 drawnInfo, r⟩ :: post ∧
      Contract drawnServices pre 0x200000 drawnInfo := by
  have hentry : drawnBoot.filterMap entryOf? = [(0x200000, drawnInfo)] := by decide +kernel
  have hmem : (0x200000, drawnInfo) ∈ drawnBoot.filterMap entryOf? := by
    rw [hentry]
    exact List.mem_singleton_self _
  obtain ⟨e, he, hcore⟩ := List.mem_filterMap.1 hmem
  obtain ⟨r, rfl⟩ := eq_of_entryOf? hcore
  obtain ⟨pre, post, hsplit⟩ := List.append_of_mem he
  have hr := runs_exchanges smallFirmware drawnServices.boot 0
  have hw : ∀ e ∈ drawnBoot, WritesMap e := forall_mem_exchanges _ writesMap_smallFirmware _ 0
  exact ⟨pre, post, r, hsplit, Services.contract_boot hr hw hsplit⟩

end Bootloader.Uefi
