import Bootloader.Uefi.Pages

/-!
# What the firmware knows of the platform

The framebuffer and the root of the ACPI tables.  Each goes into the record for the core whole or
not at all: `BootInfo.withFramebuffer` and `BootInfo.withAcpi` set a group of fields, and a group
that could not be found out stays as it was.
-/

namespace Bootloader.Uefi

/-- The first revision of the boot services that has a direct search for a protocol. -/
def directSearchRevision : UInt32 := 0x100 + 10

/-- The bytes of a handle. -/
def handleBytes : UInt64 := 8

/-- The first entry with an identifier: its table, or zero. -/
def findTable (guid : Guid) : List ConfigurationEntry → UInt64
  | [] => 0
  | entry :: rest => if entry.guid = guid then entry.table else findTable guid rest

/-- The framebuffer a mode offers, if it can be drawn in. -/
def GraphicsMode.drawable? (mode : GraphicsMode) : Option ModeInformation :=
  match mode.information with
  | none => none
  | some information =>
    if mode.base = 0 then none
    else if information.pixelFormat.layout = .none then none
    else some information

namespace BootInfo

/-- Tells the core of a framebuffer. -/
def withFramebuffer (info : BootInfo) (mode : GraphicsMode) (information : ModeInformation) :
    BootInfo :=
  { info with
    framebufferAddress := mode.base
    framebufferSize := mode.size
    framebufferWidth := information.width
    framebufferHeight := information.height
    framebufferBitsPerPixel := information.pixelFormat.bitsPerPixel
    framebufferPixelFormat := information.pixelFormat.layout.tag
    framebufferPitch := information.pitch }

/-- Tells the core where the ACPI tables begin. -/
def withAcpi (info : BootInfo) (root : UInt64) : BootInfo := { info with acpiRoot := root }

end BootInfo

/-- The interface a search has come to; zero if the search failed. -/
def Answer.interface (answer : Answer UInt64) : UInt64 :=
  if answer.status.isError then 0 else answer.value

namespace Services

variable (efi : Services)

/-- The first handle that supports a protocol, if there is one and there is memory to look. -/
def firstHandle (protocol : Guid) : Action (Option UInt64) := do
  let got ← efi.call (.locateHandle byProtocol protocol handleBytes .single)
  if !got.status.isError then return some got.value.single
  if got.status ≠ .bufferTooSmall then return none
  let buffer ← efi.allocate got.value.size
  if buffer = 0 then return none
  let again ← efi.call (.locateHandle byProtocol protocol got.value.size (.pool buffer))
  if again.status.isError then
    efi.free buffer
    return none
  let handle ← perform (.load buffer)
  efi.free buffer
  return some handle

/-- The interface of a protocol; zero if there is none.  Older boot services have no direct search,
and there the first handle that supports the protocol is asked. -/
def locateProtocol (protocol : Guid) : Action UInt64 := do
  efi.check
  if directSearchRevision ≤ efi.table.servicesRevision then
    return (← efi.call (.locateProtocol protocol)).interface
  match ← efi.firstHandle protocol with
  | none => return 0
  | some handle => return (← efi.call (.handleProtocol handle protocol)).interface

/-- The graphics interface: that of the console if it has one, any other if not; zero if there is
none at all. -/
def findGraphics : Action UInt64 := do
  efi.check
  if efi.table.consoleHandle = 0 then
    efi.locateProtocol .graphicsOutput
  else
    let got ← efi.call (.handleProtocol efi.table.consoleHandle .graphicsOutput)
    if got.status = .success ∧ got.value ≠ 0 then
      return got.value
    efi.locateProtocol .graphicsOutput

/-- Tells the core of the framebuffer, if there is one. -/
def fillFramebuffer (info : BootInfo) : Action (Bool × BootInfo) := do
  let graphics ← efi.findGraphics
  if graphics = 0 then return (false, info)
  match efi.table.graphicsMode graphics with
  | none => return (false, info)
  | some mode =>
    match mode.drawable? with
    | none => return (false, info)
    | some information => return (true, info.withFramebuffer mode information)

/-- The table with an identifier, or zero. -/
def findConfiguration (guid : Guid) : Action UInt64 := do
  efi.check
  return (efi.table.configuration.map (findTable guid)).getD 0

/-- The root of the ACPI tables, that of version 2.0 by preference, or zero. -/
def findAcpi : Action UInt64 := do
  let root ← efi.findConfiguration .acpi20
  if root ≠ 0 then return root
  efi.findConfiguration .acpi

/-- Tells the core where the ACPI tables begin, if there are any. -/
def fillAcpi (info : BootInfo) : Action (Bool × BootInfo) := do
  let root ← efi.findAcpi
  if root = 0 then return (false, info)
  return (true, info.withAcpi root)

end Services

end Bootloader.Uefi
