import Bootloader.Uefi.Termination

/-!
# The UEFI boot

The whole of it: a banner, the search for the core, what there is to know of the platform, the
memory map, and the core.  A failure on the way is shown for a while and then returned to the
firmware; once the map has been taken there is no return (`Ending`).
-/

namespace Bootloader.Uefi

/-- How long a failure is shown, in microseconds. -/
def failureStall : UInt64 := 5000000

/-- How a boot ends: the firmware gets its control back with a status, or the machine is halted,
and then this is who owns what. -/
inductive Ending where
  | returned (status : Status)
  | halted (final : Handover)

/-- The status the firmware gets when there is no snapshot of the memory map. -/
def MapOutcome.failure (outcome : MapOutcome) (status : Status) : Status :=
  match outcome with
  | noService => .unsupported
  | allocationFailed => .outOfResources
  | stillTooSmall => .bufferTooSmall
  | ok => if status.isError then status else .loadError
  | failed => if status.isError then status else .loadError

namespace Services

variable (efi : Services)

/-- Shows a revision, as its major and its minor number. -/
def printRevision (revision : UInt32) : Action Unit := do
  efi.setColour lightCyan
  efi.printDecimal (revision >>> 16).toUInt64
  efi.print "."
  efi.printDecimal (revision &&& 0xFFFF).toUInt64
  efi.setColour lightGrey

/-- Shows the name of the loader and what firmware it runs on. -/
def printBanner : Action Unit := do
  efi.check
  efi.call .clearScreen
  efi.setColour white
  efi.print "Lionbootloader"
  efi.setColour lightGrey
  efi.print " UEFI stage 1\r\n"
  efi.print "Firmware vendor: "
  efi.setColour lightCyan
  efi.print (efi.table.vendor.getD "(unknown)")
  efi.setColour lightGrey
  efi.print "\r\nFirmware revision: "
  efi.printRevision efi.table.firmwareRevision
  efi.print "\r\nUEFI revision: "
  efi.printRevision efi.table.revision
  efi.print "\r\n\r\n"

/-- Shows that something is missing that the core can do without. -/
def warn (message : String) : Action Unit := do
  efi.setColour yellow
  efi.print "Warning: "
  efi.print message
  efi.setColour lightGrey
  efi.print "\r\n"

/-- Shows a failure and leaves it on the screen for a while. -/
def fail (message : String) : Action Unit := do
  efi.setColour lightRed
  efi.print "Error: "
  efi.print message
  efi.setColour lightGrey
  efi.print "\r\n"
  efi.stall failureStall

/-- Shows what the core will be told of the framebuffer. -/
def printFramebuffer (info : BootInfo) : Action Unit := do
  efi.print "Framebuffer "
  efi.printDecimal info.framebufferWidth.toUInt64
  efi.print "x"
  efi.printDecimal info.framebufferHeight.toUInt64
  efi.print "x"
  efi.printDecimal info.framebufferBitsPerPixel.toUInt64
  efi.print " at 0x"
  efi.printHexadecimal info.framebufferAddress
  efi.print "\r\n"

/-- Shows where the core will find the ACPI tables. -/
def printAcpi (info : BootInfo) : Action Unit := do
  efi.print "ACPI RSDP at 0x"
  efi.printHexadecimal info.acpiRoot
  efi.print "\r\n"

/-- Shows what the core will be told. -/
def printSummary (info : BootInfo) : Action Unit := do
  efi.print "Core at 0x"
  efi.printHexadecimal info.coreAddress
  efi.print ", "
  efi.printDecimal info.coreSize
  efi.print " bytes\r\n"
  if info.framebufferAddress ≠ 0 then efi.printFramebuffer info
  if info.acpiRoot ≠ 0 then efi.printAcpi info

/-- What the core will be told of the platform, with a warning for each group that is missing. -/
def describePlatform (info : BootInfo) : Action BootInfo := do
  let (drawable, info) ← efi.fillFramebuffer info
  if !drawable then efi.warn "no linear framebuffer available"
  let (acpi, info) ← efi.fillAcpi info
  if !acpi then efi.warn "ACPI RSDP not found"
  return info

/-- Goes on with a core that has been loaded. -/
def bootCore (core : CoreImage) : Action Ending := do
  let info ← efi.describePlatform
    (BootInfo.forCore core.pages.address core.size efi.table.address)
  efi.printSummary info
  let (outcome, map) ← efi.acquireMap {}
  if outcome = .ok then
    return .halted (← efi.handOff core map (info.withMap map))
  else
    efi.dropPages core.pages
    efi.fail outcome.text
    return .returned (outcome.failure map.status)

/-- The whole boot. -/
def boot : Action Ending := do
  efi.printBanner
  efi.print ("Searching for " ++ corePath ++ "\r\n")
  let (status, core) ← efi.findCore corePath {}
  if status.isError then
    efi.fail ("could not load " ++ corePath)
    return .returned .notFound
  else
    efi.bootCore core

end Services

/-- What the firmware starts: the boot, with a fresh hold on the services. -/
def start (image : UInt64) (table : SystemTable) : Action Ending :=
  Services.boot ⟨image, table, true⟩

end Bootloader.Uefi
