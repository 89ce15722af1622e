import Bootloader.Legacy.A20
import Bootloader.Legacy.Descriptor
import Bootloader.Legacy.Disk

/-!
# The first two stages

The boot sector reads the second stage and jumps to it.  The second stage turns the A20 line on,
reads the core, and switches to protected mode.  Neither comes back: `Ending` says how a stage
ends.
-/

namespace Bootloader.Legacy

open Bios

/-- How a stage ends. -/
inductive Ending where
  | halted
  | jumped (segment offset : UInt16) (drive : UInt8)
  | protectedMode (table : TablePointer) (selector : UInt16) (target : UInt32)
deriving DecidableEq, Repr

/-- Reads the second stage, which follows the boot sector and lies in the first track. -/
def readStage2 (config : BuildConfig) (drive : UInt8) : Program Bios Bool := do
  if ← probeExtensions drive then
    readExtended drive (AddressPacket.make config.stage2Sectors.toUInt16 0
      stage2Address.toUInt16 stage2Start.toUInt64)
  else
    print "Using CHS mode.\r\n"
    readChs drive ⟨0, 0, (stage2Start + 1).toUInt8⟩ config.stage2Sectors.toUInt8 0
      stage2Address.toUInt16

/-- The boot sector. -/
def stage1 (config : BuildConfig) (drive : UInt8) : Program Bios Ending := do
  print "LBL stage 1\r\n"
  if ← readStage2 config drive then
    return .jumped 0 stage2Address.toUInt16 drive
  else
    print "Disk read error!\r\n"
    return .halted

/-- What the second stage hands on to its part in protected mode. -/
structure Shared where
  bootDrive : UInt8 := 0
  usedExtensions : Bool := false
  table : TablePointer := {}
deriving DecidableEq, Repr

/-- Says what has failed. -/
def reportFailure (message : String) : Program Bios Unit := do
  print message
  print "\r\nSystem halted."

/-- Switches to protected mode. -/
def enterProtectedMode (shared : Shared) (target : UInt32) : Program Bios (Ending × Shared) := do
  let segment ← perform .codeSegment
  let offset ← perform .tableOffset
  let table := TablePointer.make segment offset flatTableBytes
  return (.protectedMode table codeSelector target, { shared with table })

/-- Reads the core and goes on. -/
def loadCore (config : BuildConfig) (shared : Shared) (target : UInt32) :
    Program Bios (Ending × Shared) := do
  print "Loading LBL Core Engine...\r\n"
  let (usable, reader) ← Reader.init { drive := shared.bootDrive }
  if usable then
    let shared := { shared with usedExtensions := reader.extended }
    if ← reader.read config.coreStart config.coreSectors bounceAddress then
      print "LBL Core loaded.\r\n"
      enterProtectedMode shared target
    else
      reportFailure "LBL Core load FAILED!"
      return (.halted, shared)
  else
    reportFailure "LBL Core load FAILED! (no usable disk access method)"
    return (.halted, shared)

/-- What is said of the way the A20 line was turned on. -/
def A20.Method.report : A20.Method → String
  | keyboardController => "A20 line enabled (keyboard controller).\r\n"
  | _ => "A20 line enabled.\r\n"

/-- The second stage, up to the switch to protected mode; `target` is where it goes on there. -/
def stage2 (config : BuildConfig) (drive : UInt8) (target : UInt32) :
    Program Bios (Ending × Shared) := do
  let shared : Shared := { bootDrive := drive }
  print "LBL stage 2\r\n"
  let method ← A20.enable
  if method = .failed then
    reportFailure "A20 enable FAILED!"
    return (.halted, shared)
  else
    print method.report
    loadCore config shared target

end Bootloader.Legacy
