import Bootloader.Legacy.Handoff
import Bootloader.Legacy.Layout
import Bootloader.Legacy.Screen
import Bootloader.Program

/-!
# Entering the core

What the second stage does in protected mode: it copies the core to where it runs, leaves the
record for it, and enters it.  A core that comes back finds the machine halted.
-/

namespace Bootloader.Legacy

/-- The entry into the core, with the memory it finds. -/
structure CoreCall where
  entry : UInt32
  record : UInt32
  memory : Buffer

/-- The surroundings of the second stage in protected mode: the core, which leaves some memory
behind when it comes back. -/
abbrev Core : Interface := ⟨CoreCall, fun _ => Buffer⟩

/-- The console on the screen. -/
def screenConsole : Console := { base := screenAddress.toNat }

/-- Copies the core to where it runs, and leaves the record for it. -/
def placeCore (config : BuildConfig) (drive : UInt8) (memory : Buffer) : Buffer :=
  (HandoffRecord.forDrive drive).store
    (memory.copy coreAddress.toNat bounceAddress.toNat config.coreSize.toNat)
    handoffAddress.toNat

/-- The second stage in protected mode, up to the halt: the memory at the halt. -/
def protectedMode (config : BuildConfig) (drive : UInt8) (memory : Buffer) :
    Program Core Buffer := do
  let (console, memory) := screenConsole.write "LBL stage 2: protected mode\n" memory
  let memory := placeCore config drive memory
  let (console, memory) := console.write "Jumping to LBL Core.\n" memory
  let memory ← Program.request (I := Core) ⟨coreEntry, handoffAddress, memory⟩
  let console := { console with colour := 0x4F }
  let (_, memory) := console.write "LBL Core returned! System halted." memory
  return memory

end Bootloader.Legacy
