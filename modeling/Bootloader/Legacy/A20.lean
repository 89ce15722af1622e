import Bootloader.Legacy.Bios

/-!
# The A20 line

Address line 20 is off at first, so that memory wraps around at 1 MiB.  There are two ways to turn
it on, a system port and the keyboard controller, and each is tried once.  Whether one has worked
is judged by the wrap-around test.
-/

namespace Bootloader.Legacy

open Bios

namespace A20

/-- The port of the fast gate. -/
def fastPort : UInt16 := 0x92

/-- The bit of the fast gate, and of the output port of the keyboard controller, for the line. -/
def gate : UInt8 := 0x02

/-- The bit of the fast gate that would reset the machine. -/
def reset : UInt8 := 0x01

/-- The port for data of the keyboard controller. -/
def dataPort : UInt16 := 0x60

/-- The port for the status of the keyboard controller, and for commands to it. -/
def statusPort : UInt16 := 0x64

/-- There is a byte to be read. -/
def outputFull : UInt8 := 0x01

/-- The last byte written has not been taken yet. -/
def inputFull : UInt8 := 0x02

def disableKeyboard : UInt8 := 0xAD
def enableKeyboard : UInt8 := 0xAE
def readOutput : UInt8 := 0xD0
def writeOutput : UInt8 := 0xD1

/-- How often the status is looked at before the controller is given up. -/
def waitLoops : Nat := 100000

/-- How the line came to be on. -/
inductive Method where
  | alreadyEnabled
  | fastGate
  | keyboardController
  | failed
deriving DecidableEq, Repr

/-- Looks at the status, at most so often, until it has a property. -/
def pollStatus (ready : UInt8 → Bool) : (looks : Nat) → Program Bios Bool
  | 0 => .done false
  | looks + 1 => .ask (.readPort statusPort) fun status =>
    if ready status then .done true else pollStatus ready looks

/-- Waits until the controller takes a byte. -/
def waitInputEmpty : Program Bios Bool :=
  pollStatus (fun status => status &&& inputFull == 0) waitLoops

/-- Waits until the controller has a byte. -/
def waitOutputFull : Program Bios Bool :=
  pollStatus (fun status => status &&& outputFull != 0) waitLoops

/-- Tries the fast gate; the bit for the reset is never written. -/
def tryFastGate : Program Bios Bool := do
  let value ← perform (.readPort fastPort)
  if value &&& gate = 0 then
    perform (.writePort fastPort ((value ||| gate) &&& ~~~reset))
  perform .delay
  if (← perform (.readPort fastPort)) &&& gate = 0 then return false
  perform .wrapTest

/-- Sends the output port back with the line on; false if the controller does not take it. -/
def writeGate (output : UInt8) : Program Bios Bool := do
  if !(← waitInputEmpty) then return false
  perform (.writePort statusPort writeOutput)
  if !(← waitInputEmpty) then return false
  perform (.writePort dataPort (output ||| gate))
  return true

/-- Reads the output port and sends it back with the line on. -/
def switchGate : Program Bios Bool := do
  if !(← waitInputEmpty) then return false
  perform (.writePort statusPort readOutput)
  if !(← waitOutputFull) then return false
  let output ← perform (.readPort dataPort)
  writeGate output

/-- Turns the keyboard on again, if the controller lets it. -/
def restoreKeyboard : Program Bios Unit := do
  if ← waitInputEmpty then
    perform (.writePort statusPort enableKeyboard)
    let _ ← waitInputEmpty

/-- Tries the keyboard controller; the keyboard is off in the meantime. -/
def tryKeyboardController : Program Bios Bool := do
  if !(← waitInputEmpty) then return false
  perform (.writePort statusPort disableKeyboard)
  let sent ← switchGate
  restoreKeyboard
  if sent then perform .wrapTest else return false

/-- Turns the line on. -/
def enable : Program Bios Method := do
  if ← perform .wrapTest then return .alreadyEnabled
  if ← tryFastGate then return .fastGate
  if ← tryKeyboardController then return .keyboardController
  return .failed

end A20

end Bootloader.Legacy
