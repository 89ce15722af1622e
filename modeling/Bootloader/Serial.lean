import Bootloader.Bytes
import Bootloader.Program

/-!
# The serial port

Diagnostics go to the first serial port, one byte at a time, each as soon as the transmitter is
ready for it.  A transmitter that does not become ready within `waitLoops` looks at its status
loses the byte, so a machine without a serial port is not held up for ever.
-/

namespace Bootloader

/-- A read or a write of a port. -/
inductive PortAccess where
  | read (port : UInt16)
  | write (port : UInt16) (value : UInt8)
deriving DecidableEq, Repr

/-- A read gives a byte. -/
abbrev PortAccess.Reply : PortAccess → Type
  | read _ => UInt8
  | write .. => Unit

/-- The ports of the machine. -/
abbrev Ports : Interface := ⟨PortAccess, PortAccess.Reply⟩

namespace Serial

/-- The first port of the device. -/
def base : UInt16 := 0x3F8

/-- The line status, in which one bit says that the transmitter is ready. -/
def lineStatus : UInt16 := base + 5

/-- The bit of the line status that says that the transmitter is ready. -/
def ready : UInt8 := 0x20

/-- How often the line status is looked at for one byte. -/
def waitLoops : Nat := 100000

/-- What is written to which port before the first byte: no interrupts, 115200 baud, eight bits
without parity, queues on and empty. -/
def setup : List (UInt16 × UInt8) :=
  [(base + 1, 0x00), (base + 3, 0x80), (base, 0x01), (base + 1, 0x00), (base + 3, 0x03),
    (base + 2, 0xC7)]

/-- Writes to some ports in turn. -/
def writeAll : List (UInt16 × UInt8) → Program Ports Unit
  | [] => .done ()
  | (port, value) :: rest => .ask (.write port value) fun _ => writeAll rest

/-- Sends a byte, if the transmitter becomes ready for it within so many looks. -/
def send (byte : UInt8) : (looks : Nat) → Program Ports Unit
  | 0 => .done ()
  | looks + 1 => .ask (.read lineStatus) fun status =>
    if status &&& ready ≠ 0 then .ask (.write base byte) .done else send byte looks

/-- A line feed. -/
def lineFeed : UInt8 := 10

/-- A carriage return. -/
def carriageReturn : UInt8 := 13

/-- The bytes sent for a text: each line feed is preceded by a carriage return. -/
def wire : List UInt8 → List UInt8
  | [] => []
  | byte :: rest => (if byte = lineFeed then [carriageReturn, byte] else [byte]) ++ wire rest

/-- Sends some bytes in turn. -/
def sendAll : List UInt8 → Program Ports Unit
  | [] => .done ()
  | byte :: rest => do
    send byte waitLoops
    sendAll rest

/-- Writes some bytes, up to a zero byte, to the port, which is set up first unless that has been
done.  Whether it has been is known to the next call. -/
def writeBytes (isSetUp : Bool) (bytes : List UInt8) : Program Ports Bool := do
  if !isSetUp then writeAll setup
  sendAll (wire (bytes.takeWhile (· ≠ 0)))
  return true

/-- Writes a text. -/
def write (isSetUp : Bool) (text : String) : Program Ports Bool :=
  writeBytes isSetUp text.toUTF8.toList

end Serial

end Bootloader
