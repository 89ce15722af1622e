import Bootloader.Bytes
import Bootloader.Program

/-!
# The BIOS as the loader sees it

`Bios.Call` lists what the first two stages do to their surroundings: the disk service, single
characters of text, ports, and the test whether memory wraps around at 1 MiB.
-/

namespace Bootloader.Legacy

/-- What an extended read is told: how many sectors, where to, and from where on. -/
structure AddressPacket where
  packetSize : UInt8
  reserved : UInt8
  count : UInt16
  offset : UInt16
  segment : UInt16
  lbaLow : UInt32
  lbaHigh : UInt32
deriving DecidableEq, Repr

namespace AddressPacket

/-- The packet for a read. -/
def make (count segment offset : UInt16) (lba : UInt64) : AddressPacket where
  packetSize := 16
  reserved := 0
  count := count
  offset := offset
  segment := segment
  lbaLow := lba.toUInt32
  lbaHigh := (lba >>> 32).toUInt32

/-- The packet as it lies in memory. -/
def bytes (p : AddressPacket) : List UInt8 :=
  [p.packetSize, p.reserved] ++ bytes16 p.count ++ bytes16 p.offset ++ bytes16 p.segment ++
    bytes32 p.lbaLow ++ bytes32 p.lbaHigh

end AddressPacket

/-- A word of two bytes. -/
def word16 (high low : UInt8) : UInt16 := (high.toUInt16 <<< 8) ||| low.toUInt16

/-- The high byte of a word. -/
def highByte (word : UInt16) : UInt8 := (word >>> 8).toUInt8

/-- The low byte of a word. -/
def lowByte (word : UInt16) : UInt8 := word.toUInt8

/-- The registers on entry to the disk service; `packet` is what SI points at, if it does. -/
structure Registers where
  ax : UInt16 := 0
  bx : UInt16 := 0
  cx : UInt16 := 0
  dx : UInt16 := 0
  si : UInt16 := 0
  di : UInt16 := 0
  es : UInt16 := 0
  packet : Option AddressPacket := none
deriving DecidableEq, Repr

/-- The registers on return from the disk service; the carry flag marks a failure. -/
structure DiskReply where
  ax : UInt16 := 0
  bx : UInt16 := 0
  cx : UInt16 := 0
  dx : UInt16 := 0
  carry : Bool
deriving DecidableEq, Repr

namespace Bios

/-- What the first two stages do to their surroundings. -/
inductive Call where
  | disk (registers : Registers)
  | teletype (character : Char)
  | readPort (port : UInt16)
  | writePort (port : UInt16) (value : UInt8)
  | delay
  | wrapTest
  | codeSegment
  | tableOffset
deriving DecidableEq, Repr

/-- What each of them gives back; the wrap-around test is true if all address lines are on. -/
abbrev Call.Reply : Call → Type
  | disk _ => DiskReply
  | teletype _ => Unit
  | readPort _ => UInt8
  | writePort .. => Unit
  | delay => Unit
  | wrapTest => Bool
  | codeSegment => UInt16
  | tableOffset => UInt16

end Bios

/-- The BIOS and the machine under it. -/
abbrev Bios : Interface := ⟨Bios.Call, Bios.Call.Reply⟩

namespace Bios

/-- One step. -/
def perform (q : Call) : Program Bios q.Reply := Program.request (I := Bios) q

/-- Writes some characters. -/
def printChars : List Char → Program Bios Unit
  | [] => .done ()
  | c :: rest => do
    perform (.teletype c)
    printChars rest

/-- Writes a text. -/
def print (text : String) : Program Bios Unit := printChars text.toList

end Bios

end Bootloader.Legacy
