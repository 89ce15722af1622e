import Bootloader.Bytes
import Std.Data.HashMap

/-!
# Sparse memory

Memory in which only the bytes that were written differ from zero.
-/

namespace Bootloader.Scripted

/-- The bytes that were written, by address; any other is zero. -/
structure Memory where
  written : Std.HashMap UInt64 UInt8 := {}

namespace Memory

/-- The byte at an address. -/
def get (memory : Memory) (address : UInt64) : UInt8 := memory.written.getD address 0

/-- Writes a byte. -/
def set (memory : Memory) (address : UInt64) (value : UInt8) : Memory :=
  { memory with written := memory.written.insert address value }

/-- Writes some bytes from an address upwards. -/
def write (memory : Memory) (address : UInt64) : List UInt8 → Memory
  | [] => memory
  | byte :: rest => (memory.set address byte).write (address + 1) rest

/-- Some bytes from an address upwards. -/
def read (memory : Memory) (address : UInt64) : (count : Nat) → List UInt8
  | 0 => []
  | count + 1 => memory.get address :: memory.read (address + 1) count

/-- The 64-bit word at an address. -/
def word (memory : Memory) (address : UInt64) : UInt64 :=
  UInt64.ofNat (ofLittleEndian (memory.read address 8))

/-- The 32-bit word at an address. -/
def halfWord (memory : Memory) (address : UInt64) : UInt32 :=
  UInt32.ofNat (ofLittleEndian (memory.read address 4))

end Memory

end Bootloader.Scripted
