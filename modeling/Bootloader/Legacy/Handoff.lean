import Bootloader.Buffer
import Bootloader.Bytes

/-!
# The record handed to the core

The record that the second stage leaves for the core: 40 bytes, little-endian, in the order of the
fields.  What the second stage does not find out is zero.
-/

namespace Bootloader.Legacy

/-- What the core is told at its entry. -/
structure HandoffRecord where
  magic : UInt32 := 0
  version : UInt32 := 0
  mapAddress : UInt32 := 0
  mapEntries : UInt32 := 0
  framebufferAddress : UInt32 := 0
  framebufferWidth : UInt32 := 0
  framebufferHeight : UInt32 := 0
  framebufferPitch : UInt32 := 0
  framebufferBitsPerPixel : UInt8 := 0
  bootDrive : UInt8 := 0
  reserved0 : UInt16 := 0
  reserved1 : UInt32 := 0
deriving DecidableEq, Repr

namespace HandoffRecord

/-- The letters LBLB, the first one highest. -/
def protocolMagic : UInt32 := 0x4C424C42

/-- The version of the record. -/
def protocolVersion : UInt32 := 1

/-- The bytes of the record. -/
def recordSize : Nat := 40

/-- All that the second stage knows: the drive it came from. -/
def forDrive (drive : UInt8) : HandoffRecord where
  magic := protocolMagic
  version := protocolVersion
  bootDrive := drive

/-- The record as it lies in memory. -/
def toBytes (r : HandoffRecord) : List UInt8 :=
  bytes32 r.magic ++ bytes32 r.version ++ bytes32 r.mapAddress ++ bytes32 r.mapEntries ++
    bytes32 r.framebufferAddress ++ bytes32 r.framebufferWidth ++ bytes32 r.framebufferHeight ++
    bytes32 r.framebufferPitch ++ [r.framebufferBitsPerPixel, r.bootDrive] ++
    bytes16 r.reserved0 ++ bytes32 r.reserved1

theorem length_toBytes (r : HandoffRecord) : r.toBytes.length = recordSize := by
  unfold toBytes
  simp only [List.length_append, length_bytes32, length_bytes16, List.length_cons,
    List.length_nil, recordSize]

/-- Leaves the record at an address. -/
def store (r : HandoffRecord) (memory : Buffer) (address : Nat) : Buffer :=
  memory.write address r.toBytes

end HandoffRecord

end Bootloader.Legacy
