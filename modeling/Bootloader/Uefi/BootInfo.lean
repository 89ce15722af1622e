import Bootloader.Bytes

/-!
# The record handed to the core

The record by which the loader tells the core what it found.  A group of fields that could not be
found out is zero.  In memory it is 152 bytes, little-endian, in the order of the fields.
-/

namespace Bootloader.Uefi

/-- What the core is told at its entry. -/
structure BootInfo where
  magic : UInt64 := 0
  version : UInt32 := 0
  headerSize : UInt32 := 0
  totalSize : UInt32 := 0
  reserved0 : UInt32 := 0
  coreAddress : UInt64 := 0
  coreSize : UInt64 := 0
  coreEntryOffset : UInt64 := 0
  mapAddress : UInt64 := 0
  mapSize : UInt64 := 0
  mapKey : UInt64 := 0
  descriptorSize : UInt64 := 0
  descriptorVersion : UInt32 := 0
  framebufferWidth : UInt32 := 0
  framebufferAddress : UInt64 := 0
  framebufferSize : UInt64 := 0
  framebufferHeight : UInt32 := 0
  framebufferPitch : UInt32 := 0
  framebufferBitsPerPixel : UInt8 := 0
  framebufferPixelFormat : UInt8 := 0
  reserved2 : UInt16 := 0
  reserved3 : UInt32 := 0
  acpiRoot : UInt64 := 0
  systemTable : UInt64 := 0
  reservedExt1 : UInt64 := 0
  reservedExt2 : UInt64 := 0
deriving DecidableEq, Repr

namespace BootInfo

/-- The letters LBLBINFO, the first one highest. -/
def protocolMagic : UInt64 := 0x4C424C42494E464F

/-- Version 1.0. -/
def protocolVersion : UInt32 := 0x00010000

/-- The bytes before the address of the core. -/
def protocolHeaderSize : UInt32 := 24

/-- The bytes of the whole record. -/
def protocolTotalSize : UInt32 := 152

/-- The distance of the core's entry point from its load address. -/
def protocolEntryOffset : UInt64 := 0

/-- The record as it lies in memory. -/
def toBytes (info : BootInfo) : List UInt8 :=
  bytes64 info.magic ++ bytes32 info.version ++ bytes32 info.headerSize ++
  bytes32 info.totalSize ++ bytes32 info.reserved0 ++
  bytes64 info.coreAddress ++ bytes64 info.coreSize ++ bytes64 info.coreEntryOffset ++
  bytes64 info.mapAddress ++ bytes64 info.mapSize ++ bytes64 info.mapKey ++
  bytes64 info.descriptorSize ++ bytes32 info.descriptorVersion ++
  bytes32 info.framebufferWidth ++ bytes64 info.framebufferAddress ++
  bytes64 info.framebufferSize ++ bytes32 info.framebufferHeight ++
  bytes32 info.framebufferPitch ++
  [info.framebufferBitsPerPixel, info.framebufferPixelFormat] ++
  bytes16 info.reserved2 ++ bytes32 info.reserved3 ++
  bytes64 info.acpiRoot ++ bytes64 info.systemTable ++
  bytes64 info.reservedExt1 ++ bytes64 info.reservedExt2

theorem length_toBytes (info : BootInfo) : info.toBytes.length = 152 := by
  unfold toBytes
  simp only [List.length_append, length_bytes64, length_bytes32, length_bytes16, List.length_cons,
    List.length_nil]

/-- The record before anything was found out: the constants of the protocol, the core and the
table of the firmware. -/
def forCore (coreAddress coreSize systemTable : UInt64) : BootInfo where
  magic := protocolMagic
  version := protocolVersion
  headerSize := protocolHeaderSize
  totalSize := protocolTotalSize
  coreAddress := coreAddress
  coreSize := coreSize
  coreEntryOffset := protocolEntryOffset
  systemTable := systemTable

/-- The address at which the core is entered. -/
def entry (info : BootInfo) : UInt64 := info.coreAddress + info.coreEntryOffset

end BootInfo

end Bootloader.Uefi
