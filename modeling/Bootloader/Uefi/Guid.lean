/-!
# Identifiers of protocols and tables
-/

namespace Bootloader.Uefi

/-- A 128-bit identifier, in the parts it is written in; `data4` has its first byte highest. -/
structure Guid where
  data1 : UInt32
  data2 : UInt16
  data3 : UInt16
  data4 : UInt64
deriving DecidableEq, Repr

namespace Guid

/-- The simple file system protocol. -/
def simpleFileSystem : Guid := ⟨0x964e5b22, 0x6459, 0x11d2, 0x8e3900a0c969723b⟩

/-- The record that describes a file. -/
def fileInfo : Guid := ⟨0x09576e92, 0x6d3f, 0x11d2, 0x8e3900a0c969723b⟩

/-- The graphics output protocol. -/
def graphicsOutput : Guid := ⟨0x9042a9de, 0x23dc, 0x4a38, 0x96fb7aded080516a⟩

/-- The configuration table entry for ACPI 1.0. -/
def acpi : Guid := ⟨0xeb9d2d30, 0x2d88, 0x11d3, 0x9a160090273fc14d⟩

/-- The configuration table entry for ACPI 2.0 and later. -/
def acpi20 : Guid := ⟨0x8868e871, 0xe4f1, 0x11d3, 0xbc220080c73c8881⟩

end Guid

end Bootloader.Uefi
