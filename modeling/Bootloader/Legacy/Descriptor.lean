import Bootloader.Bytes
import Bootloader.Legacy.Layout

/-!
# Segment descriptors

The descriptors of the segments of protected mode.  A descriptor is laid out in two ways that have
to agree: as a 64-bit word (`Descriptor.word`) and as eight bytes of bit fields
(`Descriptor.bytes`).
-/

namespace Bootloader.Legacy

/-- The fields of a descriptor, as they are packed.  `kind`, `privilege` and `limitHigh` have four,
two and four bits. -/
structure Descriptor where
  limitLow : UInt16
  baseLow : UInt16
  baseMiddle : UInt8
  kind : UInt8
  isCodeOrData : Bool
  privilege : UInt8
  present : Bool
  limitHigh : UInt8
  available : Bool
  long : Bool
  wide : Bool
  pageGranular : Bool
  baseHigh : UInt8
deriving DecidableEq, Repr

namespace Descriptor

/-- The descriptor of a segment of the highest privilege.  With `pageGranular` the limit counts
pages of 4 KiB; `wide` is for 32-bit segments.  Bit 4 of the type says that this is a segment of
code or data. -/
def segment (base limit : UInt32) (pageGranular : Bool) (type : UInt16) (wide : Bool) :
    Descriptor where
  limitLow := (limit &&& 0xFFFF).toUInt16
  baseLow := (base &&& 0xFFFF).toUInt16
  baseMiddle := ((base &&& 0xFF0000) >>> 16).toUInt8
  kind := (type &&& 0x0F).toUInt8
  isCodeOrData := type &&& 0x10 != 0
  privilege := 0
  present := true
  limitHigh := ((limit &&& 0x0F0000) >>> 16).toUInt8
  available := false
  long := false
  wide := wide
  pageGranular := pageGranular
  baseHigh := ((base &&& 0xFF000000) >>> 24).toUInt8

/-- The descriptor as a word. -/
def word (d : Descriptor) : UInt64 :=
  d.limitLow.toUInt64 ||| (d.baseLow.toUInt64 <<< 16) ||| (d.baseMiddle.toUInt64 <<< 32) |||
    (d.kind.toUInt64 <<< 40) ||| (d.isCodeOrData.toUInt64 <<< 44) |||
    (d.privilege.toUInt64 <<< 45) ||| (d.present.toUInt64 <<< 47) |||
    (d.limitHigh.toUInt64 <<< 48) ||| (d.available.toUInt64 <<< 52) |||
    (d.long.toUInt64 <<< 53) ||| (d.wide.toUInt64 <<< 54) ||| (d.pageGranular.toUInt64 <<< 55) |||
    (d.baseHigh.toUInt64 <<< 56)

/-- The byte that says what the segment is and who may use it. -/
def accessByte (d : Descriptor) : UInt8 :=
  (d.kind &&& 0x0F) ||| (if d.isCodeOrData then 0x10 else 0) |||
    ((d.privilege &&& (0x03 : UInt8)) <<< (5 : UInt8)) ||| (if d.present then 0x80 else 0)

/-- The byte of the flags, with the high bits of the limit. -/
def flagByte (d : Descriptor) : UInt8 :=
  (d.limitHigh &&& 0x0F) ||| (if d.available then 0x10 else 0) ||| (if d.long then 0x20 else 0) |||
    (if d.wide then 0x40 else 0) ||| (if d.pageGranular then 0x80 else 0)

/-- The descriptor as it lies in memory. -/
def bytes (d : Descriptor) : List UInt8 :=
  bytes16 d.limitLow ++ bytes16 d.baseLow ++ [d.baseMiddle, d.accessByte, d.flagByte, d.baseHigh]

/-- The type of data that may be read and written. -/
def writableData : UInt16 := 16 + 2

/-- The type of code that may be read. -/
def readableCode : UInt16 := 16 + 10

/-- All of memory, as 32-bit code. -/
def flatCode : Descriptor := segment 0 0xFFFFF true readableCode true

/-- All of memory, as data. -/
def flatData : Descriptor := segment 0 0xFFFFF true writableData true

end Descriptor

/-- The descriptors for the switch to protected mode: none, code, data. -/
def flatTable : List UInt64 := [0, Descriptor.flatCode.word, Descriptor.flatData.word]

/-- The bytes of the table of descriptors. -/
def flatTableBytes : UInt16 := 24

/-- The operand that makes a table of descriptors known to the processor: the number of its last
byte, and where it lies. -/
structure TablePointer where
  limit : UInt16 := 0
  base : UInt32 := 0
deriving DecidableEq, Repr

namespace TablePointer

/-- The operand for a table of so many bytes at an offset in a real-mode segment, which begins at
sixteen times its number. -/
def make (segment offset bytes : UInt16) : TablePointer :=
  ⟨bytes - 1, (segment.toUInt32 <<< 4) + offset.toUInt32⟩

/-- The operand as it lies in memory. -/
def bytes (p : TablePointer) : List UInt8 := bytes16 p.limit ++ bytes32 p.base

end TablePointer

end Bootloader.Legacy
