/-!
# Graphics modes and pixel formats

The mode a graphics device reports, and what the core is told about its pixels: their depth, and a
tag for their layout.
-/

namespace Bootloader.Uefi

/-- The bits of a pixel that belong to each colour. -/
structure PixelMasks where
  red : UInt32 := 0
  green : UInt32 := 0
  blue : UInt32 := 0
  reserved : UInt32 := 0
deriving DecidableEq, Repr

/-- All bits of a pixel that have a meaning. -/
def PixelMasks.all (masks : PixelMasks) : UInt32 :=
  masks.red ||| masks.green ||| masks.blue ||| masks.reserved

/-- What a mode says of its picture. -/
structure ModeInformation where
  width : UInt32
  height : UInt32
  format : UInt32
  masks : PixelMasks
  pixelsPerScanLine : UInt32
deriving DecidableEq, Repr

/-- The current mode of a graphics device. -/
structure GraphicsMode where
  information : Option ModeInformation
  base : UInt64
  size : UInt64
deriving DecidableEq, Repr

/-- The tags for the layout of a pixel. -/
inductive PixelLayout where
  | none
  | rgbx32
  | bgrx32
  | bitmask
deriving DecidableEq, Repr

/-- The number by which the core knows a layout. -/
def PixelLayout.tag : PixelLayout → UInt8
  | none => 0
  | rgbx32 => 1
  | bgrx32 => 2
  | bitmask => 3

/-- What the core is told about pixels. -/
structure PixelFormat where
  bitsPerPixel : UInt8
  layout : PixelLayout
deriving DecidableEq, Repr

/-- The number of bits up to and with the highest one that is set. -/
def bitLength (n : Nat) : Nat := if n = 0 then 0 else bitLength (n / 2) + 1

/-- Formats 0 and 1 have eight bits for each colour, format 2 is described by its masks, format 3
has no memory to draw in, and any other is taken for format 1; so are masks with no bit set. -/
def ModeInformation.pixelFormat (mode : ModeInformation) : PixelFormat :=
  match mode.format.toNat with
  | 0 => ⟨32, .rgbx32⟩
  | 1 => ⟨32, .bgrx32⟩
  | 2 =>
    let depth := bitLength mode.masks.all.toNat
    if depth = 0 then ⟨32, .bgrx32⟩ else ⟨UInt8.ofNat depth, .bitmask⟩
  | 3 => ⟨0, .none⟩
  | _ => ⟨32, .bgrx32⟩

/-- The bytes of a scan line, modulo 2^32. -/
def ModeInformation.pitch (mode : ModeInformation) : UInt32 :=
  mode.pixelsPerScanLine * ((mode.pixelFormat.bitsPerPixel.toUInt32 + 7) / 8)

end Bootloader.Uefi
