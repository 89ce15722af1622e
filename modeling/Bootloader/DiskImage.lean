import Bootloader.Buffer
import Bootloader.Legacy.Layout

/-!
# Disk images

A disk image holds the boot sector, the second stage and the core, each at the sector that the
layout gives it, and zeros elsewhere.  `DiskImage.assemble` makes one, or says what stands against
it: an `ImageError`.
-/

namespace Bootloader

/-- Where the parts lie on the disk, in sectors, and how many sectors each may have. -/
structure DiskLayout where
  stage2Start : UInt32
  stage2Sectors : UInt32
  coreStart : UInt32
  coreSectors : UInt32
deriving DecidableEq, Repr

/-- The layout that the stages of a build expect. -/
def DiskLayout.ofBuild (config : Legacy.BuildConfig) : DiskLayout :=
  ⟨Legacy.stage2Start, config.stage2Sectors, config.coreStart, config.coreSectors⟩

/-- The usual layout. -/
def DiskLayout.default : DiskLayout := ofBuild .default

/-- What stands against an image. -/
inductive ImageError where
  | regionsOverlap
  | bootSectorSize (bytes : Nat)
  | noSignature
  | empty (part : String)
  | tooLarge (part : String) (needed : Nat) (available : UInt32)
deriving DecidableEq, Repr

/-- What the user is told. -/
def ImageError.message : ImageError → String
  | regionsOverlap => "invalid disk layout: regions overlap"
  | bootSectorSize bytes => s!"boot sector is {bytes} bytes, must be exactly 512"
  | noSignature => "boot sector has no 0xAA55 signature"
  | empty part => s!"{part} is empty"
  | tooLarge part needed available =>
    s!"{part} needs {needed} sectors, only {available} available"

namespace DiskImage

/-- The bytes of a sector. -/
def sectorBytes : Nat := 512

/-- The sectors that so many bytes take up. -/
def sectorsFor (bytes : Nat) : Nat := (bytes + sectorBytes - 1) / sectorBytes

/-- A boot sector is one sector and ends with its signature. -/
def checkBootSector (image : List UInt8) : Except ImageError Unit :=
  if image.length ≠ sectorBytes then .error (.bootSectorSize image.length)
  else if image.drop 510 ≠ [0x55, 0xAA] then .error .noSignature
  else .ok ()

/-- A part is not empty and fits into the sectors there are for it. -/
def checkFits (image : List UInt8) (available : UInt32) (part : String) : Except ImageError Unit :=
  if image.isEmpty then .error (.empty part)
  else if available.toNat < sectorsFor image.length then
    .error (.tooLarge part (sectorsFor image.length) available)
  else .ok ()

/-- The boot sector comes first, then the second stage, then the core; sums wrap at 2^32. -/
def checkLayout (layout : DiskLayout) : Except ImageError Unit :=
  if layout.stage2Start = 0 ∨ layout.coreStart < layout.stage2Start + layout.stage2Sectors then
    .error .regionsOverlap
  else .ok ()

/-- The bytes of the image: it ends with the last sector that the core may have. -/
def imageSize (layout : DiskLayout) : Nat :=
  (layout.coreStart + layout.coreSectors).toNat * sectorBytes

/-- Puts a part at a sector. -/
def place (disk : Buffer) (part : List UInt8) (start : UInt32) : Buffer :=
  disk.write (start.toNat * sectorBytes) part

/-- Makes an image. -/
def assemble (bootSector stage2 core : List UInt8) (layout : DiskLayout) :
    Except ImageError Buffer := do
  checkLayout layout
  checkBootSector bootSector
  checkFits stage2 layout.stage2Sectors "stage 2"
  checkFits core layout.coreSectors "core"
  let disk := place (Buffer.zeros (imageSize layout)) bootSector 0
  let disk := place disk stage2 layout.stage2Start
  return place disk core layout.coreStart

end DiskImage

end Bootloader
