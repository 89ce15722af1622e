import Bootloader.Legacy.Bios

/-!
# Reading sectors

There are two ways to read sectors: by their number, on drives whose BIOS has the extensions, and
by cylinder, head and sector on all others.  A `Reader` finds out which of them works and then
reads runs of sectors to memory below 1 MiB.  It splits a run so that no request asks for more than
`maxSectorsPerRead` sectors, crosses a boundary of 64 KiB in memory, or goes past the end of a
track.
-/

namespace Bootloader.Legacy

open Bios

/-- Some BIOSes refuse to read more sectors than this at once. -/
def maxSectorsPerRead : UInt32 := 127

/-- Where a sector is on the drive; sectors of a track are counted from one. -/
structure ChsAddress where
  cylinder : UInt16
  head : UInt8
  sector : UInt8
deriving DecidableEq, Repr

/-- The shape of a drive. -/
structure Geometry where
  cylinders : UInt16 := 0
  heads : UInt16 := 0
  sectorsPerTrack : UInt8 := 0
deriving DecidableEq, Repr

/-- Where the sector with a number is; parts that do not fit lose their high bits. -/
def Geometry.locate (g : Geometry) (lba : UInt32) : ChsAddress :=
  let track := lba / g.sectorsPerTrack.toUInt32
  { cylinder := (track / g.heads.toUInt32).toUInt16
    head := (track % g.heads.toUInt32).toUInt8
    sector := (lba % g.sectorsPerTrack.toUInt32 + 1).toUInt8 }

/-- Whether the drive's BIOS has the extensions: it says so by the carry flag, by exchanging the
bytes of BX, and by bit 0 of CX. -/
def probeExtensions (drive : UInt8) : Program Bios Bool := do
  let reply ← perform (.disk { ax := 0x4100, bx := 0x55AA, dx := drive.toUInt16 })
  return !reply.carry && reply.bx == 0xAA55 && reply.cx &&& 1 != 0

/-- Reads sectors by number. -/
def readExtended (drive : UInt8) (packet : AddressPacket) : Program Bios Bool := do
  let reply ← perform (.disk { ax := 0x4200, dx := drive.toUInt16, packet := some packet })
  return !reply.carry

/-- The registers for a read by cylinder, head and sector; the two high bits of the cylinder go
with the sector. -/
def chsRegisters (drive : UInt8) (place : ChsAddress) (count : UInt8) (segment offset : UInt16) :
    Registers where
  ax := word16 0x02 count
  cx := word16 place.cylinder.toUInt8
    (((place.cylinder >>> 2) &&& 0xC0).toUInt8 ||| (place.sector &&& 0x3F))
  dx := word16 place.head drive
  es := segment
  bx := offset

/-- Reads sectors by cylinder, head and sector. -/
def readChs (drive : UInt8) (place : ChsAddress) (count : UInt8) (segment offset : UInt16) :
    Program Bios Bool := do
  let reply ← perform (.disk (chsRegisters drive place count segment offset))
  return !reply.carry

/-- The shape that an answer to the question for it describes. -/
def DiskReply.geometry (reply : DiskReply) : Geometry where
  heads := (highByte reply.dx).toUInt16 + 1
  sectorsPerTrack := lowByte reply.cx &&& 0x3F
  cylinders :=
    ((((lowByte reply.cx &&& 0xC0).toUInt16 <<< 2) ||| (highByte reply.cx).toUInt16) + 1)

/-- Asks for the shape of a drive.  The answer is false if there is none, or one without sectors;
`known` is the shape known before. -/
def askGeometry (drive : UInt8) (known : Geometry) : Program Bios (Bool × Geometry) := do
  let reply ← perform (.disk { ax := 0x0800, dx := drive.toUInt16 })
  if reply.carry then
    return (false, known)
  else
    return (reply.geometry.sectorsPerTrack != 0, reply.geometry)

/-- What is known of a drive. -/
structure Reader where
  drive : UInt8
  extended : Bool := false
  geometry : Geometry := {}
deriving DecidableEq, Repr

/-- A run of sectors still to be read, and where to. -/
structure Transfer where
  lba : UInt32
  count : UInt32
  target : UInt32
deriving DecidableEq, Repr

namespace Transfer

/-- What is left after some sectors. -/
def advance (t : Transfer) (sectors : UInt32) : Transfer :=
  ⟨t.lba + sectors, t.count - sectors, t.target + sectors * 512⟩

/-- The sectors up to the next boundary of 64 KiB in memory. -/
def toBoundary (t : Transfer) : UInt32 := (0x10000 - (t.target &&& 0xFFFF)) / 512

/-- The sectors that may be asked for at once, as far as memory is concerned. -/
def chunk (t : Transfer) : UInt32 :=
  let wanted := if t.count < maxSectorsPerRead then t.count else maxSectorsPerRead
  if t.toBoundary ≠ 0 ∧ wanted > t.toBoundary then t.toBoundary else wanted

/-- The segment that the target is put into. -/
def segment (t : Transfer) : UInt16 := (t.target >>> 4).toUInt16

/-- The offset of the target in its segment. -/
def offset (t : Transfer) : UInt16 := (t.target &&& 0xF).toUInt16

end Transfer

namespace Reader

/-- Finds out how the drive may be read; false if it may not. -/
def init (r : Reader) : Program Bios (Bool × Reader) := do
  if ← probeExtensions r.drive then
    return (true, { r with extended := true })
  else
    let (ok, geometry) ← askGeometry r.drive r.geometry
    return (ok, { r with extended := false, geometry })

/-- The sectors asked for in one request of a read by cylinder, head and sector. -/
def trackChunk (r : Reader) (t : Transfer) : UInt32 :=
  let left := r.geometry.sectorsPerTrack.toUInt32 -
    ((r.geometry.locate t.lba).sector.toUInt32 - 1)
  if t.chunk > left then left else t.chunk

/-- Reads a run of sectors in at most `requests` requests. -/
def readWithin (r : Reader) : (requests : Nat) → Transfer → Program Bios Bool
  | 0, _ => return true
  | requests + 1, t =>
    if t.count = 0 then return true
    else if r.extended then do
      let packet := AddressPacket.make t.chunk.toUInt16 t.segment t.offset t.lba.toUInt64
      if ← readExtended r.drive packet then readWithin r requests (t.advance t.chunk)
      else return false
    else
      let place := r.geometry.locate t.lba
      if r.geometry.cylinders ≤ place.cylinder then return false
      else do
        let chunk := r.trackChunk t
        if ← readChs r.drive place chunk.toUInt8 t.segment t.offset then
          readWithin r requests (t.advance chunk)
        else return false

/-- Reads a run of sectors.  Every request reads one sector or more, so as many requests as there
are sectors are enough. -/
def read (r : Reader) (lba count target : UInt32) : Program Bios Bool :=
  r.readWithin count.toNat ⟨lba, count, target⟩

end Reader

end Bootloader.Legacy
