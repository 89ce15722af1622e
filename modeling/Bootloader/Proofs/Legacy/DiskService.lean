import Bootloader.Legacy.Disk
import Mathlib.Algebra.Group.Nat.Defs
import Mathlib.Tactic.SplitIfs

/-!
# What the disk service is asked for

The disk service takes its requests in registers: AH is the service, DL the drive, and a read names
the sectors and the place in memory either in a packet or, by cylinder, head and sector, in the
registers themselves.  `Access.requested?` reads a request as the service does: it gives the run of
sectors that is asked for, with the address it goes to.

What the loader puts into the registers is read back from them (`requested?_extended`,
`requested?_chs`).
-/

namespace Bootloader.Legacy

/-- The linear address of an offset in a real-mode segment. -/
def linear (segment offset : UInt16) : Nat := segment.toNat * 16 + offset.toNat

/-- Some sectors one after the other, and the address that the first of them goes to. -/
structure SectorRun where
  first : Nat
  count : Nat
  address : Nat
deriving DecidableEq, Repr

/-- The shape of a drive, as far as a BIOS can say it. -/
structure Shape where
  cylinders : Nat
  heads : Nat
  sectorsPerTrack : Nat
  cylinders_pos : 0 < cylinders
  cylinders_le : cylinders ≤ 1024
  heads_pos : 0 < heads
  heads_le : heads ≤ 256
  sectorsPerTrack_pos : 0 < sectorsPerTrack
  sectorsPerTrack_le : sectorsPerTrack ≤ 63

namespace Shape

/-- The number of sectors. -/
def capacity (shape : Shape) : Nat := shape.cylinders * shape.heads * shape.sectorsPerTrack

/-- The sectors whose cylinder still fits into 16 bits. -/
def reach (shape : Shape) : Nat := 65536 * shape.heads * shape.sectorsPerTrack

/-- The number of a sector; sectors of a track are counted from one. -/
def number (shape : Shape) (cylinder head sector : Nat) : Nat :=
  (cylinder * shape.heads + head) * shape.sectorsPerTrack + (sector - 1)

/-- The shape as the loader keeps it. -/
def geometry (shape : Shape) : Geometry where
  cylinders := UInt16.ofNat shape.cylinders
  heads := UInt16.ofNat shape.heads
  sectorsPerTrack := UInt8.ofNat shape.sectorsPerTrack

end Shape

namespace AddressPacket

/-- What a packet asks for. -/
def requested (p : AddressPacket) : SectorRun :=
  ⟨p.lbaLow.toNat + 2 ^ 32 * p.lbaHigh.toNat, p.count.toNat, linear p.segment p.offset⟩

end AddressPacket

namespace Registers

variable (r : Registers)

/-- The service that is called. -/
def service : UInt8 := highByte r.ax

/-- The drive that is meant. -/
def drive : UInt8 := lowByte r.dx

/-- The number of sectors of a read by cylinder, head and sector. -/
def sectors : Nat := (lowByte r.ax).toNat

/-- The cylinder of such a read; its two high bits lie with the sector. -/
def cylinder : Nat := (highByte r.cx).toNat + 256 * ((lowByte r.cx).toNat / 64)

/-- The head of such a read. -/
def head : Nat := (highByte r.dx).toNat

/-- The sector of such a read, in its track. -/
def sector : Nat := (lowByte r.cx).toNat % 64

end Registers

/-- The ways to reach the sectors of a drive. -/
inductive Access where
  | extended
  | chs (shape : Shape)

/-- The sectors that a read by cylinder, head and sector asks for, if they are on the drive and in
one track. -/
def Shape.requested? (shape : Shape) (r : Registers) : Option SectorRun :=
  if r.service = 0x02 ∧ r.cylinder < shape.cylinders ∧ r.head < shape.heads ∧ 1 ≤ r.sector ∧
      r.sector - 1 + r.sectors ≤ shape.sectorsPerTrack then
    some ⟨shape.number r.cylinder r.head r.sector, r.sectors, linear r.es r.bx⟩
  else
    none

/-- The sectors that a request asks for, if it is a read by the way there is. -/
def Access.requested? : Access → Registers → Option SectorRun
  | extended, r => if r.service = 0x42 then r.packet.map (·.requested) else none
  | chs shape, r => shape.requested? r

/-- The answer to the question for the extensions, if there are any. -/
def DiskReply.OffersExtensions (reply : DiskReply) : Prop :=
  reply.carry = false ∧ reply.bx = 0xAA55 ∧ reply.cx &&& 1 ≠ 0

/-- The answer to the question for the shape: the numbers of the last cylinder and the last head,
and the number of sectors, with the two high bits of the cylinder beside it. -/
structure DiskReply.Describes (reply : DiskReply) (shape : Shape) : Prop where
  carry : reply.carry = false
  cylinderLow : (highByte reply.cx).toNat = (shape.cylinders - 1) % 256
  cylinderHigh : (lowByte reply.cx).toNat / 64 = (shape.cylinders - 1) / 256
  sectors : (lowByte reply.cx).toNat % 64 = shape.sectorsPerTrack
  head : (highByte reply.dx).toNat = shape.heads - 1

@[simp] theorem toNat_word16 (high low : UInt8) :
    (word16 high low).toNat = 256 * high.toNat + low.toNat := by
  have hl := low.toNat_lt
  have hh := high.toNat_lt
  have ho : 2 ^ 8 * high.toNat ||| low.toNat = 256 * high.toNat + low.toNat :=
    (Nat.two_pow_add_eq_or_of_lt hl high.toNat).symm
  simp only [word16, UInt16.toNat_or, UInt16.toNat_shiftLeft, UInt8.toNat_toUInt16]
  rw [show (8 : UInt16).toNat % 16 = 8 from rfl, Nat.shiftLeft_eq, Nat.mod_eq_of_lt (by omega),
    Nat.mul_comm, ho]

theorem toNat_highByte (word : UInt16) : (highByte word).toNat = word.toNat / 256 := by
  have := word.toNat_lt
  simp only [highByte, UInt16.toNat_toUInt8, UInt16.toNat_shiftRight]
  rw [show (8 : UInt16).toNat % 16 = 8 from rfl, Nat.shiftRight_eq_div_pow]
  omega

theorem toNat_lowByte (word : UInt16) : (lowByte word).toNat = word.toNat % 256 := by
  simp only [lowByte, UInt16.toNat_toUInt8]

@[simp] theorem highByte_word16 (high low : UInt8) : highByte (word16 high low) = high := by
  have := low.toNat_lt
  rw [← UInt8.toNat_inj, toNat_highByte, toNat_word16]
  omega

@[simp] theorem lowByte_word16 (high low : UInt8) : lowByte (word16 high low) = low := by
  have := low.toNat_lt
  rw [← UInt8.toNat_inj, toNat_lowByte, toNat_word16]
  omega

@[simp] theorem lowByte_toUInt16 (byte : UInt8) : lowByte byte.toUInt16 = byte := by
  have := byte.toNat_lt
  rw [← UInt8.toNat_inj, toNat_lowByte, UInt8.toNat_toUInt16]
  omega

/-- A packet asks for what it was made of. -/
theorem requested_make (count segment offset : UInt16) (lba : UInt64) :
    (AddressPacket.make count segment offset lba).requested =
      ⟨lba.toNat, count.toNat, linear segment offset⟩ := by
  have := lba.toNat_lt
  simp only [AddressPacket.requested, AddressPacket.make, UInt64.toNat_toUInt32,
    UInt64.toNat_shiftRight, SectorRun.mk.injEq, and_true]
  rw [show (32 : UInt64).toNat % 64 = 32 from rfl, Nat.shiftRight_eq_div_pow]
  omega

theorem and_highBits : ∀ byte < 256, byte &&& 0xC0 = 64 * (byte / 64) := by decide +kernel

/-- The two high bits of a cylinder, where they lie with the sector. -/
theorem highCylinder_eq {cylinder : UInt16} (h : cylinder.toNat < 1024) :
    ((cylinder >>> 2) &&& 0xC0).toUInt8.toNat = 64 * (cylinder.toNat / 256) := by
  simp only [UInt16.toNat_toUInt8, UInt16.toNat_and, UInt16.toNat_shiftRight]
  rw [show (2 : UInt16).toNat % 16 = 2 from rfl, show (0xC0 : UInt16).toNat = 0xC0 from rfl,
    Nat.shiftRight_eq_div_pow, and_highBits _ (by omega)]
  omega

section ChsRegisters

variable {drive : UInt8} {place : ChsAddress} {count : UInt8} {segment offset : UInt16}

@[simp] theorem service_chsRegisters :
    (chsRegisters drive place count segment offset).service = 0x02 := by
  simp [chsRegisters, Registers.service]

@[simp] theorem drive_chsRegisters :
    (chsRegisters drive place count segment offset).drive = drive := by
  simp [chsRegisters, Registers.drive]

@[simp] theorem sectors_chsRegisters :
    (chsRegisters drive place count segment offset).sectors = count.toNat := by
  simp [chsRegisters, Registers.sectors]

@[simp] theorem head_chsRegisters :
    (chsRegisters drive place count segment offset).head = place.head.toNat := by
  simp [chsRegisters, Registers.head]

/-- The low byte of CX holds the sector and the two high bits of the cylinder. -/
theorem toNat_lowByte_cx (hc : place.cylinder.toNat < 1024) (hs : place.sector.toNat < 64) :
    (lowByte (chsRegisters drive place count segment offset).cx).toNat =
      64 * (place.cylinder.toNat / 256) + place.sector.toNat := by
  have ho := Nat.two_pow_add_eq_or_of_lt (i := 6) hs (place.cylinder.toNat / 256)
  simp only [chsRegisters, lowByte_word16, UInt8.toNat_or, highCylinder_eq hc, UInt8.toNat_and]
  rw [show (0x3F : UInt8).toNat = 2 ^ 6 - 1 from rfl, Nat.and_two_pow_sub_one_eq_mod,
    Nat.mod_eq_of_lt hs]
  exact ho.symm

theorem cylinder_chsRegisters (hc : place.cylinder.toNat < 1024) (hs : place.sector.toNat < 64) :
    (chsRegisters drive place count segment offset).cylinder = place.cylinder.toNat := by
  simp only [Registers.cylinder, toNat_lowByte_cx hc hs]
  simp only [chsRegisters, highByte_word16, UInt16.toNat_toUInt8]
  omega

theorem sector_chsRegisters (hc : place.cylinder.toNat < 1024) (hs : place.sector.toNat < 64) :
    (chsRegisters drive place count segment offset).sector = place.sector.toNat := by
  simp only [Registers.sector, toNat_lowByte_cx hc hs]
  omega

end ChsRegisters

namespace Shape

variable (shape : Shape)

theorem toNat_cylinders : shape.geometry.cylinders.toNat = shape.cylinders := by
  have := shape.cylinders_le
  simp only [geometry, UInt16.toNat_ofNat']
  omega

theorem toNat_heads : shape.geometry.heads.toNat = shape.heads := by
  have := shape.heads_le
  simp only [geometry, UInt16.toNat_ofNat']
  omega

theorem toNat_sectorsPerTrack :
    shape.geometry.sectorsPerTrack.toNat = shape.sectorsPerTrack := by
  have := shape.sectorsPerTrack_le
  simp only [geometry, UInt8.toNat_ofNat']
  omega

theorem capacity_lt_reach : shape.capacity < shape.reach := by
  have hc := shape.cylinders_le
  exact Nat.mul_lt_mul_of_pos_right
    (Nat.mul_lt_mul_of_pos_right (by omega) shape.heads_pos) shape.sectorsPerTrack_pos

theorem dvd_reach : shape.sectorsPerTrack ∣ shape.reach := Nat.dvd_mul_left ..

theorem lt_capacity_iff {lba : Nat} :
    lba / shape.sectorsPerTrack / shape.heads < shape.cylinders ↔ lba < shape.capacity := by
  rw [Nat.div_lt_iff_lt_mul shape.heads_pos, Nat.div_lt_iff_lt_mul shape.sectorsPerTrack_pos]
  rfl

/-- Where a sector is taken to be: the cylinder loses its high bits, so the places are those of the
first `reach` sectors over and over. -/
theorem toNat_locate (lba : UInt32) :
    (shape.geometry.locate lba).cylinder.toNat =
        lba.toNat % shape.reach / shape.sectorsPerTrack / shape.heads ∧
      (shape.geometry.locate lba).head.toNat =
        lba.toNat % shape.reach / shape.sectorsPerTrack % shape.heads ∧
      (shape.geometry.locate lba).sector.toNat =
        lba.toNat % shape.reach % shape.sectorsPerTrack + 1 := by
  have hh := shape.heads_le
  have hs := shape.sectorsPerTrack_le
  have hreach : shape.reach = shape.sectorsPerTrack * (shape.heads * 65536) := by
    rw [reach, Nat.mul_comm, Nat.mul_comm shape.heads]
  have hhead := Nat.mod_lt (lba.toNat / shape.sectorsPerTrack) shape.heads_pos
  have hsector := Nat.mod_lt lba.toNat shape.sectorsPerTrack_pos
  rw [hreach, Nat.mod_mul_right_div_self, Nat.mod_mul_right_div_self, Nat.mod_mul_right_mod,
    Nat.mod_mul_right_mod]
  refine ⟨?_, ?_, ?_⟩
  · simp only [Geometry.locate, UInt32.toNat_toUInt16, UInt32.toNat_div, UInt8.toNat_toUInt32,
      UInt16.toNat_toUInt32, toNat_sectorsPerTrack, toNat_heads]
  · simp only [Geometry.locate, UInt32.toNat_toUInt8, UInt32.toNat_div, UInt32.toNat_mod,
      UInt8.toNat_toUInt32, UInt16.toNat_toUInt32, toNat_sectorsPerTrack, toNat_heads]
    omega
  · simp only [Geometry.locate, UInt32.toNat_toUInt8, UInt32.toNat_add, UInt32.toNat_mod,
      UInt8.toNat_toUInt32, toNat_sectorsPerTrack, UInt32.toNat_one]
    omega

/-- The place of a sector gives its number back. -/
theorem number_locate (lba : Nat) :
    shape.number (lba / shape.sectorsPerTrack / shape.heads)
      (lba / shape.sectorsPerTrack % shape.heads) (lba % shape.sectorsPerTrack + 1) = lba := by
  unfold number
  rw [Nat.div_add_mod', Nat.add_sub_cancel, Nat.div_add_mod']

end Shape

/-- A read by number asks for what its packet was made of. -/
theorem requested?_extended {drive : UInt8} {count segment offset : UInt16} {lba : UInt64} :
    Access.extended.requested?
        { ax := 0x4200, dx := drive.toUInt16
          packet := some (.make count segment offset lba) } =
      some ⟨lba.toNat, count.toNat, linear segment offset⟩ := by
  have hs : highByte 0x4200 = 0x42 := by decide
  simp only [Access.requested?, Registers.service, hs, if_true, Option.map_some, requested_make]

section ChsRead

variable {shape : Shape} {drive count : UInt8} {segment offset : UInt16}

/-- A read within a track of the drive asks for the sectors from its place on. -/
theorem requested?_chsRegisters {place : ChsAddress}
    (hc : place.cylinder.toNat < shape.cylinders) (hh : place.head.toNat < shape.heads)
    (hs : 1 ≤ place.sector.toNat) (h0 : 0 < count.toNat)
    (hn : place.sector.toNat - 1 + count.toNat ≤ shape.sectorsPerTrack) :
    (Access.chs shape).requested? (chsRegisters drive place count segment offset) =
      some ⟨shape.number place.cylinder.toNat place.head.toNat place.sector.toNat, count.toNat,
        linear segment offset⟩ := by
  have hc' : place.cylinder.toNat < 1024 := Nat.lt_of_lt_of_le hc shape.cylinders_le
  have hs' : place.sector.toNat < 64 := by
    have := shape.sectorsPerTrack_le
    omega
  simp only [Access.requested?, Shape.requested?, service_chsRegisters, head_chsRegisters,
    sectors_chsRegisters, cylinder_chsRegisters hc' hs', sector_chsRegisters hc' hs']
  rw [if_pos ⟨trivial, hc, hh, hs, hn⟩]
  rfl

/-- A read at the place where a sector is taken to be, if it is one of the drive and the read stays
in its track. -/
theorem requested?_chs {lba : UInt32} (h : lba.toNat % shape.reach < shape.capacity)
    (h0 : 0 < count.toNat)
    (hn : lba.toNat % shape.sectorsPerTrack + count.toNat ≤ shape.sectorsPerTrack) :
    (Access.chs shape).requested?
        (chsRegisters drive (shape.geometry.locate lba) count segment offset) =
      some ⟨lba.toNat % shape.reach, count.toNat, linear segment offset⟩ := by
  obtain ⟨hcyl, hhead, hsector⟩ := shape.toNat_locate lba
  have hlt := shape.lt_capacity_iff.2 h
  have hhead_lt := Nat.mod_lt (lba.toNat % shape.reach / shape.sectorsPerTrack) shape.heads_pos
  have hmod := Nat.mod_mod_of_dvd lba.toNat shape.dvd_reach
  rw [requested?_chsRegisters (by omega) (by omega) (by omega) h0 (by omega), hcyl, hhead,
    hsector, shape.number_locate]

end ChsRead

theorem Geometry.eq_of_toNat {g h : Geometry} (hc : g.cylinders.toNat = h.cylinders.toNat)
    (hh : g.heads.toNat = h.heads.toNat)
    (hs : g.sectorsPerTrack.toNat = h.sectorsPerTrack.toNat) : g = h := by
  obtain ⟨c, n, s⟩ := g
  obtain ⟨c', n', s'⟩ := h
  simp only [Geometry.mk.injEq, ← UInt16.toNat_inj, ← UInt8.toNat_inj]
  exact ⟨hc, hh, hs⟩

/-- The cylinders that an answer describes: its number of the last one, and one more. -/
theorem DiskReply.toNat_cylinders_geometry (reply : DiskReply) :
    reply.geometry.cylinders.toNat =
      256 * ((lowByte reply.cx).toNat / 64) + (highByte reply.cx).toNat + 1 := by
  have hlow := (lowByte reply.cx).toNat_lt
  have hhigh := (highByte reply.cx).toNat_lt
  have ho := Nat.two_pow_add_eq_or_of_lt (i := 8) hhigh ((lowByte reply.cx).toNat / 64)
  simp only [DiskReply.geometry, UInt16.toNat_add, UInt16.toNat_or, UInt16.toNat_shiftLeft,
    UInt8.toNat_toUInt16, UInt8.toNat_and, UInt16.toNat_one]
  rw [show (0xC0 : UInt8).toNat = 0xC0 from rfl, and_highBits _ hlow,
    show (2 : UInt16).toNat % 16 = 2 from rfl, Nat.shiftLeft_eq,
    show 64 * ((lowByte reply.cx).toNat / 64) * 2 ^ 2 % 2 ^ 16 =
      2 ^ 8 * ((lowByte reply.cx).toNat / 64) by omega, ← ho]
  omega

/-- The loader takes the shape from the answer as it is. -/
theorem DiskReply.Describes.geometry_eq {reply : DiskReply} {shape : Shape}
    (h : reply.Describes shape) : reply.geometry = shape.geometry := by
  obtain ⟨-, hlow, hhigh, hsectors, hhead⟩ := h
  have hc := shape.cylinders_pos
  have hh := shape.heads_pos
  have hheads : reply.geometry.heads.toNat = shape.heads := by
    have := shape.heads_le
    simp only [DiskReply.geometry, UInt16.toNat_add, UInt8.toNat_toUInt16, hhead,
      UInt16.toNat_one]
    omega
  have hsectors' : reply.geometry.sectorsPerTrack.toNat = shape.sectorsPerTrack := by
    rw [← hsectors, DiskReply.geometry, UInt8.toNat_and,
      show (0x3F : UInt8).toNat = 2 ^ 6 - 1 from rfl, Nat.and_two_pow_sub_one_eq_mod]
  have hcylinders : reply.geometry.cylinders.toNat = shape.cylinders := by
    rw [reply.toNat_cylinders_geometry, hlow, hhigh]
    omega
  refine Geometry.eq_of_toNat ?_ ?_ ?_
  · rw [hcylinders, shape.toNat_cylinders]
  · rw [hheads, shape.toNat_heads]
  · rw [hsectors', shape.toNat_sectorsPerTrack]

end Bootloader.Legacy
