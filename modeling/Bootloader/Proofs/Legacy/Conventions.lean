import Bootloader.Proofs.Legacy.DriveEnd

/-!
# The conventions of a drive without the extensions

Loader and BIOS tell each other the shape of a drive and the places on it in registers, where the
number of a cylinder is split over two bytes, and all is counted from zero but the sectors of a
track.  The loader takes a shape as the BIOS means it (`exists_is_of_askGeometry`), and the BIOS
takes a request of the loader's as the loader means it (`reads_chsRegisters`): the place that it
finds there has the number of the sector that the loader is after.
-/

namespace Bootloader.Legacy

open Bios Program

/-- The BIOS tells this shape whenever it is asked for one. -/
def Describing (shape : Shape) : Exchange Bios → Prop
  | ⟨.disk q, reply⟩ => q.service = 0x08 → reply.Describes shape
  | _ => True

/-- The loader knows this shape. -/
structure Geometry.Is (g : Geometry) (shape : Shape) : Prop where
  cylinders : g.cylinders.toNat = shape.cylinders
  heads : g.heads.toNat = shape.heads
  sectorsPerTrack : g.sectorsPerTrack.toNat = shape.sectorsPerTrack

/-- To the BIOS the request is to read some sectors of a drive, from the one with a number on, to a
place in memory. -/
structure Registers.Reads (q : Registers) (shape : Shape) (drive : UInt8) (lba count : Nat)
    (segment offset : UInt16) : Prop where
  service_eq : q.service = 0x02
  drive_eq : q.drive = drive
  sectors_eq : q.sectors = count
  segment_eq : q.es = segment
  offset_eq : q.bx = offset
  cylinder_lt : q.cylinder < shape.cylinders
  head_lt : q.head < shape.heads
  sector_pos : 1 ≤ q.sector
  sector_le : q.sector ≤ shape.sectorsPerTrack
  number_eq : (q.cylinder * shape.heads + q.head) * shape.sectorsPerTrack + q.sector - 1 = lba

variable {shape : Shape} {drive : UInt8}

theorem Shape.is_geometry (shape : Shape) : shape.geometry.Is shape :=
  ⟨shape.toNat_cylinders, shape.toNat_heads, shape.toNat_sectorsPerTrack⟩

theorem Geometry.Is.eq_geometry {g : Geometry} (h : g.Is shape) : g = shape.geometry := by
  have h' := shape.is_geometry
  exact Geometry.eq_of_toNat (h.cylinders.trans h'.cylinders.symm) (h.heads.trans h'.heads.symm)
    (h.sectorsPerTrack.trans h'.sectorsPerTrack.symm)

theorem exists_is_of_askGeometry {known : Geometry} {es : List (Exchange Bios)}
    {o : Option (Bool × Geometry)} (hr : Runs (askGeometry drive known) es o)
    (hd : ∀ e ∈ es, Describing shape e) : ∃ g, o = some (true, g) ∧ g.Is shape := by
  obtain ⟨reply, es', rfl, hrest⟩ := runs_request.1 hr
  have hdescribes : reply.Describes shape :=
    hd _ List.mem_cons_self (by decide : highByte 0x0800 = 0x08)
  have hpos := shape.sectorsPerTrack_pos
  have hsectors : shape.geometry.sectorsPerTrack ≠ 0 := by
    rw [ne_eq, ← UInt8.toNat_inj, shape.toNat_sectorsPerTrack, UInt8.toNat_zero]
    omega
  rw [hdescribes.carry, if_neg (by simp), hdescribes.geometry_eq, bne_iff_ne.2 hsectors] at hrest
  obtain ⟨-, rfl⟩ := runs_done_iff.1 hrest
  exact ⟨_, rfl, shape.is_geometry⟩

/-- A request for a sector is taken for one on the drive, if there is one there with its number or,
past those that a cylinder can be told of, with what its number comes to. -/
theorem reads_chsRegisters {lba : UInt32} (h : lba.toNat % shape.reach < shape.capacity)
    (count : UInt8) (segment offset : UInt16) :
    (chsRegisters drive (shape.geometry.locate lba) count segment offset).Reads shape drive
      (lba.toNat % shape.reach) count.toNat segment offset := by
  obtain ⟨hcylinder, hhead, hsector⟩ := shape.toNat_locate lba
  generalize lba.toNat % shape.reach = number at h hcylinder hhead hsector ⊢
  have hcylinder_lt := shape.lt_capacity_iff.2 h
  have hhead_lt := Nat.mod_lt (number / shape.sectorsPerTrack) shape.heads_pos
  have hsector_lt := Nat.mod_lt number shape.sectorsPerTrack_pos
  have hcylinders := shape.cylinders_le
  have hsectors := shape.sectorsPerTrack_le
  have hnumber := shape.number_locate number
  rw [← hcylinder] at hcylinder_lt
  have hc : (shape.geometry.locate lba).cylinder.toNat < 1024 := by omega
  have hs : (shape.geometry.locate lba).sector.toNat < 64 := by omega
  rw [← hhead] at hhead_lt
  rw [← hcylinder, ← hhead, ← hsector, Shape.number] at hnumber
  refine ⟨service_chsRegisters, drive_chsRegisters, sectors_chsRegisters, rfl, rfl, ?_, ?_, ?_, ?_,
    ?_⟩
  · rwa [cylinder_chsRegisters hc hs]
  · rwa [head_chsRegisters]
  · rw [sector_chsRegisters hc hs]
    omega
  · rw [sector_chsRegisters hc hs]
    omega
  · rw [cylinder_chsRegisters hc hs, head_chsRegisters, sector_chsRegisters hc hs]
    omega

/-- Loader and BIOS understand each other about every drive without the extensions. -/
theorem conventions_kept (shape : Shape) (drive : UInt8) :
    (∀ known es o, Runs (askGeometry drive known) es o → (∀ e ∈ es, Describing shape e) →
      ∃ g, o = some (true, g) ∧ g.Is shape) ∧
      ∀ (g : Geometry) (lba : UInt32) (count : UInt8) (segment offset : UInt16), g.Is shape →
        lba.toNat < shape.capacity →
          ∀ es o, Runs (readChs drive (g.locate lba) count segment offset) es o →
            ∃ (q : Registers) (reply : DiskReply),
              es = [⟨.disk q, reply⟩] ∧ o = some (!reply.carry) ∧
                q.Reads shape drive lba.toNat count.toNat segment offset := by
  refine ⟨fun known es o => exists_is_of_askGeometry, ?_⟩
  rintro g lba count segment offset hg h es o hr
  rw [hg.eq_geometry] at hr
  obtain ⟨reply, es', rfl, hrest⟩ := runs_request.1 hr
  obtain ⟨rfl, rfl⟩ := runs_done_iff.1 hrest
  have hmod : lba.toNat % shape.reach = lba.toNat :=
    Nat.mod_eq_of_lt (Nat.lt_trans h shape.capacity_lt_reach)
  refine ⟨_, reply, rfl, rfl, ?_⟩
  rw [← hmod] at h ⊢
  exact reads_chsRegisters h count segment offset

/-- The largest shape that can be told. -/
def largestShape : Shape :=
  { Reader.hardDisk with
    heads := 256
    heads_pos := by decide
    heads_le := by decide }

/-- How the BIOS tells it, with the registers full. -/
def largestReply : DiskReply := { cx := 0xFFFF, dx := 0xFF01, carry := false }

theorem describes_largestReply : largestReply.Describes largestShape :=
  ⟨rfl, by decide, by decide, by decide, by decide⟩

/-- The last sector of the largest drive is asked for with the registers full as well. -/
theorem conventions_largestShape : ∃ (g : Geometry) (q : Registers),
    Runs (askGeometry 0x80 {}) [⟨.disk { ax := 0x0800, dx := 0x80 }, largestReply⟩]
        (some (true, g)) ∧ g.Is largestShape ∧
      Runs (readChs 0x80 (g.locate 16515071) 1 0x1000 0) [⟨.disk q, { carry := false }⟩]
          (some true) ∧ q.cx = 0xFFFF ∧ q.dx = 0xFF80 ∧
        q.Reads largestShape 0x80 16515071 1 0x1000 0 := by
  obtain ⟨hask, hread⟩ := conventions_kept largestShape 0x80
  have hr : Runs (askGeometry 0x80 {}) [⟨.disk { ax := 0x0800, dx := 0x80 }, largestReply⟩]
      (some (true, largestShape.geometry)) := .ask (.done _)
  obtain ⟨g, hg, his⟩ := hask {} _ _ hr (by
    intro e he
    rw [List.mem_singleton.1 he]
    exact fun _ => describes_largestReply)
  cases hg
  have hr' : Runs (readChs 0x80 (largestShape.geometry.locate 16515071) 1 0x1000 0)
      [⟨.disk (chsRegisters 0x80 (largestShape.geometry.locate 16515071) 1 0x1000 0),
        { carry := false }⟩] (some true) := .ask (.done _)
  obtain ⟨q, reply, hes, -, hreads⟩ := hread _ 16515071 1 0x1000 0 his (by decide) _ _ hr'
  cases hes
  exact ⟨_, _, hr, his, hr', by decide +kernel, by decide +kernel, hreads⟩

end Bootloader.Legacy
