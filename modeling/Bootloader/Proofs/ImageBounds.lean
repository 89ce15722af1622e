import Bootloader.Proofs.ImageDemands
import Mathlib.Order.Interval.Set.Disjoint

/-!
# Where the parts of an image lie

Each part of an image ought to lie inside it, in sectors that no other part has
(`DiskImage.LiesWithin`).  The layout is checked, and the room for the image is found, by sums of
32 bits, but the parts are put at 64-bit places.  So this holds of an image that was made just if no
sum of its layout wraps (`liesWithin_iff`).  If the sum for the core wraps, all of the core is put
behind the image; if the one for the second stage does, the core may be put on top of it.
-/

namespace Bootloader

/-- The sectors of the boot sector, of the second stage and of the core. -/
def DiskLayout.sectors (layout : DiskLayout) : List (Set Nat) :=
  [Set.Ico 0 1,
    Set.Ico layout.stage2Start.toNat (layout.stage2Start.toNat + layout.stage2Sectors.toNat),
    Set.Ico layout.coreStart.toNat (layout.coreStart.toNat + layout.coreSectors.toNat)]

/-- No sector belongs to two of them. -/
def DiskLayout.PartsApart (layout : DiskLayout) : Prop :=
  layout.sectors.Pairwise fun part other => ∀ sector ∈ part, sector ∉ other

namespace DiskImage

/-- Each part lies inside the disk, in sectors of its own, and the disk ends with the sectors of the
core. -/
structure LiesWithin (disk : Buffer) (layout : DiskLayout) (bootSector stage2 core : List UInt8) :
    Prop where
  bootSector_le : bootSector.length ≤ disk.size
  stage2_le : 512 * layout.stage2Start.toNat + stage2.length ≤ disk.size
  core_le : 512 * layout.coreStart.toNat + core.length ≤ disk.size
  apart : layout.PartsApart
  size_eq : disk.size = 512 * (layout.coreStart.toNat + layout.coreSectors.toNat)

variable {layout : DiskLayout} {bootSector stage2 core : List UInt8} {disk : Buffer}

theorem partsApart_iff :
    layout.PartsApart ↔
      min 1 (layout.stage2Start.toNat + layout.stage2Sectors.toNat) ≤ layout.stage2Start.toNat ∧
      min 1 (layout.coreStart.toNat + layout.coreSectors.toNat) ≤ layout.coreStart.toNat ∧
      min (layout.stage2Start.toNat + layout.stage2Sectors.toNat)
          (layout.coreStart.toNat + layout.coreSectors.toNat) ≤
        max layout.stage2Start.toNat layout.coreStart.toNat := by
  simp [DiskLayout.PartsApart, DiskLayout.sectors, ← Set.disjoint_left, Set.Ico_disjoint_Ico,
    and_assoc]

theorem size_eq_of_assemble (h : assemble bootSector stage2 core layout = .ok disk) :
    disk.size = 512 * ((layout.coreStart.toNat + layout.coreSectors.toNat) % 2 ^ 32) := by
  obtain ⟨-, -, -, -, rfl⟩ := assemble_eq_ok_iff.1 h
  simp only [place, Buffer.size_write, Buffer.size_zeros, imageSize, UInt32.toNat_add]
  exact Nat.mul_comm ..

theorem length_pos_of_assemble (h : assemble bootSector stage2 core layout = .ok disk) :
    0 < stage2.length ∧ 0 < core.length ∧ 0 < layout.coreSectors.toNat := by
  obtain ⟨-, -, hs, hc, -⟩ := assemble_eq_ok_iff.1 h
  have hs0 := List.length_pos_iff.2 (checkFits_eq_ok_iff.1 hs).1
  have hc0 := List.length_pos_iff.2 (checkFits_eq_ok_iff.1 hc).1
  have hle := (checkFits_eq_ok_iff.1 hc).2
  unfold sectorBytes at hle
  exact ⟨hs0, hc0, by omega⟩

theorem liesWithin_of_exact (he : layout.Exact)
    (h : assemble bootSector stage2 core layout = .ok disk) :
    LiesWithin disk layout bootSector stage2 core := by
  have hsize := size_assemble he h
  obtain ⟨hb, h0, hs, hle, hc⟩ := parts_in_order he h
  unfold sectorBytes at *
  refine ⟨by omega, by omega, by omega, ?_, hsize⟩
  rw [partsApart_iff]
  omega

/-- If the sum for the core wraps, all of the core is put behind the end of the image. -/
theorem size_le_of_coreEnd_wraps (h : assemble bootSector stage2 core layout = .ok disk)
    (hw : 2 ^ 32 ≤ layout.coreStart.toNat + layout.coreSectors.toNat) :
    disk.size ≤ 512 * layout.coreStart.toNat := by
  have hsize := size_eq_of_assemble h
  have := layout.coreStart.toNat_lt
  have := layout.coreSectors.toNat_lt
  omega

/-- If only the sum for the second stage wraps, a second stage inside the image shares sectors with
the core. -/
theorem not_partsApart_of_stage2End_wraps (h : assemble bootSector stage2 core layout = .ok disk)
    (hw : 2 ^ 32 ≤ layout.stage2Start.toNat + layout.stage2Sectors.toNat)
    (hc : layout.coreStart.toNat + layout.coreSectors.toNat < 2 ^ 32)
    (hs : 512 * layout.stage2Start.toNat + stage2.length ≤ disk.size) :
    ¬layout.PartsApart := by
  have hsize := size_eq_of_assemble h
  obtain ⟨hs0, -, hn⟩ := length_pos_of_assemble h
  rw [Nat.mod_eq_of_lt hc] at hsize
  rw [partsApart_iff]
  rintro ⟨-, -, hapart⟩
  omega

/-- An image that was made has its parts inside it, each in sectors of its own, just if no sum of
the layout wraps. -/
theorem liesWithin_iff (h : assemble bootSector stage2 core layout = .ok disk) :
    LiesWithin disk layout bootSector stage2 core ↔ layout.Exact := by
  constructor
  · intro hl
    have hc : layout.coreStart.toNat + layout.coreSectors.toNat < 2 ^ 32 := by
      by_contra hw
      have hsize := size_le_of_coreEnd_wraps h (by omega)
      obtain ⟨-, hpos, -⟩ := length_pos_of_assemble h
      have hcore := hl.core_le
      omega
    refine ⟨?_, hc⟩
    by_contra hw
    exact not_partsApart_of_stage2End_wraps h (by omega) hc hl.stage2_le hl.apart
  · exact fun he => liesWithin_of_exact he h

/-- In the smallest layout the parts lie within the image. -/
theorem liesWithin_smallest : ∃ disk,
    assemble emptyBootSector [1] [2] ⟨1, 1, 2, 1⟩ = .ok disk ∧
      LiesWithin disk ⟨1, 1, 2, 1⟩ emptyBootSector [1] [2] := by
  have h : assemble emptyBootSector [1] [2] ⟨1, 1, 2, 1⟩ = .ok _ :=
    assemble_eq_ok_iff.2 ⟨checkLayout_eq_ok_iff.2 (by decide),
      checkBootSector_eq_ok_iff.2 (by decide +kernel), checkFits_eq_ok_iff.2 (by decide),
      checkFits_eq_ok_iff.2 (by decide), rfl⟩
  exact ⟨_, h, (liesWithin_iff h).2 (by decide)⟩

/-- A layout whose second stage has so many sectors that their sum wraps is not refused, though the
second stage lies in a sector of the core. -/
theorem not_forall_liesWithin :
    ¬∀ (layout : DiskLayout) (bootSector stage2 core : List UInt8) (disk : Buffer),
      assemble bootSector stage2 core layout = .ok disk →
        LiesWithin disk layout bootSector stage2 core := by
  intro hall
  have h : assemble emptyBootSector [1] (List.replicate 1024 2) ⟨2, 0xFFFFFFFF, 1, 2⟩ = .ok _ :=
    assemble_eq_ok_iff.2 ⟨checkLayout_eq_ok_iff.2 (by decide),
      checkBootSector_eq_ok_iff.2 (by decide +kernel), checkFits_eq_ok_iff.2 (by decide),
      checkFits_eq_ok_iff.2 (by decide +kernel), rfl⟩
  have hl := hall _ _ _ _ _ h
  exact not_partsApart_of_stage2End_wraps h (by decide) (by decide) hl.stage2_le hl.apart

end DiskImage

end Bootloader
