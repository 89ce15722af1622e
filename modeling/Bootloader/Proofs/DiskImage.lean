import Bootloader.DiskImage
import Bootloader.Proofs.Buffer
import Mathlib.Algebra.Group.Nat.Defs
import Mathlib.Tactic.SplitIfs

/-!
# What an image holds

An image that was assembled holds each part at its sector and zeros elsewhere (`get_assemble`),
provided that the sums of the layout do not wrap (`DiskLayout.Exact`).  So the sectors given to a
part hold the part with zeros after it (`read_stage2`, `read_core`).
-/

namespace Bootloader

/-- No sum of the layout wraps. -/
def DiskLayout.Exact (layout : DiskLayout) : Prop :=
  layout.stage2Start.toNat + layout.stage2Sectors.toNat < 2 ^ 32 ∧
    layout.coreStart.toNat + layout.coreSectors.toNat < 2 ^ 32

instance (layout : DiskLayout) : Decidable layout.Exact := inferInstanceAs (Decidable (_ ∧ _))

namespace DiskImage

variable {layout : DiskLayout} {bootSector stage2 core : List UInt8} {disk : Buffer}

theorem checkLayout_eq_ok_iff :
    checkLayout layout = .ok () ↔
      layout.stage2Start ≠ 0 ∧ layout.stage2Start + layout.stage2Sectors ≤ layout.coreStart := by
  unfold checkLayout
  split
  · rename_i h
    simp only [reduceCtorEq, false_iff, not_and]
    rcases h with h | h
    · exact fun h' => absurd h h'
    · exact fun _ => UInt32.not_le.2 h
  · rename_i h
    simpa [not_or, UInt32.not_lt] using h

theorem checkBootSector_eq_ok_iff {image : List UInt8} :
    checkBootSector image = .ok () ↔
      image.length = sectorBytes ∧ image.drop 510 = [0x55, 0xAA] := by
  unfold checkBootSector
  split_ifs <;> simp_all

/-- A part that is not empty fits if its bytes do. -/
theorem checkFits_eq_ok_iff {image : List UInt8} {available : UInt32} {part : String} :
    checkFits image available part = .ok () ↔
      image ≠ [] ∧ image.length ≤ sectorBytes * available.toNat := by
  have hs : sectorsFor image.length ≤ available.toNat ↔
      image.length ≤ sectorBytes * available.toNat := by
    unfold sectorsFor sectorBytes
    omega
  unfold checkFits
  split_ifs with h1 h2
  · simp_all
  · simp only [false_iff, not_and, ← hs]
    omega
  · simp only [List.isEmpty_iff] at h1
    simp only [true_iff, ← hs]
    exact ⟨h1, by omega⟩

/-- Assembling goes through the checks, and then through the parts. -/
theorem assemble_eq_ok_iff :
    assemble bootSector stage2 core layout = .ok disk ↔
      checkLayout layout = .ok () ∧ checkBootSector bootSector = .ok () ∧
        checkFits stage2 layout.stage2Sectors "stage 2" = .ok () ∧
        checkFits core layout.coreSectors "core" = .ok () ∧
        disk = place (place (place (Buffer.zeros (imageSize layout)) bootSector 0) stage2
          layout.stage2Start) core layout.coreStart := by
  unfold assemble
  rcases checkLayout layout with e | ⟨⟩
  · simp [bind, Except.bind]
  rcases checkBootSector bootSector with e | ⟨⟩
  · simp [bind, Except.bind]
  rcases checkFits stage2 layout.stage2Sectors "stage 2" with e | ⟨⟩
  · simp [bind, Except.bind]
  rcases checkFits core layout.coreSectors "core" with e | ⟨⟩
  · simp [bind, Except.bind]
  simp only [bind, Except.bind, pure, Except.pure, Except.ok.injEq, true_and]
  exact eq_comm

theorem place_zero (disk : Buffer) (part : List UInt8) : place disk part 0 = disk.write 0 part :=
  rfl

theorem toNat_coreEnd (he : layout.Exact) :
    (layout.coreStart + layout.coreSectors).toNat =
      layout.coreStart.toNat + layout.coreSectors.toNat := by
  rw [UInt32.toNat_add, Nat.mod_eq_of_lt he.2]

theorem toNat_stage2End (he : layout.Exact) :
    (layout.stage2Start + layout.stage2Sectors).toNat =
      layout.stage2Start.toNat + layout.stage2Sectors.toNat := by
  rw [UInt32.toNat_add, Nat.mod_eq_of_lt he.1]

/-- The image ends with the last sector of the core. -/
theorem size_assemble (he : layout.Exact)
    (h : assemble bootSector stage2 core layout = .ok disk) :
    disk.size = sectorBytes * (layout.coreStart.toNat + layout.coreSectors.toNat) := by
  obtain ⟨-, -, -, -, rfl⟩ := assemble_eq_ok_iff.1 h
  simp only [place, Buffer.size_write, Buffer.size_zeros, imageSize, toNat_coreEnd he]
  exact Nat.mul_comm ..

/-- The parts lie one after the other, in their sectors. -/
theorem parts_in_order (he : layout.Exact)
    (h : assemble bootSector stage2 core layout = .ok disk) :
    bootSector.length = sectorBytes ∧ 0 < layout.stage2Start.toNat ∧
      stage2.length ≤ sectorBytes * layout.stage2Sectors.toNat ∧
      layout.stage2Start.toNat + layout.stage2Sectors.toNat ≤ layout.coreStart.toNat ∧
      core.length ≤ sectorBytes * layout.coreSectors.toNat := by
  obtain ⟨hl, hb, hs, hc, -⟩ := assemble_eq_ok_iff.1 h
  obtain ⟨h0, hle⟩ := checkLayout_eq_ok_iff.1 hl
  rw [UInt32.le_iff_toNat_le, toNat_stage2End he] at hle
  have h0' : layout.stage2Start.toNat ≠ 0 := fun h' => h0 (UInt32.toNat_inj.1 h')
  exact ⟨(checkBootSector_eq_ok_iff.1 hb).1, by omega, (checkFits_eq_ok_iff.1 hs).2, hle,
    (checkFits_eq_ok_iff.1 hc).2⟩

/-- Each byte of an image. -/
theorem get_assemble (he : layout.Exact)
    (h : assemble bootSector stage2 core layout = .ok disk) (i : Nat) :
    disk.get i =
      if sectorBytes * layout.coreStart.toNat ≤ i ∧
          i < sectorBytes * layout.coreStart.toNat + core.length then
        core.getD (i - sectorBytes * layout.coreStart.toNat) 0
      else if sectorBytes * layout.stage2Start.toNat ≤ i ∧
          i < sectorBytes * layout.stage2Start.toNat + stage2.length then
        stage2.getD (i - sectorBytes * layout.stage2Start.toNat) 0
      else bootSector.getD i 0 := by
  have hsize := size_assemble he h
  obtain ⟨hb, hs0, hs, hle, hc⟩ := parts_in_order he h
  obtain ⟨-, -, -, -, hd⟩ := assemble_eq_ok_iff.1 h
  have hz : (Buffer.zeros (imageSize layout)).size = disk.size := by rw [hd]; simp [place]
  rw [hd, place_zero]
  simp only [place, Buffer.get_write, Buffer.size_write, Buffer.get_zeros, hz, hsize,
    Nat.mul_comm _ sectorBytes]
  unfold sectorBytes at *
  by_cases h1 : 512 * layout.coreStart.toNat ≤ i ∧ i < 512 * layout.coreStart.toNat + core.length
  · rw [if_pos (by omega), if_pos h1]
  rw [if_neg (by omega), if_neg h1]
  by_cases h2 : 512 * layout.stage2Start.toNat ≤ i ∧
      i < 512 * layout.stage2Start.toNat + stage2.length
  · rw [if_pos (by omega), if_pos h2]
  rw [if_neg (by omega), if_neg h2, Nat.sub_zero]
  split
  · rfl
  · rw [List.getD_eq_default _ _ (by omega)]

theorem getD_rightpad {values : List UInt8} {n k : Nat} :
    (values.rightpad n 0).getD k 0 = values.getD k 0 := by
  unfold List.rightpad
  rcases Nat.lt_or_ge k values.length with h | h
  · rw [List.getD_append _ _ _ _ h]
  · rw [List.getD_append_right _ _ _ _ h, List.getD_eq_default _ _ h]
    simp only [List.getD_eq_getElem?_getD, List.getElem?_replicate]
    split <;> rfl

theorem length_rightpad_of_le {values : List UInt8} {n : Nat} (h : values.length ≤ n) :
    (values.rightpad n 0).length = n := by
  simp only [List.rightpad, List.length_append, List.length_replicate]
  omega

/-- The sectors given to a part of an image hold the part, with zeros after it. -/
theorem read_part {part : List UInt8} {i n : Nat} (hn : part.length ≤ n)
    (h : ∀ k < n, disk.get (i + k) = part.getD k 0) :
    disk.read i n = part.rightpad n 0 := by
  have hl := length_rightpad_of_le hn
  have hr : disk.read i (part.rightpad n 0).length = part.rightpad n 0 := by
    refine Buffer.read_eq fun k hk => ?_
    rw [getD_rightpad, h k (by omega)]
  rwa [hl] at hr

theorem read_stage2 (he : layout.Exact)
    (h : assemble bootSector stage2 core layout = .ok disk) :
    disk.read (sectorBytes * layout.stage2Start.toNat)
        (sectorBytes * layout.stage2Sectors.toNat) =
      stage2.rightpad (sectorBytes * layout.stage2Sectors.toNat) 0 := by
  obtain ⟨hb, hs0, hs, hle, hc⟩ := parts_in_order he h
  refine read_part hs fun k hk => ?_
  rw [get_assemble he h]
  unfold sectorBytes at *
  rw [if_neg (by omega)]
  split
  · rw [Nat.add_sub_cancel_left]
  · rw [List.getD_eq_default _ _ (by omega), List.getD_eq_default _ _ (by omega)]

theorem read_core (he : layout.Exact)
    (h : assemble bootSector stage2 core layout = .ok disk) :
    disk.read (sectorBytes * layout.coreStart.toNat)
        (sectorBytes * layout.coreSectors.toNat) =
      core.rightpad (sectorBytes * layout.coreSectors.toNat) 0 := by
  obtain ⟨hb, hs0, hs, hle, hc⟩ := parts_in_order he h
  refine read_part hc fun k hk => ?_
  rw [get_assemble he h]
  unfold sectorBytes at *
  split
  · rw [Nat.add_sub_cancel_left]
  · rw [if_neg (by omega), List.getD_eq_default _ _ (by omega),
      List.getD_eq_default _ _ (by omega)]

end DiskImage

end Bootloader
