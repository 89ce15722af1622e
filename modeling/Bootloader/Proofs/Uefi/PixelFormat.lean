import Bootloader.Uefi.PixelFormat
import Mathlib.Algebra.Group.Nat.Defs
import Mathlib.Algebra.Order.Floor.Div
import Mathlib.Order.Bounds.Basic

/-!
# How many bits a pixel has

A number is below the power of two of its length, and its length is the least such exponent
(`bitLength_le_iff`).  The union of some masks is below a power of two just if each of them is, so
its length is the least number of bits with room for all the masks (`isLeast_bitLength_all`),
wherever they lie and whether they share bits or not.

So a pixel that is described by masks has as few bits as the masks allow, and no fewer if one of
them is raised (`ModeInformation.depth_of_masks`).  In each format a pixel that can be drawn has
between 1 and 32 bits (`ModeInformation.toNat_bitsPerPixel`).
-/

namespace Bootloader.Uefi

theorem lt_two_pow_bitLength (n : Nat) : n < 2 ^ bitLength n := by
  fun_induction bitLength n with
  | case1 => simp
  | case2 n h ih => rw [Nat.pow_succ]; omega

theorem bitLength_le_of_lt {n k : Nat} (h : n < 2 ^ k) : bitLength n ≤ k := by
  induction k generalizing n with
  | zero =>
    have : n = 0 := by simpa using h
    simp [this, bitLength]
  | succ k ih =>
    rw [bitLength]
    split
    · omega
    · have := @ih (n / 2) (by rw [Nat.pow_succ] at h; omega)
      omega

theorem bitLength_le_iff {n k : Nat} : bitLength n ≤ k ↔ n < 2 ^ k :=
  ⟨fun h => (lt_two_pow_bitLength n).trans_le (Nat.pow_le_pow_right (by decide) h),
    bitLength_le_of_lt⟩

/-- A union has a bit wherever one of its parts has one. -/
theorem or_lt_two_pow_iff {a b k : Nat} : a ||| b < 2 ^ k ↔ a < 2 ^ k ∧ b < 2 ^ k :=
  ⟨fun h => ⟨Nat.left_le_or.trans_lt h, Nat.right_le_or.trans_lt h⟩,
    fun h => Nat.or_lt_two_pow h.1 h.2⟩

theorem PixelLayout.tag_eq_iff {layout : PixelLayout} : layout.tag = none.tag ↔ layout = none := by
  cases layout <;> decide

namespace PixelMasks

/-- The masks in turn. -/
def toList (masks : PixelMasks) : List UInt32 :=
  [masks.red, masks.green, masks.blue, masks.reserved]

/-- So many bits have room for each of the masks. -/
def FitIn (masks : PixelMasks) (bits : Nat) : Prop := ∀ mask ∈ masks.toList, mask.toNat < 2 ^ bits

/-- Each of the masks is raised, or stays as it is. -/
structure RaisedTo (masks higher : PixelMasks) : Prop where
  red : masks.red ≤ higher.red
  green : masks.green ≤ higher.green
  blue : masks.blue ≤ higher.blue
  reserved : masks.reserved ≤ higher.reserved

variable {masks higher : PixelMasks} {bits : Nat}

theorem fitIn_iff : masks.FitIn bits ↔ masks.red.toNat < 2 ^ bits ∧ masks.green.toNat < 2 ^ bits ∧
    masks.blue.toNat < 2 ^ bits ∧ masks.reserved.toNat < 2 ^ bits := by
  simp [FitIn, toList]

theorem bitLength_all_le_iff : bitLength masks.all.toNat ≤ bits ↔ masks.FitIn bits := by
  rw [bitLength_le_iff, fitIn_iff, all, UInt32.toNat_or, UInt32.toNat_or, UInt32.toNat_or,
    or_lt_two_pow_iff, or_lt_two_pow_iff, or_lt_two_pow_iff, and_assoc, and_assoc]

theorem isLeast_bitLength_all : IsLeast {bits | masks.FitIn bits} (bitLength masks.all.toNat) :=
  ⟨bitLength_all_le_iff.1 (Nat.le_refl _), fun _ h => bitLength_all_le_iff.2 h⟩

theorem bitLength_all_eq_zero_iff :
    bitLength masks.all.toNat = 0 ↔ ∀ mask ∈ masks.toList, mask = 0 := by
  rw [← Nat.le_zero, bitLength_all_le_iff, FitIn]
  simp [← UInt32.toNat_inj]

theorem FitIn.of_raisedTo (h : higher.FitIn bits) (hr : masks.RaisedTo higher) :
    masks.FitIn bits := by
  obtain ⟨hred, hgreen, hblue, hreserved⟩ := fitIn_iff.1 h
  exact fitIn_iff.2 ⟨(UInt32.le_iff_toNat_le.1 hr.red).trans_lt hred,
    (UInt32.le_iff_toNat_le.1 hr.green).trans_lt hgreen,
    (UInt32.le_iff_toNat_le.1 hr.blue).trans_lt hblue,
    (UInt32.le_iff_toNat_le.1 hr.reserved).trans_lt hreserved⟩

end PixelMasks

/-- The format that masks describe, with as few bits for a pixel as have room for each mask. -/
structure PixelFormat.DescribedBy (format : PixelFormat) (masks : PixelMasks) : Prop where
  layout : format.layout = .bitmask
  depth : IsLeast {bits | masks.FitIn bits} format.bitsPerPixel.toNat
  bounds : 1 ≤ format.bitsPerPixel.toNat ∧ format.bitsPerPixel.toNat ≤ 32

namespace ModeInformation

variable {mode : ModeInformation}

/-- Four masks of 32 bits are together no longer than one, so the length fits a byte. -/
theorem bitLength_all_le (masks : PixelMasks) : bitLength masks.all.toNat ≤ 32 :=
  bitLength_le_of_lt (UInt32.toNat_lt _)

theorem toNat_ofNat_bitLength (masks : PixelMasks) :
    (UInt8.ofNat (bitLength masks.all.toNat)).toNat = bitLength masks.all.toNat := by
  have hle := bitLength_all_le masks
  rw [UInt8.toNat_ofNat']
  omega

/-- A pixel that can be drawn has a bit at least, and no more than the masks can tell of. -/
theorem toNat_bitsPerPixel (h : mode.pixelFormat.layout ≠ .none) :
    1 ≤ mode.pixelFormat.bitsPerPixel.toNat ∧ mode.pixelFormat.bitsPerPixel.toNat ≤ 32 := by
  unfold pixelFormat at h ⊢
  split
  · decide
  · decide
  · dsimp only
    split
    · decide
    rename_i h0
    have hle := bitLength_all_le mode.masks
    have heq := toNat_ofNat_bitLength mode.masks
    dsimp only
    omega
  · rename_i h3
    simp [h3] at h
  · decide

/-- A scan line takes whole bytes for each of its pixels. -/
theorem toNat_pitch : mode.pitch.toNat =
    mode.pixelsPerScanLine.toNat * (mode.pixelFormat.bitsPerPixel.toNat ⌈/⌉ 8) % 2 ^ 32 := by
  have hlt : mode.pixelFormat.bitsPerPixel.toNat < 256 := UInt8.toNat_lt _
  have hbytes : ((mode.pixelFormat.bitsPerPixel.toUInt32 + 7) / 8).toNat =
      mode.pixelFormat.bitsPerPixel.toNat ⌈/⌉ 8 := by
    rw [UInt32.toNat_div, UInt32.toNat_add, UInt8.toNat_toUInt32, Nat.ceilDiv_eq_add_pred_div]
    change (mode.pixelFormat.bitsPerPixel.toNat + 7) % 2 ^ 32 / 8 = _
    rw [Nat.mod_eq_of_lt (by omega)]
    rfl
  rw [pitch, UInt32.toNat_mul, hbytes]

section Masked

variable (hformat : mode.format = 2)

include hformat

theorem pixelFormat_of_unmasked (h : bitLength mode.masks.all.toNat = 0) :
    mode.pixelFormat = ⟨32, .bgrx32⟩ := by
  rw [pixelFormat, hformat]
  exact if_pos h

theorem pixelFormat_of_masked (h : bitLength mode.masks.all.toNat ≠ 0) :
    mode.pixelFormat = ⟨UInt8.ofNat (bitLength mode.masks.all.toNat), .bitmask⟩ := by
  rw [pixelFormat, hformat]
  exact if_neg h

theorem toNat_bitsPerPixel_of_masked (h : bitLength mode.masks.all.toNat ≠ 0) :
    mode.pixelFormat.bitsPerPixel.toNat = bitLength mode.masks.all.toNat := by
  rw [pixelFormat_of_masked hformat h]
  exact toNat_ofNat_bitLength mode.masks

theorem describedBy_masks (h : bitLength mode.masks.all.toNat ≠ 0) :
    mode.pixelFormat.DescribedBy mode.masks := by
  have hlayout : mode.pixelFormat.layout = .bitmask := by rw [pixelFormat_of_masked hformat h]
  refine ⟨hlayout, ?_, toNat_bitsPerPixel ?_⟩
  · rw [toNat_bitsPerPixel_of_masked hformat h]
    exact PixelMasks.isLeast_bitLength_all
  · rw [hlayout]
    decide

/-- Masks describe pixels of as few bits as have room for them, and raised masks pixels of no fewer;
masks without a bit are passed over. -/
theorem depth_of_masks :
    ((∃ mask ∈ mode.masks.toList, mask ≠ 0) → mode.pixelFormat.DescribedBy mode.masks ∧
      ∀ higher : ModeInformation, higher.format = 2 → mode.masks.RaisedTo higher.masks →
        mode.pixelFormat.bitsPerPixel ≤ higher.pixelFormat.bitsPerPixel) ∧
      ((∀ mask ∈ mode.masks.toList, mask = 0) → mode.pixelFormat = ⟨32, .bgrx32⟩) := by
  refine ⟨fun hsome => ?_, fun hall =>
    pixelFormat_of_unmasked hformat (PixelMasks.bitLength_all_eq_zero_iff.2 hall)⟩
  have h0 : bitLength mode.masks.all.toNat ≠ 0 := by
    intro h0
    obtain ⟨mask, hmem, hmask⟩ := hsome
    exact hmask (PixelMasks.bitLength_all_eq_zero_iff.1 h0 mask hmem)
  refine ⟨describedBy_masks hformat h0, fun higher hformat' hraised => ?_⟩
  have hle : bitLength mode.masks.all.toNat ≤ bitLength higher.masks.all.toNat :=
    PixelMasks.isLeast_bitLength_all.mono PixelMasks.isLeast_bitLength_all
      fun bits h => PixelMasks.FitIn.of_raisedTo h hraised
  rw [UInt8.le_iff_toNat_le, toNat_bitsPerPixel_of_masked hformat h0,
    toNat_bitsPerPixel_of_masked hformat' (by omega)]
  exact hle

end Masked

/-- Pixels with masks that share bits, and with what is given for the reserved ones. -/
def sharing (reserved : UInt32) : ModeInformation :=
  ⟨1024, 768, 2, ⟨0x7C00, 0x7FE0, 0x1F, reserved⟩, 1024⟩

/-- Pixels of 15 bits become pixels of 32 bits when the highest bit there is gets a meaning. -/
theorem describedBy_sharing : (sharing 0).pixelFormat.DescribedBy ⟨0x7C00, 0x7FE0, 0x1F, 0⟩ ∧
    (sharing 0).pixelFormat.bitsPerPixel ≤ (sharing 0x80000000).pixelFormat.bitsPerPixel ∧
      (sharing 0).pixelFormat = ⟨15, .bitmask⟩ ∧
        (sharing 0x80000000).pixelFormat = ⟨32, .bitmask⟩ := by
  have hsome : ∃ mask ∈ (sharing 0).masks.toList, mask ≠ 0 :=
    ⟨0x7C00, List.mem_cons_self, by decide⟩
  have hraised : (sharing 0).masks.RaisedTo (sharing 0x80000000).masks :=
    ⟨by decide, by decide, by decide, by decide⟩
  have hformat : (sharing 0).format = 2 := rfl
  obtain ⟨hdescribed, hraise⟩ := (depth_of_masks hformat).1 hsome
  exact ⟨hdescribed, hraise (sharing 0x80000000) rfl hraised, by decide +kernel,
    by decide +kernel⟩

end ModeInformation

end Bootloader.Uefi
