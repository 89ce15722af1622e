import Bootloader.Proofs.Buffer

/-!
# Copying and filling in place

A copy goes upwards byte by byte.  If the target is not above the source, or is above all of it, no
byte is read after it was written, and the bytes come over as they were; else those between source
and target are repeated (`Copied`).  Filling sets bytes to the low byte of a number (`Filled`).

Both follow from what a single byte is afterwards (`Buffer.get_copy`, `Buffer.get_fill`).
-/

namespace Bootloader.Buffer

/-- What is left when bytes were copied upwards, one after the other. -/
structure Copied (b : Buffer) (target source count : Nat) (after : Buffer) : Prop where
  size_eq : after.size = b.size
  elsewhere : ∀ j, j < target ∨ target + count ≤ j → after.get j = b.get j
  downwards : target ≤ source → ∀ i < count, after.get (target + i) = b.get (source + i)
  upwards : source < target → ∀ i < count,
    after.get (target + i) = b.get (source + i % (target - source))
  ideal : target ≤ source ∨ source + count ≤ target ∨ target + count ≤ source →
    after = b.write target (b.read source count)

/-- What is left when bytes were set to a number. -/
structure Filled (b : Buffer) (target : Nat) (value : Int32) (count : Nat) (after : Buffer) :
    Prop where
  size_eq : after.size = b.size
  elsewhere : ∀ j, j < target ∨ target + count ≤ j → after.get j = b.get j
  filled : ∀ i < count, ((after.get (target + i)).toNat : Int) = value.toInt % 256

section CopyAndFill

variable {b c : Buffer} {target source count : Nat}

theorem ext_get (hs : b.size = c.size) (h : ∀ i < b.size, b.get i = c.get i) : b = c := by
  obtain ⟨bytes⟩ := b
  obtain ⟨bytes'⟩ := c
  refine congrArg Buffer.mk (Array.ext hs fun i hi hi' => ?_)
  have hget := h i hi
  simpa [get, hi, hi'] using hget

theorem copy_eq_write (h : target ≤ source ∨ source + count ≤ target) :
    b.copy target source count = b.write target (b.read source count) := by
  refine ext_get (by simp) fun j _ => ?_
  rw [get_copy, get_write, length_read]
  split
  · rename_i hin
    have hmod : (j - target) % (target - source) = j - target := by
      rcases h with h | h
      · rw [Nat.sub_eq_zero_of_le h, Nat.mod_zero]
      · exact Nat.mod_eq_of_lt (by omega)
    have hread : (b.read source count).getD (j - target) 0 = b.get (source + (j - target)) := by
      rw [List.getD_eq_getElem?_getD, getElem?_read, if_pos (by omega), Option.getD_some]
    rw [hmod, hread]
  · rfl

theorem copied_copy (ht : target + count ≤ b.size) :
    Copied b target source count (b.copy target source count) where
  size_eq := size_copy ..
  elsewhere j hj := by rw [get_copy, if_neg (by omega)]
  downwards h i hi := by
    rw [get_copy, if_pos (by omega), Nat.add_sub_cancel_left, Nat.sub_eq_zero_of_le h, Nat.mod_zero]
  upwards _ i hi := by rw [get_copy, if_pos (by omega), Nat.add_sub_cancel_left]
  ideal h := copy_eq_write (by omega)

theorem toNat_lowByte_eq (value : Int32) :
    (value.toUInt32.toUInt8.toNat : Int) = value.toInt % 256 := by
  have hbits : value.toInt = Int.bmod value.toUInt32.toNat (2 ^ 32) :=
    BitVec.toInt_eq_toNat_bmod value.toBitVec
  have hmod : value.toInt % 2 ^ 32 = (value.toUInt32.toNat : Int) % 2 ^ 32 := by
    rw [hbits]
    exact Int.bmod_emod
  rw [UInt32.toNat_toUInt8]
  omega

theorem filled_fillLow (ht : target + count ≤ b.size) (value : Int32) :
    Filled b target value count (b.fillLow target value count) where
  size_eq := size_fill ..
  elsewhere j hj := by rw [fillLow, get_fill, if_neg (by omega)]
  filled i hi := by rw [fillLow, get_fill, if_pos (by omega), toNat_lowByte_eq]

/-- Copying and filling within a buffer, wherever the bytes lie. -/
theorem copied_and_filled (b : Buffer) {target count : Nat} (ht : target + count ≤ b.size) :
    (∀ source, source + count ≤ b.size →
      Copied b target source count (b.copy target source count)) ∧
      ∀ value, Filled b target value count (b.fillLow target value count) :=
  ⟨fun _ _ => copied_copy ht, filled_fillLow ht⟩

end CopyAndFill

/-- The bytes from zero to seven. -/
def countingUp : Buffer := ⟨#[0, 1, 2, 3, 4, 5, 6, 7]⟩

/-- A copy two bytes up repeats the first two, and minus two is set as 254. -/
theorem copied_and_filled_countingUp :
    Copied countingUp 2 0 5 ⟨#[0, 1, 0, 1, 0, 1, 0, 7]⟩ ∧
      Filled countingUp 2 (-2) 5 ⟨#[0, 1, 254, 254, 254, 254, 254, 7]⟩ := by
  have h := copied_and_filled countingUp (show 2 + 5 ≤ countingUp.size by decide)
  exact ⟨h.1 0 (by decide), h.2 (-2)⟩

end Bootloader.Buffer
