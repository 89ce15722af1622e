import Bootloader.Buffer
import Mathlib.Data.List.GetD
import Mathlib.Logic.Basic

/-!
# What is read after a write

Each byte of a buffer after some bytes were written (`get_write`), filled (`get_fill`) or copied
(`get_copy`).  The operations on many bytes are taken apart by their length: bytes read are the
bytes there one by one (`getElem?_read`), and bytes written in two goes are written in one
(`write_append`).
-/

namespace Bootloader

namespace Buffer

theorem get_write : ∀ (b : Buffer) (i : Nat) (values : List UInt8) (j : Nat),
    (b.write i values).get j =
      if i ≤ j ∧ j < i + values.length ∧ j < b.size then values.getD (j - i) 0 else b.get j
  | b, i, [], j => by
    rw [if_neg (by simp; omega)]
    rfl
  | b, i, value :: rest, j => by
    simp only [write, get_write, get_set, size_set, List.length_cons]
    rcases Nat.lt_trichotomy i j with h | rfl | h
    · rw [if_neg (show ¬(i = j ∧ i < b.size) by omega),
        show j - i = (j - (i + 1)) + 1 by omega, List.getD_cons_succ]
      exact if_congr (by omega) rfl rfl
    · rw [if_neg (show ¬(i + 1 ≤ i ∧ _) by omega)]
      simp
    · rw [if_neg (show ¬(i + 1 ≤ j ∧ _) by omega), if_neg (show ¬(i = j ∧ _) by omega),
        if_neg (show ¬(i ≤ j ∧ _) by omega)]

theorem get_write_of_not_mem {b : Buffer} {i j : Nat} {values : List UInt8}
    (h : j < i ∨ i + values.length ≤ j) : (b.write i values).get j = b.get j := by
  rw [get_write, if_neg (by omega)]

theorem write_append : ∀ (b : Buffer) (i : Nat) (xs ys : List UInt8),
    b.write i (xs ++ ys) = (b.write i xs).write (i + xs.length) ys
  | b, i, [], ys => rfl
  | b, i, x :: xs, ys => by
    simp only [List.cons_append, write, write_append, List.length_cons]
    congr 1
    omega

@[simp] theorem length_read : ∀ (b : Buffer) (i n : Nat), (b.read i n).length = n
  | _, _, 0 => rfl
  | b, i, n + 1 => by simp [read, length_read b (i + 1) n]

theorem getElem?_read : ∀ (b : Buffer) (i n k : Nat),
    (b.read i n)[k]? = if k < n then some (b.get (i + k)) else none
  | b, i, 0, k => by simp [read]
  | b, i, n + 1, 0 => by simp [read]
  | b, i, n + 1, k + 1 => by
    simp only [read, List.getElem?_cons_succ, getElem?_read, Nat.add_lt_add_iff_right]
    rw [show i + 1 + k = i + (k + 1) by omega]

theorem read_add : ∀ (b : Buffer) (i m n : Nat),
    b.read i (m + n) = b.read i m ++ b.read (i + m) n
  | b, i, 0, n => by simp [read]
  | b, i, m + 1, n => by
    rw [show m + 1 + n = (m + n) + 1 by omega]
    simp only [read, read_add b (i + 1) m n, List.cons_append]
    rw [show i + 1 + m = i + (m + 1) by omega]

theorem read_congr {b c : Buffer} {i j n : Nat} (h : ∀ k < n, b.get (i + k) = c.get (j + k)) :
    b.read i n = c.read j n := by
  refine List.ext_getElem? fun k => ?_
  rw [getElem?_read, getElem?_read]
  split
  · rw [h k ‹_›]
  · rfl

/-- The bytes at a place are those of a list, if each of them is. -/
theorem read_eq {b : Buffer} {i : Nat} {values : List UInt8}
    (h : ∀ k < values.length, b.get (i + k) = values.getD k 0) :
    b.read i values.length = values := by
  refine List.ext_getElem? fun k => ?_
  rw [getElem?_read]
  split
  · rename_i hk
    rw [h k hk, List.getD_eq_getElem _ _ hk, List.getElem?_eq_getElem hk]
  · rw [List.getElem?_eq_none (by omega)]

/-- What was written is read back. -/
theorem read_write {b : Buffer} {i : Nat} {values : List UInt8}
    (h : i + values.length ≤ b.size) : (b.write i values).read i values.length = values := by
  refine read_eq fun k hk => ?_
  rw [get_write, if_pos (by omega), Nat.add_sub_cancel_left]

theorem get_fill : ∀ (b : Buffer) (i : Nat) (value : UInt8) (count j : Nat),
    (b.fill i value count).get j =
      if i ≤ j ∧ j < i + count ∧ j < b.size then value else b.get j
  | b, i, value, 0, j => by
    rw [if_neg (by omega)]
    rfl
  | b, i, value, count + 1, j => by
    rw [fill, get_fill, get_set, size_set]
    rcases Nat.lt_trichotomy i j with h | rfl | h
    · rw [if_neg (show ¬(i = j ∧ i < b.size) by omega)]
      exact if_congr (by omega) rfl rfl
    · rw [if_neg (show ¬(i + 1 ≤ i ∧ _) by omega)]
      exact if_congr (by omega) rfl rfl
    · rw [if_neg (show ¬(i + 1 ≤ j ∧ _) by omega), if_neg (show ¬(i = j ∧ _) by omega),
        if_neg (show ¬(i ≤ j ∧ _) by omega)]

/-- The remainders go up one by one, and begin again. -/
theorem add_one_mod (k d : Nat) : (k + 1) % d = if k % d + 1 = d then 0 else k % d + 1 := by
  rcases Nat.eq_zero_or_pos d with rfl | hd
  · simp
  · have hlt := Nat.mod_lt k hd
    rw [← Nat.mod_add_mod]
    split
    · rw [‹k % d + 1 = d›, Nat.mod_self]
    · exact Nat.mod_eq_of_lt (by omega)

/-- A copy into what is still to be copied repeats the bytes from the source up to the target.  If
the target is not above the source their number is zero, and a remainder by zero changes nothing. -/
theorem get_copy : ∀ (b : Buffer) (target source count j : Nat),
    (b.copy target source count).get j =
      if target ≤ j ∧ j < target + count ∧ j < b.size then
        b.get (source + (j - target) % (target - source))
      else b.get j
  | b, target, source, 0, j => by
    rw [if_neg (by omega)]
    rfl
  | b, target, source, count + 1, j => by
    rw [copy, get_copy, size_set, Nat.add_sub_add_right]
    rcases Nat.lt_trichotomy target j with hj | rfl | hj
    · by_cases hin : j < target + (count + 1) ∧ j < b.size
      · have hnext := add_one_mod (j - (target + 1)) (target - source)
        rw [show j - (target + 1) + 1 = j - target by omega] at hnext
        rw [if_pos (show target + 1 ≤ j ∧ j < target + 1 + count ∧ j < b.size by omega),
          if_pos (show target ≤ j ∧ j < target + (count + 1) ∧ j < b.size by omega), get_set, hnext]
        -- what is read is the byte just written when the remainders begin again
        by_cases hround : (j - (target + 1)) % (target - source) + 1 = target - source
        · rw [if_pos (show target = _ ∧ target < b.size by omega), if_pos hround, Nat.add_zero]
        · rw [if_neg (show ¬(target = _ ∧ _) by omega), if_neg hround, Nat.add_right_comm,
            Nat.add_assoc]
      · rw [if_neg (show ¬(target + 1 ≤ j ∧ j < target + 1 + count ∧ j < b.size) by omega),
          if_neg (show ¬(target ≤ j ∧ j < target + (count + 1) ∧ j < b.size) by omega), get_set,
          if_neg (show ¬(target = j ∧ _) by omega)]
    · rw [if_neg (show ¬(target + 1 ≤ target ∧ _) by omega), get_set, Nat.sub_self, Nat.zero_mod]
      exact if_congr (by omega) rfl rfl
    · rw [if_neg (show ¬(target + 1 ≤ j ∧ _) by omega), get_set,
        if_neg (show ¬(target = j ∧ _) by omega), if_neg (show ¬(target ≤ j ∧ _) by omega)]

/-- A copy to a place above all that is copied. -/
theorem get_copy_of_le {b : Buffer} {target source count j : Nat} (h : source + count ≤ target) :
    (b.copy target source count).get j =
      if target ≤ j ∧ j < target + count ∧ j < b.size then b.get (source + (j - target))
      else b.get j := by
  rw [get_copy]
  split
  · rw [Nat.mod_eq_of_lt (by omega)]
  · rfl

end Buffer

end Bootloader
