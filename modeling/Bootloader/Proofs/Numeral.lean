import Bootloader.Numeral
import Bootloader.Uefi.Services
import Mathlib.Algebra.Group.Nat.Defs

/-!
# Numerals read back

A numeral is written whole if there are as many cells as its base needs (`digitsBefore_isSome`),
and the cells there are do for every 64-bit value in a base of ten or more.  Whoever reads the
digits has the value when he comes to what they were written in front of (`readOn?_digitsBefore`),
and the first of them is zero only for a value of zero (`head_digitsBefore`).

So what is printed of a value is its numeral, with nothing too much (`numerals_printed`).
-/

namespace Bootloader

/-- The value of a digit: figures, then capital letters. -/
def digitValue? (c : Char) : Option Nat :=
  if '0' ≤ c ∧ c ≤ '9' then some (c.toNat - '0'.toNat)
  else if 'A' ≤ c ∧ c ≤ 'Z' then some (c.toNat - 'A'.toNat + 10)
  else none

/-- Reads digits after those of a value. -/
def readOn? (base value : Nat) : List Char → Option Nat
  | [] => some value
  | c :: rest =>
    match digitValue? c with
    | none => none
    | some d => if d < base then readOn? base (base * value + d) rest else none

/-- The text reads as the value, and begins with a zero only if that is all of it. -/
structure Canonical (base value : Nat) (text : String) : Prop where
  reads : readOn? base 0 text.toList = some value
  ne_empty : text ≠ ""
  leading : text.toList.head? = some '0' → text = "0"

/-- The text is the numeral of the value, and was written without leaving the cells there are. -/
structure Printed (base : Nat) (value : UInt64) (text : String) : Prop extends
    Canonical base value.toNat text where
  inCells : digitsBefore base numeralRoom value.toNat [] = some text.toList
  length_le : text.length ≤ numeralRoom

section Digits

variable {base room value d : Nat} {tail cs : List Char}

theorem digitsBefore_isSome (hb : 2 ≤ base) (h : value < base ^ (room + 1)) :
    (digitsBefore base (room + 1) value tail).isSome := by
  induction room generalizing value tail with
  | zero =>
    have hz : value / base = 0 := Nat.div_eq_of_lt (by simpa using h)
    simp [digitsBefore, hz]
  | succ room ih =>
    rw [digitsBefore]
    split
    · rfl
    · refine ih ?_
      rw [Nat.div_lt_iff_lt_mul (by omega)]
      rwa [Nat.pow_succ] at h

theorem length_digitsBefore (h : digitsBefore base room value tail = some cs) :
    cs.length ≤ room + tail.length := by
  induction room generalizing value tail with
  | zero => cases h
  | succ room ih =>
    rw [digitsBefore] at h
    split at h
    · obtain rfl := Option.some.inj h
      rw [List.length_cons]
      omega
    · have hrest := ih h
      rw [List.length_cons] at hrest
      omega

theorem digitValue?_digitChar : ∀ d < 16, digitValue? (digitChar d) = some d := by
  decide

theorem readOn?_digitChar (hb : base ≤ 16) (hd : d < base) :
    readOn? base value (digitChar d :: tail) = readOn? base (base * value + d) tail := by
  simp [readOn?, digitValue?_digitChar d (by omega), hd]

/-- By induction on the cells: the digits before the units are those of the quotient. -/
theorem readOn?_digitsBefore (hb : 0 < base) (hb' : base ≤ 16)
    (h : digitsBefore base room value tail = some cs) :
    readOn? base 0 cs = readOn? base value tail := by
  induction room generalizing value tail with
  | zero => cases h
  | succ room ih =>
    have hwhole := Nat.div_add_mod value base
    have hdigit := Nat.mod_lt value hb
    rw [digitsBefore] at h
    split at h
    · rename_i hz
      obtain rfl := Option.some.inj h
      rw [hz] at hwhole
      rw [readOn?_digitChar hb' hdigit, hwhole]
    · rw [ih h, readOn?_digitChar hb' hdigit, hwhole]

/-- The first digit is zero only for a value of zero. -/
theorem head_digitsBefore (hb : 0 < base) (h : digitsBefore base room value tail = some cs) :
    ∃ d rest, cs = digitChar d :: rest ∧ d < base ∧ (d = 0 → value = 0 ∧ rest = tail) := by
  induction room generalizing value tail with
  | zero => cases h
  | succ room ih =>
    rw [digitsBefore] at h
    split at h
    · rename_i hz
      obtain rfl := Option.some.inj h
      refine ⟨value % base, tail, rfl, Nat.mod_lt value hb, fun hd => ⟨?_, rfl⟩⟩
      rw [← Nat.div_add_mod value base, hz, hd, Nat.mul_zero]
    · rename_i hz
      obtain ⟨d, rest, rfl, hd, hzero⟩ := ih h
      exact ⟨d, rest, rfl, hd, fun hd => absurd (hzero hd).1 hz⟩

/-- Digits with nothing behind them are a numeral. -/
theorem canonical_ofList (hb : 0 < base) (hb' : base ≤ 16)
    (h : digitsBefore base room value [] = some cs) : Canonical base value (String.ofList cs) := by
  obtain ⟨d, rest, rfl, hd, hzero⟩ := head_digitsBefore hb h
  refine ⟨?_, fun hempty => by simp at hempty, fun hlead => ?_⟩
  · rw [String.toList_ofList, readOn?_digitsBefore hb hb' h]
    rfl
  · rw [String.toList_ofList, List.head?_cons, Option.some.injEq] at hlead
    have hvalue := digitValue?_digitChar d (by omega)
    rw [hlead] at hvalue
    have hd0 : d = 0 := (Option.some.inj hvalue).symm
    rw [(hzero hd0).2, hd0]
    rfl

theorem printed_numeral (hb : 10 ≤ base) (hb' : base ≤ 16) (value : UInt64) :
    Printed base value (numeral base value) := by
  have hroom : value.toNat < base ^ numeralRoom :=
    calc value.toNat < 2 ^ 64 := value.toNat_lt
      _ ≤ 10 ^ numeralRoom := by decide
      _ ≤ base ^ numeralRoom := Nat.pow_le_pow_left hb _
  obtain ⟨cs, hcs : digitsBefore base numeralRoom value.toNat [] = some cs⟩ :=
    Option.isSome_iff_exists.1 (digitsBefore_isSome (by omega) hroom)
  have htext : numeral base value = String.ofList cs := by rw [numeral, hcs, Option.getD_some]
  rw [htext]
  refine ⟨canonical_ofList (by omega) hb' hcs, ?_, ?_⟩
  · rw [hcs, String.toList_ofList]
  · rw [String.length_ofList]
    exact length_digitsBefore hcs

end Digits

namespace Uefi.Services

/-- What is printed of a value is its decimal or its hexadecimal numeral. -/
theorem numerals_printed (efi : Services) (value : UInt64) :
    (∃ text, efi.printDecimal value = efi.call (.outputString text) ∧ Printed 10 value text) ∧
      ∃ text, efi.printHexadecimal value = efi.call (.outputString text) ∧
        Printed 16 value text :=
  ⟨⟨decimal value, rfl, printed_numeral (by decide) (by decide) value⟩,
    hexadecimal value, rfl, printed_numeral (by decide) (by decide) value⟩

/-- The largest value takes all the cells. -/
example : decimal 18446744073709551615 = "18446744073709551615" := by decide +kernel

end Uefi.Services

end Bootloader
