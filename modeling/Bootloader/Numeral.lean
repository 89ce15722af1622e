/-!
# Numerals

The numerals the loader prints.  A numeral is written from its units upwards into the end of a
small row of cells; `digitsBefore` keeps count of the cells that are left and gives `none` if it
would need one more than there are.
-/

namespace Bootloader

/-- The code of the character for a digit: figures up to nine, then letters from `A`.  The code of a
value that is no digit wraps at 2^32. -/
def digitCode (value : Int32) : UInt32 :=
  if value < 10 then '0'.val + value.toUInt32 else 'A'.val + value.toUInt32 - 10

/-- The character for a digit. -/
def digitChar (value : Nat) : Char := Char.ofNat (digitCode (Int32.ofNat value)).toNat

/-- The digits of `value` in front of `tail`, written from the units upwards into `room` cells. -/
def digitsBefore (base : Nat) : (room value : Nat) → List Char → Option (List Char)
  | 0, _, _ => none
  | room + 1, value, tail =>
    let tail := digitChar (value % base) :: tail
    if value / base = 0 then some tail else digitsBefore base room (value / base) tail

/-- The number of cells a numeral is written into, its terminator not counted. -/
def numeralRoom : Nat := 20

/-- The numeral of a 64-bit value in a base of ten or more. -/
def numeral (base : Nat) (value : UInt64) : String :=
  String.ofList ((digitsBefore base numeralRoom value.toNat []).getD [])

/-- The decimal numeral. -/
def decimal (value : UInt64) : String := numeral 10 value

/-- The hexadecimal numeral, in capital letters. -/
def hexadecimal (value : UInt64) : String := numeral 16 value

end Bootloader
