/-!
# Scripts of bytes

What a device says each time it is read: a list of values, each with the number of times it is
given.  The last value is given for ever.
-/

namespace Bootloader.Scripted

/-- Values, each with the number of times it is given; the last one is given for ever. -/
structure ByteScript where
  segments : List (UInt8 × Nat)
  default : UInt8 := 0
deriving Repr

namespace ByteScript

/-- The next value, and what is left of the segments. -/
def nextSegment (default : UInt8) : List (UInt8 × Nat) → UInt8 × List (UInt8 × Nat)
  | [] => (default, [])
  | [last] => (last.1, [last])
  | (_, 0) :: rest => nextSegment default rest
  | (value, n + 1) :: rest => (value, (value, n) :: rest)

/-- The next value, and the script from there on. -/
def next (script : ByteScript) : UInt8 × ByteScript :=
  let (value, segments) := nextSegment script.default script.segments
  (value, { script with segments })

end ByteScript

end Bootloader.Scripted
