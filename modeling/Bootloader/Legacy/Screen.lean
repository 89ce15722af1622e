import Bootloader.Buffer
import Bootloader.Bytes

/-!
# Text on the screen

The screen is memory: 25 rows of 80 cells, each a character and the byte for its colours.  A
`Console` writes to it from the top and starts again there when it has come to the end.
-/

namespace Bootloader.Legacy

/-- Where text goes next, and in what colours. -/
structure Console where
  base : Nat
  position : Nat := 0
  colour : UInt8 := 0x07
deriving DecidableEq, Repr

namespace Console

/-- The cells of a row. -/
def columns : Nat := 80

/-- The rows. -/
def rows : Nat := 25

/-- All cells. -/
def cells : Nat := columns * rows

/-- A line feed. -/
def lineFeed : UInt8 := 10

/-- Back to the top after the last cell. -/
def wrap (position : Nat) : Nat := if cells ≤ position then 0 else position

/-- Writes a character; a line feed leaves the rest of its row as it is. -/
def put (c : Console) (byte : UInt8) (memory : Buffer) : Console × Buffer :=
  if byte = lineFeed then
    ({ c with position := wrap ((c.position / columns + 1) * columns) }, memory)
  else
    ({ c with position := wrap (c.position + 1) },
      memory.write (c.base + 2 * c.position) [byte, c.colour])

/-- Writes some characters. -/
def putAll (c : Console) : List UInt8 → Buffer → Console × Buffer
  | [], memory => (c, memory)
  | byte :: rest, memory =>
    let (c, memory) := c.put byte memory
    c.putAll rest memory

/-- Writes a text. -/
def write (c : Console) (text : String) (memory : Buffer) : Console × Buffer :=
  c.putAll (textBytes text) memory

end Console

end Bootloader.Legacy
