/-!
# Buffers

A row of bytes that are read and written by their number.  Nothing is written past its end, and
what is read there is zero.  `get_set` says what a write does to each byte, and the operations on
many bytes are made of single writes.
-/

namespace Bootloader

/-- A row of bytes. -/
structure Buffer where
  bytes : Array UInt8
deriving DecidableEq, Repr

namespace Buffer

/-- A row of zeros. -/
def zeros (size : Nat) : Buffer := ⟨Array.replicate size 0⟩

/-- The number of bytes. -/
def size (b : Buffer) : Nat := b.bytes.size

/-- The byte at a place. -/
def get (b : Buffer) (i : Nat) : UInt8 := b.bytes.getD i 0

/-- Writes a byte. -/
def set (b : Buffer) (i : Nat) (value : UInt8) : Buffer := ⟨b.bytes.setIfInBounds i value⟩

/-- Writes some bytes from a place upwards. -/
def write (b : Buffer) (i : Nat) : List UInt8 → Buffer
  | [] => b
  | value :: rest => (b.set i value).write (i + 1) rest

/-- Some bytes from a place upwards. -/
def read (b : Buffer) (i : Nat) : (count : Nat) → List UInt8
  | 0 => []
  | count + 1 => b.get i :: b.read (i + 1) count

/-- Gives some bytes from a place upwards one value. -/
def fill (b : Buffer) (i : Nat) (value : UInt8) : (count : Nat) → Buffer
  | 0 => b
  | count + 1 => (b.set i value).fill (i + 1) value count

/-- Gives some bytes from a place upwards the low byte of a number, which may be negative. -/
def fillLow (b : Buffer) (i : Nat) (value : Int32) (count : Nat) : Buffer :=
  b.fill i value.toUInt32.toUInt8 count

/-- Copies some bytes, one after the other, upwards. -/
def copy (b : Buffer) (target source : Nat) : (count : Nat) → Buffer
  | 0 => b
  | count + 1 => (b.set target (b.get source)).copy (target + 1) (source + 1) count

@[simp] theorem size_set (b : Buffer) (i : Nat) (value : UInt8) : (b.set i value).size = b.size := by
  simp [set, size]

theorem get_set (b : Buffer) (i j : Nat) (value : UInt8) :
    (b.set i value).get j = if i = j ∧ i < b.size then value else b.get j := by
  simp only [get, set, size, Array.getD_eq_getD_getElem?, Array.getElem?_setIfInBounds]
  by_cases h : i = j
  · subst h
    by_cases hi : i < b.bytes.size <;> simp [hi]
  · simp [h]

@[simp] theorem size_zeros (n : Nat) : (zeros n).size = n := by simp [zeros, size]

@[simp] theorem get_zeros (n i : Nat) : (zeros n).get i = 0 := by
  simp only [zeros, get, Array.getD_eq_getD_getElem?, Array.getElem?_replicate]
  split <;> rfl

@[simp] theorem size_write (b : Buffer) (i : Nat) (values : List UInt8) :
    (b.write i values).size = b.size := by
  induction values generalizing b i with
  | nil => rfl
  | cons value rest ih => simp [write, ih]

@[simp] theorem size_fill (b : Buffer) (i : Nat) (value : UInt8) (count : Nat) :
    (b.fill i value count).size = b.size := by
  induction count generalizing b i with
  | zero => rfl
  | succ count ih => simp [fill, ih]

@[simp] theorem size_copy (b : Buffer) (target source count : Nat) :
    (b.copy target source count).size = b.size := by
  induction count generalizing b target source with
  | zero => rfl
  | succ count ih => simp [copy, ih]

end Buffer

end Bootloader
