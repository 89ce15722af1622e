/-!
# Little-endian bytes

How a number lies in memory: `littleEndian k n` is its `k` low bytes, the lowest first, and
`ofLittleEndian` reads them back.
-/

namespace Bootloader

/-- The `k` low bytes of a number, the lowest first. -/
def littleEndian : (k n : Nat) → List UInt8
  | 0, _ => []
  | k + 1, n => UInt8.ofNat n :: littleEndian k (n / 256)

/-- The number whose bytes these are, the lowest first. -/
def ofLittleEndian : List UInt8 → Nat
  | [] => 0
  | b :: bs => b.toNat + 256 * ofLittleEndian bs

@[simp] theorem length_littleEndian (k n : Nat) : (littleEndian k n).length = k := by
  induction k generalizing n with
  | zero => rfl
  | succ k ih => simp [littleEndian, ih]

/-- The bytes of a 16-bit word. -/
def bytes16 (n : UInt16) : List UInt8 := littleEndian 2 n.toNat

/-- The bytes of a 32-bit word. -/
def bytes32 (n : UInt32) : List UInt8 := littleEndian 4 n.toNat

/-- The bytes of a 64-bit word. -/
def bytes64 (n : UInt64) : List UInt8 := littleEndian 8 n.toNat

@[simp] theorem length_bytes16 (n : UInt16) : (bytes16 n).length = 2 := length_littleEndian ..

@[simp] theorem length_bytes32 (n : UInt32) : (bytes32 n).length = 4 := length_littleEndian ..

@[simp] theorem length_bytes64 (n : UInt64) : (bytes64 n).length = 8 := length_littleEndian ..

/-- The bytes of a text, up to a zero byte. -/
def textBytes (text : String) : List UInt8 := text.toUTF8.toList.takeWhile (· ≠ 0)

end Bootloader
