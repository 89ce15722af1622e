/-!
# Text that ends at a zero

A text handed over by its address alone ends at its first zero character.
-/

namespace Bootloader.Scripted

/-- A text up to its first zero. -/
def upToZero (text : String) : String :=
  String.ofList (text.toList.takeWhile (fun c => c.toNat ≠ 0))

end Bootloader.Scripted
