/-!
# Firmware statuses

A status is a 64-bit code.  Its top bit marks an error; a code that is neither zero nor an error
is a warning, and what a warning means is up to each caller.
-/

namespace Bootloader.Uefi

/-- The code a firmware service returns. -/
structure Status where
  code : UInt64
deriving DecidableEq, Repr

namespace Status

/-- The bit that marks an error. -/
def errorBit : UInt64 := 0x8000000000000000

/-- The `n`-th error. -/
def error (n : UInt64) : Status := ⟨errorBit + n⟩

/-- Errors have the top bit set. -/
def isError (s : Status) : Bool := s.code &&& errorBit != 0

def success : Status := ⟨0⟩
def loadError : Status := error 1
def invalidParameter : Status := error 2
def unsupported : Status := error 3
def bufferTooSmall : Status := error 5
def notReady : Status := error 6
def deviceError : Status := error 7
def outOfResources : Status := error 9
def volumeCorrupted : Status := error 10
def noMedia : Status := error 12
def notFound : Status := error 14
def aborted : Status := error 21

theorem isError_success : success.isError = false := rfl

end Status

end Bootloader.Uefi
