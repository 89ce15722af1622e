import Bootloader.Uefi.Services

/-!
# Runs of pages

A run of pages is known by its address and its length.  Whoever owns a run of no pages owns
nothing, so there is nothing to give back.
-/

namespace Bootloader.Uefi

/-- A run of pages; one of length zero is none at all. -/
structure PageRun where
  address : UInt64 := 0
  pages : UInt64 := 0
deriving DecidableEq, Repr

namespace PageRun

/-- Whether there are any pages. -/
def nonempty (run : PageRun) : Bool := run.pages != 0

/-- Whether the run came from an allocation, be it one of no pages. -/
def isSet (run : PageRun) : Bool := run != {}

end PageRun

/-- The bytes of a page. -/
def pageSize : UInt64 := 4096

/-- The pages that hold this many bytes; the sum wraps at 2^64. -/
def pagesForBytes (bytes : UInt64) : UInt64 := (bytes + pageSize - 1) / pageSize

namespace Services

variable (efi : Services)

/-- A run of pages from anywhere, for code. -/
def allocatePages (pages : UInt64) : Action (Option PageRun) := do
  let got ← efi.call (.allocatePages anyPages loaderCode pages)
  return if got.status.isError then none else some ⟨got.value, pages⟩

/-- Gives a run back, if it is one. -/
def dropPages (run : PageRun) : Action Unit :=
  if run.nonempty then do
    let _ ← efi.call (.freePages run.address run.pages)
  else
    .done ()

/-- Gives a buffer back, if it is one. -/
def dropBuffer (buffer : UInt64) : Action Unit :=
  if buffer ≠ 0 then efi.free buffer else .done ()

/-- Puts a fresh run in the place of an old one, which is given back after that. -/
def replacePages (old : PageRun) (pages : UInt64) : Action (Option PageRun) := do
  match ← efi.allocatePages pages with
  | none => return none
  | some run =>
    efi.dropPages old
    return some run

end Services

end Bootloader.Uefi
