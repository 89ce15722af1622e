import Bootloader.Uefi.Pages
import Bootloader.Uefi.SizedQuery

/-!
# Finding the core

The core is a file.  `loadFile` loads one from a volume into a fresh run of pages; the volume and
the file are closed again however it ends, the file first.  `findCore` tries the volumes in the
order in which the firmware lists them, reports on each of them, and stops at the first that
yields the file.
-/

namespace Bootloader.Uefi

/-- Where the core is looked for on each volume. -/
def corePath : String := "\\LBL\\CORE\\lbl_core.bin"

/-- Why a file could not be loaded. -/
inductive LoadFailure where
  | noFileSystem (status : Status)
  | cannotOpenVolume (status : Status)
  | cannotOpenFile (status : Status)
  | cannotGetSize
  | emptyFile
  | outOfMemory
  | readFailed (status : Status)
  | shortRead
deriving DecidableEq, Repr

/-- The run of pages that holds the core, and the number of bytes of it that are the core's. -/
structure CoreImage where
  pages : PageRun := {}
  size : UInt64 := 0
deriving DecidableEq, Repr

/-- The room first offered for the record that describes a file. -/
def fileInfoRoom : UInt64 := 128

/-- The distance of the file's size from the start of the record that describes the file. -/
def fileSizeOffset : UInt64 := 8

/-- Reads a file to an address: the status and the number of bytes read. -/
def fileRead (file size address : UInt64) : Action (Answer UInt64) :=
  perform (.fileRead file size address)

namespace Services

variable (efi : Services)

/-- The record that describes an open file, in a buffer from the pool; zero if there is none. -/
def fileInfo (file : UInt64) : Action UInt64 := do
  let (outcome, _) ← (sizedQuery fileInfoRoom).via
    (efi.measured (fun size buffer _ => do
      return (← perform (.fileInfo file .fileInfo size buffer), ())) (fun _ => 0)) ()
  match outcome with
  | .filled result => return result.buffer
  | _ => return 0

/-- The size of an open file. -/
def fileSize (file : UInt64) : Action (Option UInt64) := do
  let record ← efi.fileInfo file
  if record = 0 then return none
  let size ← perform (.load (record + fileSizeOffset))
  efi.free record
  return some size

/-- Fills a fresh run of pages with an open file.  `pages` is what the caller's run was before; the
run it is afterwards comes with the result. -/
def loadOpenFile (file : UInt64) (pages : PageRun) :
    Action (Except LoadFailure UInt64 × PageRun) := do
  match ← efi.fileSize file with
  | none => return (.error .cannotGetSize, pages)
  | some size =>
    if size = 0 then return (.error .emptyFile, pages)
    match ← efi.replacePages pages (pagesForBytes size) with
    | none => return (.error .outOfMemory, pages)
    | some run =>
      let got ← fileRead file size run.address
      if got.status.isError then return (.error (.readFailed got.status), run)
      if got.value = size then return (.ok size, run)
      return (.error .shortRead, run)

/-- Loads a file from the root of a volume. -/
def loadFromRoot (root : UInt64) (path : String) (pages : PageRun) :
    Action (Except LoadFailure UInt64 × PageRun) := do
  let file ← perform (.openFile root path readMode 0)
  if file.status.isError || file.value == 0 then
    return (.error (.cannotOpenFile file.status), pages)
  let result ← efi.loadOpenFile file.value pages
  perform (.closeFile file.value)
  return result

/-- Loads a file from a device: the number of its bytes, and the run of pages that the caller has
afterwards. -/
def loadFile (device : UInt64) (path : String) (pages : PageRun) :
    Action (Except LoadFailure UInt64 × PageRun) := do
  let fileSystem ← efi.call (.handleProtocol device .simpleFileSystem)
  if fileSystem.status.isError || fileSystem.value == 0 then
    return (.error (.noFileSystem fileSystem.status), pages)
  let root ← perform (.openVolume fileSystem.value)
  if root.status.isError || root.value == 0 then
    return (.error (.cannotOpenVolume root.status), pages)
  let result ← efi.loadFromRoot root.value path pages
  perform (.closeFile root.value)
  return result

/-- Adds the status of a failure to its report, unless it is zero. -/
def printStatus (status : Status) : Action Unit := do
  if status.code ≠ 0 then
    efi.print " (status "
    efi.printHexadecimal status.code
    efi.print ")"

/-- Reports why a volume did not yield the file. -/
def explain : LoadFailure → Action Unit
  | .noFileSystem status => do
    efi.print "no file system"
    efi.printStatus status
  | .cannotOpenVolume status => do
    efi.print "can't open volume"
    efi.printStatus status
  | .cannotOpenFile status => do
    if status = .notFound then
      efi.print "not found"
    else
      efi.print "can't open file"
      efi.printStatus status
  | .cannotGetSize => efi.print "can't get file size"
  | .emptyFile => efi.print "file is empty"
  | .outOfMemory => efi.print "out of memory"
  | .readFailed status => do
    efi.print "read error"
    efi.printStatus status
  | .shortRead => efi.print "short read"

/-- Tries one volume of a list of handles: the image, if the volume yields the file.  A run of pages
that a failed attempt has got is given back. -/
def tryVolume (handles number : UInt64) (path : String) : Action (Option CoreImage) := do
  efi.print "Volume "
  efi.printDecimal number
  efi.print ": "
  let device ← perform (.load (handles + 8 * number))
  match ← efi.loadFile device path {} with
  | (.ok size, run) =>
    efi.print "loaded "
    efi.printDecimal size
    efi.print " bytes\r\n"
    return some ⟨run, size⟩
  | (.error failure, run) =>
    efi.explain failure
    efi.print "\r\n"
    efi.dropPages run
    return none

/-- Tries the volumes of a list of handles, from `number` on; `left` of them are left. -/
def tryVolumes (handles : UInt64) (path : String) :
    (left : Nat) → (number : UInt64) → Action (Option CoreImage)
  | 0, _ => return none
  | left + 1, number => do
    match ← efi.tryVolume handles number path with
    | some image => return some image
    | none => tryVolumes handles path left (number + 1)

/-- Looks for the core on all volumes.  The image found takes the place of `image`, whose pages are
given back. -/
def findCore (path : String) (image : CoreImage) : Action (Status × CoreImage) := do
  let handles ← efi.call (.locateHandleBuffer byProtocol .simpleFileSystem)
  if handles.status.isError || handles.value.buffer == 0 then
    efi.print "No file system volumes found.\r\n"
    return (.notFound, image)
  match ← efi.tryVolumes handles.value.buffer path handles.value.count.toNat 0 with
  | some found =>
    efi.dropPages image.pages
    efi.free handles.value.buffer
    return (.success, found)
  | none =>
    efi.free handles.value.buffer
    return (.notFound, image)

end Services

end Bootloader.Uefi
