import Bootloader.ImageTool
import Bootloader.Scripted.Path

/-!
# A store of files

Files to run the image tool on, with what the tool has said.  Besides the files of the store there
are the devices, which can be written to but keep nothing.
-/

namespace Bootloader.Scripted

/-- The files, each in its directory, and the two outputs. -/
structure FileStore where
  files : List ((Directory × String) × List UInt8) := []
  out : String := ""
  error : String := ""

namespace FileStore

/-- Reads a file.  A directory can be opened but has no bytes to give, and neither has a device
whose bytes do not end. -/
def read (s : FileStore) (path : String) : Except ReadFailure (List UInt8) :=
  match Place.ofPath path with
  | .file directory name =>
    match s.files.lookup (directory, name) with
    | some content => .ok content
    | none => .error .cannotOpen
  | .device .null => .ok []
  | .device _ | .directory _ => .error .failed
  | .nowhere => .error .cannotOpen

/-- The files after one has got new bytes. -/
def put (s : FileStore) (directory : Directory) (name : String) (content : List UInt8) :
    FileStore :=
  { s with
    files := ((directory, name), content) :: s.files.filter (·.1 != (directory, name)) }

/-- Writes a file. -/
def write (s : FileStore) (path : String) (content : List UInt8) :
    Except WriteFailure Unit × FileStore :=
  match Place.ofPath path with
  | .file directory name => (.ok (), s.put directory name content)
  | .device .full => (.error .failed, s)
  | .device _ => (.ok (), s)
  | .directory _ | .nowhere => (.error .cannotCreate, s)

/-- A store with some files; one that cannot be written is left out. -/
def holding (files : List (String × List UInt8)) : FileStore :=
  files.foldl (fun s file => (s.write file.1 file.2).2) {}

/-- What the store answers to each call. -/
def answer : (q : Files.Call) → FileStore → q.Reply × FileStore
  | .read path, s => (s.read path, s)
  | .write path content, s => s.write path content.bytes.toList
  | .printOut text, s => ((), { s with out := s.out ++ text })
  | .printError text, s => ((), { s with error := s.error ++ text })

/-- Runs the image tool on the store. -/
def run (s : FileStore) (tool : String) (arguments : List String) : Option Nat × FileStore :=
  (ImageTool.run (upToZero tool) (arguments.map upToZero)).run answer s

end FileStore

end Bootloader.Scripted
