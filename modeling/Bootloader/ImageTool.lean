import Bootloader.DiskImage
import Bootloader.Program

/-!
# The image tool

The command line by which images are checked and made:

* four names: make an image of the first three files and write it to the fourth;
* `--check-bootsect` or `--check-stage2` and a name: check one part.

It is a program over files and the two outputs (`Files`), and gives the exit status: 0, 1 for an
error, 2 for a command line of none of these forms.
-/

namespace Bootloader

/-- Why a file could not be read. -/
inductive ReadFailure where
  | cannotOpen
  | failed
deriving DecidableEq, Repr

/-- Why a file could not be written. -/
inductive WriteFailure where
  | cannotCreate
  | failed
deriving DecidableEq, Repr

namespace Files

/-- What the tool does to its surroundings. -/
inductive Call where
  | read (name : String)
  | write (name : String) (content : Buffer)
  | printOut (text : String)
  | printError (text : String)

/-- What each of them gives back. -/
abbrev Call.Reply : Call → Type
  | read _ => Except ReadFailure (List UInt8)
  | write .. => Except WriteFailure Unit
  | printOut _ => Unit
  | printError _ => Unit

end Files

/-- The files and the two outputs. -/
abbrev Files : Interface := ⟨Files.Call, Files.Call.Reply⟩

/-- What the tool reports. -/
inductive ToolError where
  | read (name : String) (failure : ReadFailure)
  | write (name : String) (failure : WriteFailure)
  | image (error : ImageError)
deriving DecidableEq, Repr

/-- What the user is told. -/
def ToolError.message : ToolError → String
  | read name .cannotOpen => s!"cannot open {name}"
  | read name .failed => s!"error reading {name}"
  | write name .cannotCreate => s!"cannot create {name}"
  | write name .failed => s!"error writing {name}"
  | image error => error.message

namespace ImageTool

/-- A step that may fail. -/
abbrev Step : Type → Type := ExceptT ToolError (Program Files)

/-- A request to the surroundings. -/
def ask (q : Files.Call) : Program Files q.Reply := Program.request (I := Files) q

/-- Reads a file. -/
def read (name : String) : Step (List UInt8) := ExceptT.mk do
  return (← ask (.read name)).mapError (.read name)

/-- Writes a file. -/
def write (name : String) (content : Buffer) : Step Unit := ExceptT.mk do
  return (← ask (.write name content)).mapError (.write name)

/-- Goes on unless something stands against an image. -/
def accept {α : Type} (result : Except ImageError α) : Step α :=
  ExceptT.mk (.done (result.mapError .image))

/-- What is said of an image that has been written. -/
def summary (name : String) (layout : DiskLayout) (disk : Buffer) : String :=
  let sectors := disk.size / DiskImage.sectorBytes
  let stage2 := layout.stage2Start
  let core := layout.coreStart
  s!"{name}: {sectors} sectors (stage 2 at LBA {stage2}, core at LBA {core})\n"

/-- Makes an image.  The files are read from the last to the first. -/
def make (layout : DiskLayout) (bootSector stage2 core image : String) : Step Unit := do
  let coreBytes ← read core
  let stage2Bytes ← read stage2
  let bootBytes ← read bootSector
  let disk ← accept (DiskImage.assemble bootBytes stage2Bytes coreBytes layout)
  write image disk
  ExceptT.lift (ask (.printOut (summary image layout disk)))

/-- Checks a boot sector. -/
def checkBootSector (name : String) : Step Unit := do
  accept (DiskImage.checkBootSector (← read name))

/-- Checks a second stage. -/
def checkStage2 (layout : DiskLayout) (name : String) : Step Unit := do
  accept (DiskImage.checkFits (← read name) layout.stage2Sectors "stage 2")

/-- What the user is told of the command line. -/
def usage (tool : String) : String :=
  s!"Usage:\n  {tool} <bootsect.bin> <stage2.bin> <core.bin> <disk.img>\n" ++
  s!"  {tool} --check-bootsect <bootsect.bin>\n" ++
  s!"  {tool} --check-stage2 <stage2.bin>\n"

/-- Carries a step out and gives the exit status. -/
def finish (tool : String) (step : Step Unit) : Program Files Nat := do
  match ← step.run with
  | .ok () => return 0
  | .error e =>
    ask (.printError (tool ++ ": " ++ e.message ++ "\n"))
    return 1

/-- The forms of the command line. -/
inductive Form where
  | checkBootSector (name : String)
  | checkStage2 (name : String)
  | make (bootSector stage2 core image : String)
deriving DecidableEq, Repr

/-- The form of a command line, if it has one. -/
def Form.parse? : List String → Option Form
  | [option, name] =>
    if option = "--check-bootsect" then some (.checkBootSector name)
    else if option = "--check-stage2" then some (.checkStage2 name)
    else none
  | [bootSector, stage2, core, image] => some (.make bootSector stage2 core image)
  | _ => none

/-- What a form asks for. -/
def Form.step (layout : DiskLayout) : Form → Step Unit
  | checkBootSector name => ImageTool.checkBootSector name
  | checkStage2 name => ImageTool.checkStage2 layout name
  | make bootSector stage2 core image => ImageTool.make layout bootSector stage2 core image

/-- The tool; the exit status. -/
def run (tool : String) (arguments : List String) : Program Files Nat :=
  match Form.parse? arguments with
  | some form => finish tool (form.step .default)
  | none => do
    ask (.printError (usage tool))
    return 2

end ImageTool

end Bootloader
