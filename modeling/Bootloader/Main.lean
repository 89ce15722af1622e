import Bootloader.ImageTool

/-!
# The image tool on the command line

The outer layer of the image tool: it reads and writes real files.
-/

namespace Bootloader

/-- Does what the tool asks for. -/
def Files.Call.perform : (q : Files.Call) → IO q.Reply
  | .read name => do
    match ← (IO.FS.Handle.mk name .read).toBaseIO with
    | .error _ => return .error .cannotOpen
    | .ok handle =>
      match ← handle.readBinToEnd.toBaseIO with
      | .error _ => return .error .failed
      | .ok content => return .ok content.toList
  | .write name content => do
    match ← (IO.FS.Handle.mk name .write).toBaseIO with
    | .error _ => return .error .cannotCreate
    | .ok handle =>
      match ← (do handle.write ⟨content.bytes⟩; handle.flush : IO Unit).toBaseIO with
      | .error _ => return .error .failed
      | .ok () => return .ok ()
  | .printOut text => IO.print text
  | .printError text => IO.eprint text

/-- Carries a program out on real files. -/
def Program.perform {α : Type} : Program Files α → IO (Option α)
  | done a => return some a
  | stop => return none
  | ask q next => do (next (← q.perform)).perform

end Bootloader

/-- Checks images and makes them. -/
def main (arguments : List String) : IO UInt32 := do
  let status ← (Bootloader.ImageTool.run "lbl-mkimage" arguments).perform
  return UInt32.ofNat (status.getD 1)
