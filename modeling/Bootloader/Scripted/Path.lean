import Bootloader.Scripted.Text

/-!
# Where a name leads

The name of a file is a path: components between slashes, each looked up in the directory that the
ones before it lead to.  An empty component and `.` stay where they are, `..` goes up, and only a
directory can be gone through, so that a name with a slash at its end is not that of a file.
-/

namespace Bootloader.Scripted

/-- The devices that files can be. -/
inductive Device where
  /-- It has no bytes and takes any. -/
  | null
  /-- It has zeros without end and takes any bytes. -/
  | zero
  /-- It has zeros without end and takes no bytes. -/
  | full
deriving DecidableEq, Repr

/-- The device with a name. -/
def Device.named? : String → Option Device
  | "null" => some .null
  | "zero" => some .zero
  | "full" => some .full
  | _ => none

/-- The directories that are known: the one that names start from, the one that it lies in, the
root above them, and the one of the devices. -/
inductive Directory where
  | working
  | above
  | root
  | devices
deriving DecidableEq, Repr

/-- The directory that a directory lies in; the root lies in itself. -/
def Directory.parent : Directory → Directory
  | working => above
  | above => root
  | root => root
  | devices => root

/-- What a path may lead to: a directory, a file that is or may come to be in one, a device, or
nothing at all. -/
inductive Place where
  | directory (directory : Directory)
  | file (directory : Directory) (name : String)
  | device (device : Device)
  | nowhere
deriving DecidableEq, Repr

namespace Place

/-- The most bytes of a component. -/
def componentBytes : Nat := 255

/-- The most bytes of a path. -/
def pathBytes : Nat := 4095

/-- The place that one component leads to. -/
def step (from_ : Directory) (component : String) : Place :=
  if component = "" ∨ component = "." then .directory from_
  else if component = ".." then .directory from_.parent
  else if componentBytes < component.utf8ByteSize then .nowhere
  else match from_ with
    | .working | .above => .file from_ component
    | .root => if component = "dev" then .directory .devices else .nowhere
    | .devices => ((Device.named? component).map .device).getD .nowhere

/-- The place that some components lead to, one after the other. -/
def walk (from_ : Directory) : List String → Place
  | [] => .directory from_
  | [last] => step from_ last
  | component :: rest =>
    match step from_ component with
    | .directory next => walk next rest
    | _ => .nowhere

/-- The place that a path leads to; one that starts with a slash starts from the root. -/
def ofPath (path : String) : Place :=
  let path := upToZero path
  if path = "" ∨ pathBytes < path.utf8ByteSize then .nowhere
  else walk (if path.front = '/' then .root else .working) (path.splitOn "/")

end Place

end Bootloader.Scripted
