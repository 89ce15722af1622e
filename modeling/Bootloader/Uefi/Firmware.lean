import Bootloader.Program
import Bootloader.Uefi.BootInfo
import Bootloader.Uefi.Guid
import Bootloader.Uefi.PixelFormat
import Bootloader.Uefi.Status

/-!
# The firmware as the loader sees it

`Call` lists all that a UEFI loader does to its surroundings: calls of boot services, of the
console and of files, reads of memory that the firmware has filled, and the few steps that go past
the firmware (the serial port, the jump to the core, the halt).  `Call.Reply` is what comes back;
an address, a handle or an interface is a number, and zero stands for none.

`SystemTable` is what the firmware publishes in memory and the loader only looks at.
-/

namespace Bootloader.Uefi

/-- Where a search for handles is to leave them: in the caller's own room for one handle, or in a
buffer from the pool. -/
inductive HandleBuffer where
  | single
  | pool (address : UInt64)
deriving DecidableEq, Repr

/-- A status and the value that came with it. -/
structure Answer (α : Type) where
  status : Status
  value : α
deriving DecidableEq, Repr

/-- A list of handles that the firmware has allocated. -/
structure HandleList where
  count : UInt64
  buffer : UInt64
deriving DecidableEq, Repr

/-- The outputs of a search for handles: the size of the list, and what the room for one handle
holds afterwards. -/
structure HandleSearch where
  size : UInt64
  single : UInt64
deriving DecidableEq, Repr

/-- The outputs of a call for the memory map: the size, and those of the others that were
written. -/
structure MapOutputs where
  size : UInt64
  key : Option UInt64
  descriptorSize : Option UInt64
  descriptorVersion : Option UInt32
deriving DecidableEq, Repr

/-- What the loader does to its surroundings. -/
inductive Call where
  | allocatePool (kind : UInt32) (size : UInt64)
  | freePool (buffer : UInt64)
  | allocatePages (placement kind : UInt32) (pages : UInt64)
  | freePages (address pages : UInt64)
  | getMemoryMap (size buffer : UInt64)
  | handleProtocol (handle : UInt64) (protocol : Guid)
  | locateHandle (search : UInt32) (protocol : Guid) (size : UInt64) (buffer : HandleBuffer)
  | locateProtocol (protocol : Guid)
  | locateHandleBuffer (search : UInt32) (protocol : Guid)
  | openVolume (fileSystem : UInt64)
  | openFile (root : UInt64) (path : String) (mode attributes : UInt64)
  | closeFile (file : UInt64)
  | fileInfo (file : UInt64) (kind : Guid) (size buffer : UInt64)
  | fileRead (file size address : UInt64)
  | exitBootServices (image key : UInt64)
  | stall (microseconds : UInt64)
  | outputString (text : String)
  | setColour (colour : UInt64)
  | clearScreen
  | load (address : UInt64)
  | debugWrite (text : String)
  | enterCore (entry : UInt64) (info : BootInfo)
  | halt
deriving DecidableEq, Repr

/-- What each call gives back; calls of the console are not asked how they went. -/
abbrev Call.Reply : Call → Type
  | allocatePool .. => Answer UInt64
  | freePool .. => Status
  | allocatePages .. => Answer UInt64
  | freePages .. => Status
  | getMemoryMap .. => Answer MapOutputs
  | handleProtocol .. => Answer UInt64
  | locateHandle .. => Answer HandleSearch
  | locateProtocol .. => Answer UInt64
  | locateHandleBuffer .. => Answer HandleList
  | openVolume .. => Answer UInt64
  | openFile .. => Answer UInt64
  | closeFile .. => Unit
  | fileInfo .. => Answer UInt64
  | fileRead .. => Answer UInt64
  | exitBootServices .. => Status
  | stall .. => Unit
  | outputString .. => Unit
  | setColour .. => Unit
  | clearScreen => Unit
  | load .. => UInt64
  | debugWrite .. => Unit
  | enterCore .. => Unit
  | halt => Unit

/-- The firmware and the machine under it. -/
abbrev Firmware : Interface := ⟨Call, Call.Reply⟩

/-- What a part of the loader does. -/
abbrev Action : Type → Type := Program Firmware

/-- One step, whatever state the services are in. -/
def perform (q : Call) : Action q.Reply := Program.request (I := Firmware) q

/-- Memory of the loader that holds code. -/
def loaderCode : UInt32 := 1

/-- Memory of the loader that holds data. -/
def loaderData : UInt32 := 2

/-- Pages may come from anywhere. -/
def anyPages : UInt32 := 0

/-- Handles are looked for by a protocol they support. -/
def byProtocol : UInt32 := 2

/-- Files are opened to be read. -/
def readMode : UInt64 := 1

/-- An entry of the configuration table. -/
structure ConfigurationEntry where
  guid : Guid
  table : UInt64
deriving DecidableEq, Repr

/-- What the firmware publishes: its revisions and its name, the handle of the console, whether its
boot services have a memory map to offer, the configuration table, and the mode of each graphics
interface, if it has one. -/
structure SystemTable where
  address : UInt64
  revision : UInt32
  firmwareRevision : UInt32
  vendor : Option String
  consoleHandle : UInt64
  servicesRevision : UInt32
  offersMemoryMap : Bool
  configuration : Option (List ConfigurationEntry)
  graphicsMode : UInt64 → Option GraphicsMode

end Bootloader.Uefi
