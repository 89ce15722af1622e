import Bootloader.Uefi.SizedQuery

/-!
# What a scripted firmware writes down

Each call is written down as an event, with what the firmware answered.  Texts that follow each
other on the same device are one event.
-/

namespace Bootloader.Scripted

open Uefi

/-- A call and its answer, as they are written down; `none` is the address of a failed
allocation. -/
inductive Event where
  | allocatePool (kind : UInt32) (size : UInt64) (status : Status) (address : Option UInt64)
  | freePool (buffer : UInt64) (status : Status)
  | allocatePages (placement kind : UInt32) (pages : UInt64) (status : Status)
      (address : Option UInt64)
  | freePages (address pages : UInt64) (status : Status)
  | getMemoryMap (size buffer : UInt64) (status : Status) (sizeAfter : UInt64)
  | handleProtocol (handle : UInt64) (protocol : Guid) (status : Status)
  | locateHandle (search : UInt32) (protocol : Guid) (size : UInt64) (status : Status)
      (sizeAfter : UInt64)
  | locateProtocol (protocol : Guid) (status : Status)
  | locateHandleBuffer (search : UInt32) (protocol : Guid) (status : Status) (count : UInt64)
  | openVolume (volume : Nat) (status : Status)
  | openFile (volume : Nat) (path : String) (mode attributes : UInt64) (status : Status)
  | closeRoot (volume : Nat)
  | closeFile (volume : Nat)
  | fileInfo (volume : Nat) (kind : Guid) (size buffer : UInt64) (status : Status)
      (sizeAfter : UInt64)
  | fileRead (volume : Nat) (size address : UInt64) (status : Status) (sizeAfter : UInt64)
  | exitBootServices (image key : UInt64) (status : Status)
  | stall (microseconds : UInt64)
  | print (text : String)
  | setColour (colour : UInt64)
  | clearScreen
  | debug (text : String)
  | enterCore (entry : UInt64) (info : BootInfo) (exited : Bool)
  | halt
  | query (size buffer : UInt64) (status : Status) (sizeAfter : UInt64)
  | padding
  | portWrite (port : UInt16) (value : UInt8)
  | serial (text : String)
deriving DecidableEq, Repr

/-- The events so far, the last one first. -/
abbrev Trace : Type := List Event

namespace Trace

/-- Writes an event down; a text is joined to the one before it. -/
def push : Trace → Event → Trace
  | .print before :: rest, .print text => .print (before ++ text) :: rest
  | .debug before :: rest, .debug text => .debug (before ++ text) :: rest
  | .serial before :: rest, .serial text => .serial (before ++ text) :: rest
  | trace, event => event :: trace

end Trace

end Bootloader.Scripted
