import Bootloader.Scripted.Bytes
import Bootloader.Scripted.Memory
import Bootloader.Scripted.Text
import Bootloader.Scripted.Trace
import Bootloader.Serial

/-!
# The state of a scripted firmware

A small firmware with a pool, pages, a memory map, volumes of files and a graphics device, and the
script that overrides the answers of its services, call by call.
-/

namespace Bootloader.Scripted

open Uefi

/-- The services whose answers may be overridden. -/
inductive Service where
  | allocatePool
  | freePool
  | allocatePages
  | freePages
  | getMemoryMap
  | handleProtocol
  | locateHandle
  | locateProtocol
  | locateHandleBuffer
  | openVolume
  | openFile
  | fileInfo
  | fileRead
  | exitBootServices
deriving DecidableEq, Repr

/-- An answer that a script lays down. -/
structure Override where
  status : Status := .success
  null : Bool := false
  size : Option UInt64 := none
  descriptorSize : Option UInt64 := none
  descriptorVersion : Option UInt32 := none
  key : Option UInt64 := none
  count : Option UInt64 := none
  amount : Option UInt64 := none
deriving Repr

/-- The overrides for calls to come; those of one service are used in order, and `none` leaves a
call as it is. -/
abbrev Script : Type := List (Service × Option Override)

/-- The override for the next call of a service, if there is one, and the script after that. -/
def Script.take (service : Service) : Script → Option Override × Script
  | [] => (none, [])
  | entry :: rest =>
    if entry.1 = service then (entry.2, rest)
    else
      let (override, rest) := take service rest
      (override, entry :: rest)

/-- A file of a volume: what its size is, what it is reported to be, and the room its description
needs. -/
structure File where
  path : String
  size : UInt64
  reportedSize : UInt64
  infoSize : UInt64
deriving Repr

/-- A volume. -/
structure Volume where
  hasFileSystem : Bool
  files : List File
deriving Repr

/-- A graphics device. -/
structure Graphics where
  mode : Option GraphicsMode
  onConsole : Bool
  locatable : Bool
  handles : Nat
deriving Repr

/-- The memory map a firmware reports. -/
structure MapSettings where
  descriptorSize : UInt64 := 48
  descriptorVersion : UInt32 := 1
  growth : UInt64 := 0
  rejectsZero : Bool := false
  nullOk : Bool := false
  service : Bool := true
deriving Repr

/-- What an interface stands for. -/
inductive Object where
  | graphics
  | fileSystem (volume : Nat)
  | root (volume : Nat)
  | file (volume : Nat) (file : File) (position : UInt64)
deriving Repr

/-- The ports under the serial line: its script, whether the divisor is mapped in, and how often
ports have been read. -/
structure Uart where
  script : ByteScript
  divisorMapped : Bool := false
  polls : UInt64 := 0
  isSetUp : Bool := false
deriving Repr

/-- A firmware, what it has given out, and what it has written down. -/
structure Machine where
  revision : UInt32 := 0x20046
  servicesRevision : UInt32 := 0x20046
  firmwareRevision : UInt32 := 0x10002
  vendor : Option String := some "ACME"
  consoleHandle : Bool := true
  poolLimit : UInt64 := 0x100000
  pageLimit : UInt64 := 0x10000
  zeroPagesOk : Bool := false
  map : MapSettings := {}
  graphics : Option Graphics := none
  tables : List ConfigurationEntry := []
  tableCount : Option Nat := none
  tablesNull : Bool := false
  volumes : List Volume := []
  script : Script := []
  entries : UInt64 := 10
  key : UInt64 := 1
  pool : List (UInt64 × UInt64) := []
  poolNext : UInt64 := 0x20000000
  pages : List (UInt64 × UInt64) := []
  pagesNext : UInt64 := 0x100000000
  memory : Memory := {}
  objects : Array Object := #[.graphics]
  openFiles : Nat := 0
  exited : Bool := false
  uart : Option Uart := none
  trace : Trace := []

/-- The handle of the loader's own image. -/
def imageHandle : UInt64 := 0x11

/-- The handle of the console. -/
def consoleHandle : UInt64 := 0x22

/-- The handle of the graphics device. -/
def graphicsHandle : UInt64 := 0x33

/-- The handle of the first volume. -/
def firstVolumeHandle : UInt64 := 0x1000

/-- The address of the system table. -/
def systemTableAddress : UInt64 := 0x10000000

namespace Machine

/-- The machine with another configuration table, all of which is published. -/
def publish (m : Machine) (tables : List ConfigurationEntry) : Machine :=
  { m with tables, tableCount := none, tablesNull := false }

/-- Something done by the machine. -/
abbrev Does : Type → Type := StateM Machine

/-- Writes an event down. -/
def note (event : Event) : Does Unit :=
  modify fun m => { m with trace := m.trace.push event }

/-- The override for this call of a service. -/
def override (service : Service) : Does (Option Override) :=
  modifyGet fun m =>
    let (entry, script) := m.script.take service
    (entry, { m with script })

/-- Whether an override takes the place of the call. -/
def refusal (entry : Option Override) : Option Override :=
  entry.filter (·.status.isError)

/-- What a call that went well returns. -/
def settled (entry : Option Override) : Status := (entry.map (·.status)).getD .success

/-- Whether an override asks for a null result. -/
def asksNull (entry : Option Override) : Bool := (entry.map (·.null)).getD false

/-- An allocation makes the memory map longer and its key another. -/
def countAllocation : Does Unit :=
  modify fun m => { m with entries := m.entries + 1, key := m.key + 1 }

/-- A release makes the key of the memory map another. -/
def countRelease : Does Unit :=
  modify fun m => { m with key := m.key + 1 }

/-- Allocations, by ascending address, with one more; it takes the place of one at its address. -/
def allocated (address amount : UInt64) : List (UInt64 × UInt64) → List (UInt64 × UInt64)
  | [] => [(address, amount)]
  | entry :: rest =>
    if address < entry.1 then (address, amount) :: entry :: rest
    else if address = entry.1 then (address, amount) :: rest
    else entry :: allocated address amount rest

/-- The address space taken by an allocation from the pool. -/
def poolSpace (size : UInt64) : UInt64 := if size = 0 then 16 else (size + 15) / 16 * 16

/-- The address space taken by a run of pages. -/
def pageSpace (pages : UInt64) : UInt64 := (if pages = 0 then 1 else pages) * pageBytes
where
  /-- The bytes of a page. -/
  pageBytes : UInt64 := 4096

end Machine

end Bootloader.Scripted
