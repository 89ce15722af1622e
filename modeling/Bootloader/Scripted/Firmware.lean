import Bootloader.Scripted.Machine
import Bootloader.Uefi.MemoryMap

/-!
# A scripted firmware

The services of a scripted firmware, to run the loader on.  An override that is an error takes the
place of the call; any other status takes the place of success.
-/

namespace Bootloader.Scripted

open Uefi

namespace Machine

/-- Memory from the pool, if that much may be had. -/
def takePool (size : UInt64) : Does (Option UInt64) := do
  let m ← get
  if size > m.poolLimit then return none
  set { m with
    pool := allocated m.poolNext size m.pool
    poolNext := m.poolNext + poolSpace size }
  countAllocation
  return some m.poolNext

def allocatePool (kind : UInt32) (size : UInt64) : Does (Answer UInt64) := do
  let entry ← override .allocatePool
  match refusal entry with
  | some o =>
    note (.allocatePool kind size o.status none)
    return ⟨o.status, 0⟩
  | none =>
    match ← takePool size with
    | none =>
      note (.allocatePool kind size .outOfResources none)
      return ⟨.outOfResources, 0⟩
    | some address =>
      note (.allocatePool kind size (settled entry) (some address))
      return ⟨settled entry, address⟩

def freePool (buffer : UInt64) : Does Status := do
  let entry ← override .freePool
  let status ← match refusal entry with
    | some o => pure o.status
    | none => do
      let m ← get
      if m.pool.any (·.1 == buffer) then
        set { m with pool := m.pool.filter (·.1 != buffer) }
        countRelease
        pure (settled entry)
      else
        pure .invalidParameter
  note (.freePool buffer status)
  return status

def allocatePages (placement kind : UInt32) (pages : UInt64) : Does (Answer UInt64) := do
  let entry ← override .allocatePages
  match refusal entry with
  | some o =>
    note (.allocatePages placement kind pages o.status none)
    return ⟨o.status, 0⟩
  | none =>
    let m ← get
    if pages > m.pageLimit || (pages == 0 && !m.zeroPagesOk) then
      note (.allocatePages placement kind pages .outOfResources none)
      return ⟨.outOfResources, 0⟩
    set { m with
      pages := allocated m.pagesNext pages m.pages
      pagesNext := m.pagesNext + pageSpace pages }
    countAllocation
    note (.allocatePages placement kind pages (settled entry) (some m.pagesNext))
    return ⟨settled entry, m.pagesNext⟩

def freePages (address pages : UInt64) : Does Status := do
  let entry ← override .freePages
  let status ← match refusal entry with
    | some o => pure o.status
    | none => do
      let m ← get
      if m.pages.contains (address, pages) then
        set { m with pages := m.pages.filter (· != (address, pages)) }
        countRelease
        pure (settled entry)
      else
        pure .notFound
  note (.freePages address pages status)
  return status

/-- The `i`-th descriptor of the memory map. -/
def descriptor (i : Nat) : List UInt8 :=
  littleEndian 8 (i % 15) ++ littleEndian 8 (i * 0x100000) ++ littleEndian 8 0 ++
    littleEndian 8 (256 + i) ++ littleEndian 8 0xF

/-- Writes the descriptors from the `i`-th on. -/
def writeDescriptors (buffer stride : UInt64) : (left i : Nat) → Memory → Memory
  | 0, _, memory => memory
  | left + 1, i, memory =>
    writeDescriptors buffer stride left (i + 1)
      (memory.write (buffer + UInt64.ofNat i * stride) (descriptor i))

/-- The memory map, as a firmware without a script would answer. -/
def plainMemoryMap (entry : Option Override) (size buffer : UInt64) :
    Does (Answer MapOutputs) := do
  let m ← get
  let stride := (entry.bind (·.descriptorSize)).getD m.map.descriptorSize
  let version := (entry.bind (·.descriptorVersion)).getD m.map.descriptorVersion
  if size == 0 && m.map.rejectsZero then
    return ⟨.invalidParameter, ⟨size, none, some stride, some version⟩⟩
  let needed := m.entries * stride
  if size < needed || (buffer == 0 && !m.map.nullOk) then
    set { m with entries := m.entries + m.map.growth }
    return ⟨.bufferTooSmall, ⟨needed, none, some stride, some version⟩⟩
  if stride ≥ descriptorBytes && buffer != 0 &&
      m.entries.toNat * stride.toNat ≤ size.toNat then
    set { m with memory := writeDescriptors buffer stride m.entries.toNat 0 m.memory }
  return ⟨settled entry,
    ⟨(entry.bind (·.size)).getD needed, some ((entry.bind (·.key)).getD m.key), some stride,
      some version⟩⟩

def getMemoryMap (size buffer : UInt64) : Does (Answer MapOutputs) := do
  let entry ← override .getMemoryMap
  let answer ← match refusal entry with
    | some o => pure ⟨o.status, ⟨o.size.getD size, none, o.descriptorSize, none⟩⟩
    | none => plainMemoryMap entry size buffer
  note (.getMemoryMap size buffer answer.status answer.value.size)
  return answer

/-- An interface for something new. -/
def newObject (object : Object) : Does UInt64 :=
  modifyGet fun m =>
    (UInt64.ofNat (m.objects.size + 1), { m with objects := m.objects.push object })

/-- What an interface stands for. -/
def object? (m : Machine) (interface : UInt64) : Option Object :=
  if interface = 0 then none else m.objects[interface.toNat - 1]?

/-- The interface of the graphics device. -/
def graphicsInterface : UInt64 := 1

/-- The number of the volume with a handle. -/
def volumeOf? (m : Machine) (handle : UInt64) : Option Nat :=
  if firstVolumeHandle ≤ handle ∧ (handle - firstVolumeHandle).toNat < m.volumes.length then
    some (handle - firstVolumeHandle).toNat
  else
    none

/-- The interface of a protocol on a handle. -/
def interfaceOn (handle : UInt64) (protocol : Guid) : Does (Option UInt64) := do
  let m ← get
  if protocol = .simpleFileSystem then
    match m.volumeOf? handle with
    | none => return none
    | some volume =>
      if (m.volumes[volume]?.map (·.hasFileSystem)).getD false then
        return some (← newObject (.fileSystem volume))
      return none
  else if protocol = .graphicsOutput then
    match m.graphics with
    | none => return none
    | some graphics =>
      if (handle == Scripted.consoleHandle && graphics.onConsole) || handle == graphicsHandle then
        return some graphicsInterface
      return none
  else
    return none

def handleProtocol (handle : UInt64) (protocol : Guid) : Does (Answer UInt64) := do
  let entry ← override .handleProtocol
  let answer ← match refusal entry with
    | some o => pure ⟨o.status, 0⟩
    | none => do
      if asksNull entry then
        pure ⟨settled entry, 0⟩
      else
        match ← interfaceOn handle protocol with
        | none => pure ⟨.unsupported, 0⟩
        | some interface => pure ⟨settled entry, interface⟩
  note (.handleProtocol handle protocol answer.status)
  return answer

/-- The handles that support the graphics protocol. -/
def graphicsHandles (count : Nat) : List UInt64 :=
  (List.range count).map fun i =>
    if i = 0 then graphicsHandle else graphicsHandle + 0x100 + UInt64.ofNat i

/-- A search for handles, as a firmware without a script would answer. -/
def plainLocateHandle (entry : Option Override) (protocol : Guid) (size : UInt64)
    (buffer : HandleBuffer) : Does (Answer HandleSearch) := do
  let m ← get
  let count := (m.graphics.map (·.handles)).getD 0
  if protocol ≠ .graphicsOutput ∨ count = 0 then
    return ⟨.notFound, ⟨size, 0⟩⟩
  let needed := UInt64.ofNat (8 * count)
  if size < needed then
    return ⟨.bufferTooSmall, ⟨needed, 0⟩⟩
  match buffer with
  | .single => return ⟨settled entry, ⟨needed, graphicsHandle⟩⟩
  | .pool address =>
    let handles := graphicsHandles (needed / 8).toNat
    set { m with memory := m.memory.write address (handles.flatMap bytes64) }
    return ⟨settled entry, ⟨needed, 0⟩⟩

def locateHandle (search : UInt32) (protocol : Guid) (size : UInt64) (buffer : HandleBuffer) :
    Does (Answer HandleSearch) := do
  let entry ← override .locateHandle
  let answer ← match refusal entry with
    | some o => pure ⟨o.status, ⟨o.size.getD size, 0⟩⟩
    | none => plainLocateHandle entry protocol size buffer
  note (.locateHandle search protocol size answer.status answer.value.size)
  return answer

def locateProtocol (protocol : Guid) : Does (Answer UInt64) := do
  let entry ← override .locateProtocol
  let answer ← match refusal entry with
    | some o => pure ⟨o.status, 0⟩
    | none => do
      let m ← get
      if asksNull entry then
        pure ⟨settled entry, 0⟩
      else if protocol = .graphicsOutput ∧ (m.graphics.map (·.locatable)).getD false then
        pure ⟨settled entry, graphicsInterface⟩
      else
        pure ⟨.notFound, 0⟩
  note (.locateProtocol protocol answer.status)
  return answer

/-- A list of the handles of all volumes, as a firmware without a script would answer. -/
def plainHandleBuffer (entry : Option Override) (protocol : Guid) : Does (Answer HandleList) := do
  let m ← get
  let count := UInt64.ofNat m.volumes.length
  if protocol ≠ .simpleFileSystem ∨ count = 0 then
    return ⟨.notFound, ⟨0, 0⟩⟩
  if asksNull entry then
    return ⟨settled entry, ⟨count, 0⟩⟩
  match ← takePool (8 * count) with
  | none => return ⟨.outOfResources, ⟨0, 0⟩⟩
  | some buffer =>
    let handles := (List.range m.volumes.length).map fun i => firstVolumeHandle + UInt64.ofNat i
    modify fun m => { m with memory := m.memory.write buffer (handles.flatMap bytes64) }
    return ⟨settled entry, ⟨(entry.bind (·.count)).getD count, buffer⟩⟩

def locateHandleBuffer (search : UInt32) (protocol : Guid) : Does (Answer HandleList) := do
  let entry ← override .locateHandleBuffer
  let answer ← match refusal entry with
    | some o => pure ⟨o.status, ⟨0, 0⟩⟩
    | none => plainHandleBuffer entry protocol
  note (.locateHandleBuffer search protocol answer.status answer.value.count)
  return answer

/-- A file or a volume that is open from now on. -/
def newOpen (object : Object) : Does UInt64 := do
  modify fun m => { m with openFiles := m.openFiles + 1 }
  newObject object

/-- The number of the volume that an interface belongs to. -/
def Object.volume : Object → Nat
  | .graphics => 0
  | .fileSystem volume => volume
  | .root volume => volume
  | .file volume .. => volume

/-- The number of the volume that an interface belongs to. -/
def volumeBehind (m : Machine) (interface : UInt64) : Nat :=
  ((m.object? interface).map Object.volume).getD 0

def openVolume (fileSystem : UInt64) : Does (Answer UInt64) := do
  let volume := (← get).volumeBehind fileSystem
  let entry ← override .openVolume
  let answer ← match refusal entry with
    | some o => pure ⟨o.status, 0⟩
    | none => do
      if asksNull entry then pure ⟨settled entry, 0⟩
      else pure ⟨settled entry, ← newOpen (.root volume)⟩
  note (.openVolume volume answer.status)
  return answer

/-- The first file of a volume with a path. -/
def file? (m : Machine) (volume : Nat) (path : String) : Option File := do
  (← m.volumes[volume]?).files.find? (·.path == path)

def openFile (root : UInt64) (path : String) (mode attributes : UInt64) :
    Does (Answer UInt64) := do
  let volume := (← get).volumeBehind root
  let path := upToZero path
  let entry ← override .openFile
  let answer ← match refusal entry with
    | some o => pure ⟨o.status, 0⟩
    | none => do
      if asksNull entry then pure ⟨settled entry, 0⟩
      else
        match (← get).file? volume path with
        | none => pure ⟨.notFound, 0⟩
        | some file => pure ⟨settled entry, ← newOpen (.file volume file 0)⟩
  note (.openFile volume path mode attributes answer.status)
  return answer

def closeFile (file : UInt64) : Does Unit := do
  match (← get).object? file with
  | some (.root volume) => note (.closeRoot volume)
  | some (.file volume ..) => note (.closeFile volume)
  | _ => pure ()
  modify fun m => { m with openFiles := m.openFiles - 1 }

/-- The description of a file: the size it asks for, the reported file size twice, and zeros for its
times and attributes. -/
def fileDescription (file : File) : List UInt8 :=
  bytes64 file.infoSize ++ bytes64 file.reportedSize ++ bytes64 file.reportedSize ++
    List.replicate (3 * timeBytes + attributeBytes) 0
where
  /-- The bytes of a time. -/
  timeBytes : Nat := 16
  /-- The bytes of the attributes. -/
  attributeBytes : Nat := 8

/-- Describes an open file, as far as the caller's buffer holds the description. -/
def fileInfo (file : UInt64) (kind : Guid) (size buffer : UInt64) : Does (Answer UInt64) := do
  let entry ← override .fileInfo
  match (← get).object? file with
  | some (.file volume description _) =>
    let answer ← match refusal entry with
      | some o => pure ⟨o.status, o.size.getD size⟩
      | none => do
        if size < description.infoSize then
          pure ⟨.bufferTooSmall, description.infoSize⟩
        else
          let record := (fileDescription description).take size.toNat
          modify fun m => { m with memory := m.memory.write buffer record }
          pure ⟨settled entry, description.infoSize⟩
    note (.fileInfo volume kind size buffer answer.status answer.value)
    return answer
  | _ => return ⟨.invalidParameter, size⟩

def fileRead (file size address : UInt64) : Does (Answer UInt64) := do
  let entry ← override .fileRead
  match (← get).object? file with
  | some (.file volume description position) =>
    let answer ← match refusal entry with
      | some o => pure ⟨o.status, size⟩
      | none => do
        let amount := min size (description.size - position)
        modify fun m => { m with
          objects := m.objects.setIfInBounds (file.toNat - 1)
            (.file volume description (position + amount)) }
        pure ⟨settled entry, (entry.bind (·.amount)).getD amount⟩
    note (.fileRead volume size address answer.status answer.value)
    return answer
  | _ => return ⟨.invalidParameter, size⟩

def exitBootServices (image key : UInt64) : Does Status := do
  let entry ← override .exitBootServices
  let m ← get
  let status := match entry with
    | some o => o.status
    | none => if image = imageHandle ∧ key = m.key then .success else .invalidParameter
  if !status.isError then set { m with exited := true }
  note (.exitBootServices image key status)
  return status

/-- A port of the serial line. -/
def accessPort : (q : PortAccess) → Does q.Reply
  | .read port =>
    modifyGet fun m =>
      match m.uart with
      | none => ((0 : UInt8), m)
      | some uart =>
        let (value, script) :=
          if port = Serial.lineStatus then uart.script.next else (0xFF, uart.script)
        ((value : UInt8), { m with uart := some { uart with script, polls := uart.polls + 1 } })
  | .write port value => do
    let m ← get
    match m.uart with
    | none => pure ()
    | some uart =>
      if port = Serial.base ∧ !uart.divisorMapped then
        note (.serial (String.singleton (Char.ofNat value.toNat)))
      else
        note (.portWrite port value)
      if port = Serial.base + 3 then
        modify fun m =>
          { m with uart := some { uart with divisorMapped := value &&& 0x80 != 0 } }

/-- Diagnostics go to the serial line, if there is one. -/
def debugWrite (text : String) : Does Unit := do
  match (← get).uart with
  | none => note (.debug (upToZero text))
  | some uart =>
    let ready ← fun m => (Serial.write uart.isSetUp text).run accessPort m
    let isSetUp := ready.getD uart.isSetUp
    modify fun m => { m with uart := m.uart.map fun uart => { uart with isSetUp } }

/-- What the machine answers to each call. -/
def answer : (q : Call) → Does q.Reply
  | .allocatePool kind size => allocatePool kind size
  | .freePool buffer => freePool buffer
  | .allocatePages placement kind pages => allocatePages placement kind pages
  | .freePages address pages => freePages address pages
  | .getMemoryMap size buffer => getMemoryMap size buffer
  | .handleProtocol handle protocol => handleProtocol handle protocol
  | .locateHandle search protocol size buffer => locateHandle search protocol size buffer
  | .locateProtocol protocol => locateProtocol protocol
  | .locateHandleBuffer search protocol => locateHandleBuffer search protocol
  | .openVolume fileSystem => openVolume fileSystem
  | .openFile root path mode attributes => openFile root path mode attributes
  | .closeFile file => closeFile file
  | .fileInfo file kind size buffer => fileInfo file kind size buffer
  | .fileRead file size address => fileRead file size address
  | .exitBootServices image key => exitBootServices image key
  | .stall microseconds => note (.stall microseconds)
  | .outputString text => note (.print (upToZero text))
  | .setColour colour => note (.setColour colour)
  | .clearScreen => note .clearScreen
  | .load address => do return (← get).memory.word address
  | .debugWrite text => debugWrite text
  | .enterCore entry info => do note (.enterCore entry info (← get).exited)
  | .halt => note .halt

/-- The mode of the graphics device behind an interface. -/
def graphicsMode (m : Machine) (interface : UInt64) : Option GraphicsMode := do
  match ← m.object? interface with
  | .graphics => (← m.graphics).mode
  | _ => none

/-- The configuration table, unless there is none. -/
def configuration (m : Machine) : Option (List ConfigurationEntry) :=
  if m.tablesNull || m.tables.isEmpty then none
  else some (m.tables.take (m.tableCount.getD m.tables.length))

/-- What the machine publishes. -/
def systemTable (m : Machine) : SystemTable where
  address := systemTableAddress
  revision := m.revision
  firmwareRevision := m.firmwareRevision
  vendor := m.vendor
  consoleHandle := if m.consoleHandle then Scripted.consoleHandle else 0
  servicesRevision := m.servicesRevision
  offersMemoryMap := m.map.service
  configuration := m.configuration
  graphicsMode := m.graphicsMode

/-- Runs a part of the loader on the machine. -/
def run {α : Type} (m : Machine) (action : Action α) : Option α × Machine :=
  Program.run answer action m

end Machine

end Bootloader.Scripted
