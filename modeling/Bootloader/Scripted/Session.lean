import Bootloader.Scripted.Firmware
import Bootloader.Uefi.Boot
import Bootloader.Uefi.Heap

/-!
# Sessions on a scripted firmware

A session holds what the parts of the loader work on: one hold on the services, a core image, a
snapshot of the memory map, a record for the core, and runs of pages and buffers in numbered slots.
`Session.step` carries one command out on them.  A command that halts the machine has no reply; the
session goes on with what was there at the halt.
-/

namespace Bootloader.Scripted

open Uefi

/-- What a scripted query does with the size it is given, and the status it returns. -/
structure QueryStep where
  size : Option UInt64 := none
  add : UInt64 := 0
  status : Status := .success
deriving Repr

/-- What a scripted query does to the outside. -/
inductive QueryCall where
  | query (size buffer : UInt64) (answer : Answer UInt64)
  | padding
deriving Repr

/-- A scripted query is only written down. -/
abbrev QueryNotes : Interface := ⟨QueryCall, fun _ => Unit⟩

/-- What a session is asked to do. -/
inductive Command where
  | boot
  | findCore (path : String)
  | loadFile (handle : UInt64) (path : String) (slot : Nat) (wantsSize : Bool)
  | acquireMap
  | refreshMap
  | map
  | dropMap
  | mapEntries
  | initInfo
  | setMapInfo
  | info
  | exit
  | handOff (entryOffset : Option UInt64)
  | owned
  | fillFramebuffer
  | fillAcpi
  | findGraphics
  | locateProtocol (protocol : Guid)
  | findTable (guid : Guid)
  | giveUp
  | valid
  | check
  | systemTable
  | handles
  | print (text : String)
  | printDecimal (value : UInt64)
  | printHexadecimal (value : UInt64)
  | setColour (colour : UInt64)
  | allocate (size : UInt64) (slot : Nat)
  | free (slot : Nat)
  | scope (size : UInt64) (release move : Bool)
  | allocatePages (pages : UInt64) (slot : Nat)
  | run (slot : Nat)
  | resetRun (slot : Nat)
  | releaseRun (slot : Nat)
  | moveRun (source target : Nat)
  | runToCore (slot : Nat) (size : UInt64)
  | fileInfo (volume file : Nat)
  | fileRead (volume file : Nat) (amounts : List UInt64)
  | sizedQuery (initial padding : UInt64) (script : List QueryStep) (slot : Nat)
  | attach (attached : Bool)
  | heapAllocate (size : UInt64) (slot : Nat)
  | heapFree (slot : Nat)
  | abort
  | configure (update : Machine → Machine)
  | state

/-- What a command replies. -/
inductive Reply where
  | nothing
  | flag (value : Bool)
  | scope (before source target : Bool)
  | status (status : Status)
  | address (address : UInt64)
  | found (status : Status) (core : CoreImage)
  | loaded (result : Except LoadFailure UInt64) (size : UInt64) (run : PageRun)
  | acquired (outcome : MapOutcome) (map : MemoryMap)
  | refreshed (status : Status) (map : MemoryMap)
  | map (map : MemoryMap)
  | entries (entries : List (Option (UInt32 × UInt64 × UInt64)))
  | info (info : BootInfo)
  | exited (status : Status) (valid : Bool) (info : BootInfo)
  | owned (core : CoreImage) (buffer : UInt64) (valid : Bool)
  | framebuffer (found : Bool) (info : BootInfo)
  | acpi (found : Bool) (root : UInt64)
  | handles (image table : UInt64)
  | granted (granted : Bool) (run : PageRun)
  | run (run : PageRun)
  | released (taken left : PageRun)
  | moved (source target : PageRun)
  | core (core : CoreImage)
  | fileInfo (sizes : Option (UInt64 × UInt64))
  | reads (reads : List (Answer UInt64))
  | sized (outcome : SizedQuery.Outcome)
  | state (machine : Machine)

/-- What the parts of the loader work on. -/
structure Session where
  machine : Machine
  live : Bool := true
  attached : Bool := false
  core : CoreImage := {}
  map : MemoryMap := {}
  info : BootInfo := {}
  runs : Nat → PageRun := fun _ => {}
  buffers : Nat → UInt64 := fun _ => 0

namespace Session

/-- The hold on the services. -/
def efi (s : Session) : Services := ⟨imageHandle, s.machine.systemTable, s.live⟩

/-- The services that compiled code works with. -/
def attachment (s : Session) : Attached := if s.attached then some s.efi else none

/-- Puts a run of pages into a slot. -/
def setRun (s : Session) (slot : Nat) (run : PageRun) : Session :=
  { s with runs := fun i => if i = slot then run else s.runs i }

/-- Puts a buffer into a slot. -/
def setBuffer (s : Session) (slot : Nat) (buffer : UInt64) : Session :=
  { s with buffers := fun i => if i = slot then buffer else s.buffers i }

/-- Carries an action out, and then does something with its result. -/
def act {α : Type} (s : Session) (action : Action α)
    (finish : α → Session → Option Reply × Session) : Option Reply × Session :=
  match s.machine.run action with
  | (some a, machine) => finish a { s with machine }
  | (none, machine) => (none, { s with machine })

/-- Carries an action out whose result is the reply. -/
def tell {α : Type} (s : Session) (action : Action α) (reply : α → Reply) :
    Option Reply × Session :=
  s.act action fun a s => (some (reply a), s)

/-- The descriptors of the snapshot; one that does not lie in the buffer is not looked at. -/
def mapEntries (s : Session) : List (Option (UInt32 × UInt64 × UInt64)) :=
  if s.map.buffer = 0 then []
  else
    (List.range s.map.entryCount.toNat).map fun i =>
      let address := s.map.entryAddress (UInt64.ofNat i)
      if (i + 1) * s.map.descriptorSize.toNat ≤ s.map.bufferSize.toNat then
        some (s.machine.memory.halfWord address, s.machine.memory.word (address + 8),
          s.machine.memory.word (address + 24))
      else
        none

/-- A buffer with an owner of its own, which gives it back unless it is told to let it go. -/
def scope (efi : Services) (size : UInt64) (release move : Bool) : Action Reply := do
  let buffer ← efi.allocate size
  if release then
    return .flag (buffer != 0)
  efi.dropBuffer buffer
  if move then
    return .scope (buffer != 0) false (buffer != 0)
  return .flag (buffer != 0)

/-- An open file of a volume, for the session's own use. -/
def openDirectly (s : Session) (volume file : Nat) : Option UInt64 × Session :=
  match s.machine.volumes[volume]?.bind (·.files[file]?) with
  | none => (none, s)
  | some description =>
    let (handle, machine) := Machine.newOpen (.file volume description 0) s.machine
    (some handle, { s with machine })

/-- A file that the session opened for its own use does not stay open after a halt. -/
def letGoOfFile (s : Session) : Session :=
  { s with machine := { s.machine with openFiles := s.machine.openFiles - 1 } }

/-- The two sizes in the description of an open file, which is closed then. -/
def describe (efi : Services) (file : UInt64) : Action (Option (UInt64 × UInt64)) := do
  let record ← efi.fileInfo file
  if record = 0 then
    perform (.closeFile file)
    return none
  let size ← perform (.load record)
  let fileSize ← perform (.load (record + fileSizeOffset))
  efi.free record
  perform (.closeFile file)
  return some (size, fileSize)

/-- Reads some amounts, one after the other, to the same place. -/
def readAll (file : UInt64) : List UInt64 → Action (List (Answer UInt64))
  | [] => return []
  | amount :: rest => do
    let got ← Uefi.fileRead file amount 0x100000000
    return got :: (← readAll file rest)

/-- A scripted query: the size it is given is replaced, then added to. -/
def QueryStep.apply (step : QueryStep) (size : UInt64) : Answer UInt64 :=
  ⟨step.status, step.size.getD size + step.add⟩

/-- The requests of a measured query whose query follows a script. -/
def scriptedQuery (efi : Services) (padding : UInt64) :
    (q : SizedQuery.Request) → List QueryStep →
      Program (Firmware.either QueryNotes) (q.Reply × List QueryStep)
  | .allocate size, script => do return (← (efi.allocate size).widen, script)
  | .free buffer, script => do return (← (efi.free buffer).widen, script)
  | .query size buffer, script =>
    let answer := QueryStep.apply (script.headD {}) size
    .ask (.inr (.query size buffer answer)) fun _ => .done (answer, script.tail)
  | .padding, script => .ask (.inr .padding) fun _ => .done (padding, script)

/-- What the machine does with the requests of a scripted query. -/
def answerScripted :
    (q : (Firmware.either QueryNotes).Request) → Machine →
      (Firmware.either QueryNotes).Reply q × Machine
  | .inl q, m => Machine.answer q m
  | .inr (.query size buffer answer), m =>
    Machine.note (.query size buffer answer.status answer.value) m
  | .inr .padding, m => Machine.note .padding m

/-- Makes a scripted query. -/
def sizedQuery (s : Session) (initial padding : UInt64) (script : List QueryStep) (slot : Nat) :
    Option Reply × Session :=
  match ((sizedQueryInto {} initial).via (scriptedQuery s.efi padding) script).run answerScripted
      s.machine with
  | (none, machine) => (none, { s with machine })
  | (some ((outcome, record), _), machine) =>
    (some (.sized outcome), ({ s with machine }).setBuffer slot record.buffer)

/-- Carries out a command; there is no reply if the machine is halted. -/
def perform (s : Session) : Command → Option Reply × Session
  | .boot => s.act s.efi.boot fun ending s =>
    match ending with
    | .returned status => (some (.status status), s)
    | .halted final => (none, { s with live := final.efi.live })
  | .findCore path => s.act (s.efi.findCore path s.core) fun (status, core) s =>
    (some (.found status core), { s with core })
  | .loadFile handle path slot wantsSize =>
    s.act (s.efi.loadFile handle path (s.runs slot)) fun (result, run) s =>
      let size := match result with
        | .ok size => if wantsSize then size else 0
        | .error _ => 0
      (some (.loaded result size run), s.setRun slot run)
  | .acquireMap => s.act (s.efi.acquireMap s.map) fun (outcome, map) s =>
    (some (.acquired outcome map), { s with map })
  | .refreshMap => s.act (s.efi.refreshMap s.map) fun (status, map) s =>
    (some (.refreshed status map), { s with map })
  | .map => (some (.map s.map), s)
  | .dropMap =>
    ({ s with map := { s.map with buffer := 0 } }).act (s.efi.dropBuffer s.map.buffer) fun _ s =>
      (some (.map s.map), s)
  | .mapEntries => (some (.entries s.mapEntries), s)
  | .initInfo =>
    let info := BootInfo.forCore s.core.pages.address s.core.size systemTableAddress
    (some (.info info), { s with info })
  | .setMapInfo =>
    let info := s.info.withMap s.map
    (some (.info info), { s with info })
  | .info => (some (.info s.info), s)
  | .exit => s.act (s.efi.exitBootServices s.map s.info) fun exit s =>
    (some (.exited exit.status exit.efi.live exit.info),
      { s with live := exit.efi.live, map := exit.map, info := exit.info })
  | .handOff entryOffset =>
    let s := { s with
      info := { s.info with coreEntryOffset := entryOffset.getD s.info.coreEntryOffset } }
    s.act (s.efi.handOff s.core s.map s.info) fun final s =>
      (none, { s with
        live := final.efi.live, core := final.core, map := final.map, info := final.info })
  | .owned => (some (.owned s.core s.map.buffer s.live), s)
  | .fillFramebuffer => s.act (s.efi.fillFramebuffer s.info) fun (found, info) s =>
    (some (.framebuffer found info), { s with info })
  | .fillAcpi => s.act (s.efi.fillAcpi s.info) fun (found, info) s =>
    (some (.acpi found info.acpiRoot), { s with info })
  | .findGraphics => s.tell s.efi.findGraphics fun interface => .flag (interface != 0)
  | .locateProtocol protocol =>
    s.tell (s.efi.locateProtocol protocol) fun interface => .flag (interface != 0)
  | .findTable guid => s.tell (s.efi.findConfiguration guid) .address
  | .giveUp => (some (.flag false), { s with live := false })
  | .valid => (some (.flag s.live), s)
  | .check => s.tell s.efi.check fun _ => .flag true
  | .systemTable => s.tell s.efi.check fun _ => .address systemTableAddress
  | .handles => (some (.handles s.efi.image s.efi.table.address), s)
  | .print text => s.tell (s.efi.print text) fun _ => .nothing
  | .printDecimal value => s.tell (s.efi.printDecimal value) fun _ => .nothing
  | .printHexadecimal value => s.tell (s.efi.printHexadecimal value) fun _ => .nothing
  | .setColour colour => s.tell (s.efi.setColour colour) fun _ => .nothing
  | .allocate size slot => s.act (s.efi.allocate size) fun buffer s =>
    (some (.address buffer), s.setBuffer slot buffer)
  | .free slot => s.tell (s.efi.free (s.buffers slot)) fun _ => .nothing
  | .scope size release move => s.tell (scope s.efi size release move) id
  | .allocatePages pages slot => s.act (s.efi.replacePages (s.runs slot) pages) fun got s =>
    match got with
    | some run => (some (.granted true run), s.setRun slot run)
    | none => (some (.granted false (s.runs slot)), s)
  | .run slot => (some (.run (s.runs slot)), s)
  | .resetRun slot => (s.setRun slot {}).act (s.efi.dropPages (s.runs slot)) fun _ s =>
    (some (.run (s.runs slot)), s)
  | .releaseRun slot => (some (.released (s.runs slot) {}), s.setRun slot {})
  | .moveRun source target =>
    let moved := (s.setRun source {}).setRun target (s.runs source)
    moved.act (s.efi.dropPages ((s.setRun source {}).runs target)) fun _ s =>
      (some (.moved (s.runs source) (s.runs target)), s)
  | .runToCore slot size =>
    let moved := { s.setRun slot {} with core := ⟨s.runs slot, size⟩ }
    moved.act (s.efi.dropPages s.core.pages) fun _ s => (some (.core s.core), s)
  | .fileInfo volume file =>
    match s.openDirectly volume file with
    | (none, s) => (some (.fileInfo none), s)
    | (some handle, opened) =>
      match opened.tell (describe opened.efi handle) .fileInfo with
      | (none, halted) => (none, halted.letGoOfFile)
      | replied => replied
  | .fileRead volume file amounts =>
    match s.openDirectly volume file with
    | (none, s) => (some (.reads []), s)
    | (some handle, s) =>
      s.act (readAll handle amounts) fun reads s =>
        s.tell (Uefi.perform (.closeFile handle)) fun _ => .reads reads
  | .sizedQuery initial padding script slot => s.sizedQuery initial padding script slot
  | .attach attached => (some .nothing, { s with attached })
  | .heapAllocate size slot => s.act (s.attachment.allocate size) fun buffer s =>
    (some (.address buffer), s.setBuffer slot buffer)
  | .heapFree slot => s.tell (s.attachment.free (s.buffers slot)) fun _ => .nothing
  | .abort => s.tell s.attachment.abort fun _ => .nothing
  | .configure update => (some .nothing, { s with machine := update s.machine })
  | .state => (some (.state s.machine), s)

/-- Carries out a command on a fresh trace; with the reply comes what was written down. -/
def step (s : Session) (command : Command) : Option Reply × Trace × Session :=
  let (reply, s) := ({ s with machine := { s.machine with trace := [] } }).perform command
  (reply, s.machine.trace.reverse, s)

end Session

end Bootloader.Scripted
