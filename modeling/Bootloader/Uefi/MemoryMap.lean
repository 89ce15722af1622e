import Bootloader.Uefi.Pages
import Bootloader.Uefi.SizedQuery

/-!
# The memory map

A snapshot of the firmware's memory map, with the key that stands for it.  `acquireMap` takes one
into a buffer that has room for some more descriptors than the firmware reports, since to allocate
the buffer may itself make the map longer; `refreshMap` takes another into the same buffer.  When
either fails the snapshot stays as it was, its status apart.
-/

namespace Bootloader.Uefi

/-- The bytes of a descriptor of memory; a firmware may use more, and never fewer. -/
def descriptorBytes : UInt64 := 40

/-- The descriptors a map may grow by while a buffer is allocated for it. -/
def slackDescriptors : UInt64 := 8

/-- The descriptors guessed at when the firmware will not be asked for a size. -/
def guessedDescriptors : UInt64 := 16

/-- A snapshot of the memory map, in a buffer of its own (zero if there is none). -/
structure MemoryMap where
  buffer : UInt64 := 0
  bufferSize : UInt64 := 0
  size : UInt64 := 0
  key : UInt64 := 0
  descriptorSize : UInt64 := 0
  descriptorVersion : UInt32 := 0
  status : Status := .success
deriving DecidableEq, Repr

namespace MemoryMap

/-- The number of descriptors. -/
def entryCount (map : MemoryMap) : UInt64 :=
  if map.descriptorSize = 0 then 0 else map.size / map.descriptorSize

/-- The address of a descriptor; the firmware's size of a descriptor is the distance from one to
the next. -/
def entryAddress (map : MemoryMap) (i : UInt64) : UInt64 := map.buffer + i * map.descriptorSize

end MemoryMap

/-- How the taking of a snapshot ends. -/
inductive MapOutcome where
  | ok
  | noService
  | allocationFailed
  | stillTooSmall
  | failed
deriving DecidableEq, Repr

namespace MapOutcome

/-- What the user is told. -/
def text : MapOutcome → String
  | ok => "ok"
  | noService => "firmware memory map service unavailable"
  | allocationFailed => "could not allocate memory map buffer"
  | stillTooSmall => "memory map grew beyond allocated buffer"
  | failed => "could not retrieve memory map"

end MapOutcome

/-- What calls for the memory map have written so far. -/
structure MapSeen where
  key : UInt64 := 0
  descriptorSize : UInt64 := 0
  descriptorVersion : UInt32 := 0
deriving DecidableEq, Repr

namespace MapSeen

/-- What was written replaces what there was. -/
def update (seen : MapSeen) (outputs : MapOutputs) : MapSeen where
  key := outputs.key.getD seen.key
  descriptorSize := outputs.descriptorSize.getD seen.descriptorSize
  descriptorVersion := outputs.descriptorVersion.getD seen.descriptorVersion

/-- The room for the descriptors a map may grow by, of the size last reported. -/
def slack (seen : MapSeen) : UInt64 :=
  slackDescriptors * (if seen.descriptorSize = 0 then descriptorBytes else seen.descriptorSize)

end MapSeen

namespace Services

variable (efi : Services)

/-- The query for the memory map. -/
def queryMap (size buffer : UInt64) (seen : MapSeen) : Action (Answer UInt64 × MapSeen) := do
  let got ← perform (.getMemoryMap size buffer)
  return (⟨got.status, got.value.size⟩, seen.update got.value)

/-- Asks for the map, at first with a buffer of `initial` bytes or none. -/
def fetchMap (initial : UInt64) (seen : MapSeen) : Action (SizedQuery.Outcome × MapSeen) :=
  (sizedQuery initial).via (efi.measured queryMap MapSeen.slack) seen

/-- Asks for the map without a buffer and, if the firmware takes that for a mistake, with one of a
guessed size. -/
def fetchMapOrGuess : Action (SizedQuery.Outcome × MapSeen) := do
  let (outcome, seen) ← efi.fetchMap 0 {}
  if outcome = .queryFailed .invalidParameter then
    efi.fetchMap (guessedDescriptors * descriptorBytes) seen
  else
    return (outcome, seen)

/-- Takes a snapshot; the buffer of the one before is given back. -/
def acquireMap (map : MemoryMap) : Action (MapOutcome × MemoryMap) := do
  efi.check
  if !efi.table.offersMemoryMap then
    return (.noService, { map with status := .unsupported })
  let (outcome, seen) ← efi.fetchMapOrGuess
  let map := { map with status := outcome.status }
  match outcome with
  | .queryFailed _ => return (.noService, map)
  | .allocationFailed => return (.allocationFailed, map)
  | .stillTooSmall => return (.stillTooSmall, map)
  | .fetchFailed _ => return (.failed, map)
  | .filled result =>
    if seen.descriptorSize < descriptorBytes then
      efi.free result.buffer
      return (.failed, { map with status := .unsupported })
    efi.dropBuffer map.buffer
    return (.ok,
      { buffer := result.buffer
        bufferSize := result.allocated
        size := result.size
        key := seen.key
        descriptorSize := seen.descriptorSize
        descriptorVersion := seen.descriptorVersion
        status := outcome.status })

/-- Takes a snapshot into the buffer there is. -/
def refreshMap (map : MemoryMap) : Action (Status × MemoryMap) := do
  let got ← efi.call (.getMemoryMap map.bufferSize map.buffer)
  let map := { map with status := got.status }
  if got.status.isError then return (got.status, map)
  let seen := MapSeen.update {} got.value
  return (.success,
    { map with
      size := got.value.size
      key := seen.key
      descriptorSize := seen.descriptorSize
      descriptorVersion := seen.descriptorVersion })

end Services

end Bootloader.Uefi
