import Bootloader.Uefi.CoreFile
import Bootloader.Uefi.MemoryMap
import Bootloader.Uefi.Platform

/-!
# Leaving the firmware

The boot services end when the firmware is given the key of its present memory map.  If it refuses,
the map has changed; a fresh snapshot is taken and the services are ended once more.  In between
nothing may be allocated, freed or printed, since each of these may change the map.

From `handOff` there is no way back: either the services have ended and the core is entered, or
they could not be ended and the machine is halted.  What it gives is who owns what at the halt.
-/

namespace Bootloader.Uefi

/-- How often the services are ended once more after a refusal. -/
def exitRetries : Nat := 1

/-- Tells the core of a snapshot of the memory map. -/
def BootInfo.withMap (info : BootInfo) (map : MemoryMap) : BootInfo :=
  { info with
    mapAddress := map.buffer
    mapSize := map.size
    mapKey := map.key
    descriptorSize := map.descriptorSize
    descriptorVersion := map.descriptorVersion }

/-- What the loader has at hand when it leaves the firmware. -/
structure Handover where
  efi : Services
  core : CoreImage
  map : MemoryMap
  info : BootInfo

/-- The services, the snapshot and the record after an attempt to end the services. -/
structure Exit where
  status : Status
  efi : Services
  map : MemoryMap
  info : BootInfo

namespace Services

variable (efi : Services)

/-- Goes on after an answer to the end of the services: a refusal is met by a fresh snapshot and
another attempt, while attempts are left. -/
def exitAgain : (left : Nat) → Status → MemoryMap → BootInfo → Action Exit
  | 0, status, map, info =>
    return ⟨status, if status = .success then efi.giveUp else efi, map, info⟩
  | left + 1, status, map, info => do
    if status.isError then
      let (refreshed, map) ← efi.refreshMap map
      if refreshed.isError then
        return ⟨refreshed, efi, map, info⟩
      let status ← perform (.exitBootServices efi.image map.key)
      exitAgain left status map (info.withMap map)
    else
      return ⟨status, if status = .success then efi.giveUp else efi, map, info⟩

/-- Ends the boot services.  The services are given up if and only if the firmware reports
success. -/
def exitBootServices (map : MemoryMap) (info : BootInfo) : Action Exit := do
  let status ← efi.call (.exitBootServices efi.image map.key)
  efi.exitAgain exitRetries status map info

/-- Says that the services could not be ended, gives back what the core would have got, and
halts. -/
def abandon (status : Status) (state : Handover) : Action Handover := do
  state.efi.setColour lightRed
  state.efi.print "\r\nCRITICAL: could not exit boot services (status "
  state.efi.printHexadecimal status.code
  state.efi.print "). System halted.\r\n"
  state.efi.dropPages state.core.pages
  state.efi.dropBuffer state.map.buffer
  perform (.debugWrite "LBL: ExitBootServices failed, halting\n")
  perform .halt
  return { state with
    efi := state.efi.giveUp
    core := { state.core with pages := {} }
    map := { state.map with buffer := 0 } }

/-- Enters the core, which owns its pages and the snapshot from now on, and halts should it come
back. -/
def enter (state : Handover) : Action Handover := do
  perform (.debugWrite "LBL: boot services terminated, entering core\n")
  perform (.enterCore state.info.entry state.info)
  perform (.debugWrite "LBL: core returned, halting\n")
  perform .halt
  return { state with
    core := { state.core with pages := {} }
    map := { state.map with buffer := 0 } }

/-- Leaves the firmware for the core. -/
def handOff (core : CoreImage) (map : MemoryMap) (info : BootInfo) : Action Handover := do
  let exit ← efi.exitBootServices map info
  let state : Handover := ⟨exit.efi, core, exit.map, exit.info⟩
  if exit.status.isError then
    abandon exit.status state
  else
    enter state

end Services

end Bootloader.Uefi
