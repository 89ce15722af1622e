import Bootloader.Legacy.CoreEntry

/-!
# A core that does nothing

The second stage in protected mode, run with a core that leaves memory as it is and either comes
back or does not.
-/

namespace Bootloader.Scripted

open Legacy

/-- The entries into the core, and the memory at the end. -/
structure CoreRun where
  entries : List CoreCall
  memory : Buffer
  halted : Bool

/-- Runs a program that enters the core; with a core that does not come back the first entry is the
end. -/
def runCore (returns : Bool) : Program Core Buffer → Buffer → CoreRun
  | .done memory, _ => ⟨[], memory, true⟩
  | .stop, memory => ⟨[], memory, true⟩
  | .ask entry next, _ =>
    if returns then
      let rest := runCore returns (next entry.memory) entry.memory
      { rest with entries := entry :: rest.entries }
    else
      ⟨[entry], entry.memory, false⟩

/-- The memory a run begins with: zeros, the core in the bounce buffer as far as it fits there, and
one value in the room for the record. -/
def memoryWith (config : BuildConfig) (core : List UInt8) (dirty : UInt8) : Buffer :=
  let size := coreAddress.toNat + config.coreSize.toNat
  ((Buffer.zeros size).write bounceAddress.toNat (core.take config.coreSize.toNat)).fill
    handoffAddress.toNat dirty handoffSize.toNat

end Bootloader.Scripted
