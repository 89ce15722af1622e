/-!
# The layout of memory and disk

What the boot sector, the second stage and the core agree on: where each of them lies on the disk
and in memory.  Three numbers are chosen when the loader is built (`BuildConfig`).
-/

namespace Bootloader.Legacy

/-- What is chosen when the loader is built: the sectors of the second stage, the first sector of
the core on the disk, and the sectors of the core. -/
structure BuildConfig where
  stage2Sectors : UInt32
  coreStart : UInt32
  coreSectors : UInt32
deriving DecidableEq, Repr

namespace BuildConfig

/-- The usual choice. -/
def default : BuildConfig := ⟨16, 64, 128⟩

/-- The smallest choice there is. -/
def min : BuildConfig := ⟨1, 2, 1⟩

/-- The largest choice that fits. -/
def max : BuildConfig := ⟨17, 18, 896⟩

end BuildConfig

/-- The bytes of a sector. -/
def sectorSize : UInt32 := 512

/-- The second stage follows the boot sector. -/
def stage2Start : UInt32 := 1

/-- The second stage has to lie in the first track even of the smallest geometry, since the boot
sector does not ask for the geometry. -/
def minSectorsPerTrack : UInt32 := 18

/-- Where the record for the core lies. -/
def handoffAddress : UInt32 := 0x500

/-- The room there is for the record. -/
def handoffSize : UInt32 := 0x100

/-- Where the stack of the first stages ends, downwards. -/
def realStackBase : UInt32 := 0x1000

/-- Where the stack of the first stages begins. -/
def realStackTop : UInt32 := 0x7C00

/-- Where the boot sector runs. -/
def bootSectorAddress : UInt32 := 0x7C00

/-- Where the second stage runs. -/
def stage2Address : UInt32 := 0x8000

/-- Where the core is read to, since the disk services reach no higher than 1 MiB. -/
def bounceAddress : UInt32 := 0x10000

/-- Where the stack of protected mode ends, downwards. -/
def protectedStackBase : UInt32 := 0x80000

/-- Where the stack of protected mode begins. -/
def protectedStackTop : UInt32 := 0x90000

/-- Where the memory of the firmware and the devices begins. -/
def firmwareAddress : UInt32 := 0x9F000

/-- The memory of the firmware and the devices goes up to 1 MiB. -/
def firmwareSize : UInt32 := 0x100000 - firmwareAddress

/-- Where the core runs. -/
def coreAddress : UInt32 := 0x100000

/-- Where the core is entered. -/
def coreEntry : UInt32 := coreAddress

/-- Where the text on the screen lies. -/
def screenAddress : UInt32 := 0xB8000

/-- The selector of the code segment. -/
def codeSelector : UInt16 := 0x08

/-- The selector of the data segment. -/
def dataSelector : UInt16 := 0x10

namespace BuildConfig

/-- The bytes of the second stage. -/
def stage2Size (config : BuildConfig) : UInt32 := config.stage2Sectors * sectorSize

/-- The bytes of the core. -/
def coreSize (config : BuildConfig) : UInt32 := config.coreSectors * sectorSize

end BuildConfig

/-- A region of memory. -/
structure Region where
  name : String
  base : UInt32
  size : UInt32
deriving DecidableEq, Repr

namespace Region

/-- Whether two regions overlap, provided that neither wraps around the end of memory. -/
def overlaps (a b : Region) : Bool := a.base < b.base + b.size && b.base < a.base + a.size

/-- Whether no two regions of a list overlap. -/
def disjoint : List Region → Bool
  | [] => true
  | region :: rest => rest.all (fun other => !region.overlaps other) && disjoint rest

end Region

/-- The regions of memory that have a use of their own. -/
def BuildConfig.regions (config : BuildConfig) : List Region :=
  [⟨"IVT/BDA", 0, handoffAddress⟩,
    ⟨"handoff", handoffAddress, handoffSize⟩,
    ⟨"real-mode stack", realStackBase, realStackTop - realStackBase⟩,
    ⟨"boot sector", bootSectorAddress, sectorSize⟩,
    ⟨"stage 2", stage2Address, config.stage2Size⟩,
    ⟨"core bounce", bounceAddress, config.coreSize⟩,
    ⟨"pm stack", protectedStackBase, protectedStackTop - protectedStackBase⟩,
    ⟨"firmware", firmwareAddress, firmwareSize⟩,
    ⟨"core", coreAddress, config.coreSize⟩]

end Bootloader.Legacy
