import Bootloader.Legacy.Stages
import Bootloader.Proofs.DiskImage
import Bootloader.Proofs.Legacy.CoreEntry
import Bootloader.Proofs.Legacy.Machine

/-!
# From the disk to the core

The image tool, the boot sector, the second stage and its part in protected mode agree on where
everything lies: a machine that serves an image on the drive it boots from enters the core with the
core of the image in its place (`boot_from_disk`), by either way of access.

The boot sector leaves the second stage where it jumps to (`run_stage1`), and the second stage
leaves the core in the bounce buffer (`run_stage2`).
-/

namespace Bootloader.Legacy

open Bios

/-- What a build asserts of its choice: the second stage lies in the first track of every drive,
the core fits below the stack of protected mode while it is read, and its sectors can be named. -/
structure BuildConfig.Sound (config : BuildConfig) : Prop where
  firstTrack : stage2Start.toNat + config.stage2Sectors.toNat ≤ minSectorsPerTrack.toNat
  bounce : bounceAddress.toNat + 512 * config.coreSectors.toNat ≤ protectedStackBase.toNat
  sectors : config.coreStart.toNat + config.coreSectors.toNat < 2 ^ 32

namespace BuildConfig

/-- The sectors of the second stage, and where they go. -/
def stage2Run (config : BuildConfig) : SectorRun :=
  ⟨stage2Start.toNat, config.stage2Sectors.toNat, stage2Address.toNat⟩

/-- The sectors of the core, and where they go first. -/
def coreRun (config : BuildConfig) : SectorRun :=
  ⟨config.coreStart.toNat, config.coreSectors.toNat, bounceAddress.toNat⟩

end BuildConfig

/-- All of a disk can be reached, and the second stage is in the first track. -/
def Access.Reaches : Access → Buffer → Prop
  | extended, _ => True
  | chs shape, disk =>
    minSectorsPerTrack.toNat ≤ shape.sectorsPerTrack ∧ disk.size ≤ 512 * shape.capacity

/-- The A20 line can be turned on by a second stage that is entered in this state. -/
def Machine.OpensA20 (m : Machine) (s : m.State) : Prop :=
  (A20.enable.run m.answer ((print "LBL stage 2\r\n").run m.answer s).2).1 ≠ some .failed

namespace BuildConfig.Sound

variable {config : BuildConfig}

theorem toNat_stage2Size (hc : config.Sound) :
    config.stage2Size.toNat = 512 * config.stage2Sectors.toNat := by
  have := hc.firstTrack
  have : minSectorsPerTrack.toNat = 18 := rfl
  rw [stage2Size, UInt32.toNat_mul, show sectorSize.toNat = 512 from rfl]
  omega

theorem toNat_coreSize (hc : config.Sound) :
    config.coreSize.toNat = 512 * config.coreSectors.toNat := by
  have := hc.bounce
  have : protectedStackBase.toNat = 0x80000 := rfl
  rw [coreSize, UInt32.toNat_mul, show sectorSize.toNat = 512 from rfl]
  omega

theorem exact_ofBuild (hc : config.Sound) : (DiskLayout.ofBuild config).Exact := by
  have := hc.firstTrack
  have : minSectorsPerTrack.toNat = 18 := rfl
  exact ⟨by simp only [DiskLayout.ofBuild]; omega, hc.sectors⟩

end BuildConfig.Sound

namespace Machine.Serves

variable {m : Machine} {drive : UInt8} {disk : Buffer} {access : Access} {config : BuildConfig}

/-- A single extended read puts the sectors where they were to go. -/
theorem run_readExtended (hm : m.Serves drive disk .extended) {count segment offset : UInt16}
    {lba : UInt64} {run : SectorRun} (hr : run = ⟨lba.toNat, count.toNat, linear segment offset⟩)
    (hw : run.Within disk) (s : m.State) :
    ∃ s', (readExtended drive (.make count segment offset lba)).run m.answer s = (some true, s') ∧
      m.memory s' = run.copy disk (m.memory s) := by
  subst hr
  obtain ⟨hcarry, hs⟩ := hm.read { ax := 0x4200, dx := drive.toUInt16, packet := some _ } s _
    (lowByte_toUInt16 drive) requested?_extended hw
  refine ⟨_, ?_, hs⟩
  simp only [readExtended, perform, Program.request, Program.bind_ask, Program.run_ask,
    Program.bind_done, hcarry]
  rfl

/-- So does a single read by cylinder, head and sector that stays in a track. -/
theorem run_readChs {shape : Shape} (hm : m.Serves drive disk (.chs shape)) {place : ChsAddress}
    {count : UInt8} {segment offset : UInt16} {run : SectorRun}
    (hr : (Access.chs shape).requested? (chsRegisters drive place count segment offset) = some run)
    (hw : run.Within disk) (s : m.State) :
    ∃ s', (readChs drive place count segment offset).run m.answer s = (some true, s') ∧
      m.memory s' = run.copy disk (m.memory s) := by
  obtain ⟨hcarry, hs⟩ := hm.read _ s _ drive_chsRegisters hr hw
  refine ⟨_, ?_, hs⟩
  simp only [readChs, perform, Program.request, Program.bind_ask, Program.run_ask,
    Program.bind_done, hcarry]
  rfl

theorem run_readStage2 (hc : config.Sound) (hm : m.Serves drive disk access)
    (ha : access.Reaches disk) (h0 : 0 < config.stage2Sectors.toNat)
    (hw : config.stage2Run.Within disk) (s : m.State) :
    ∃ s', (readStage2 config drive).run m.answer s = (some true, s') ∧
      m.memory s' = config.stage2Run.copy disk (m.memory s) := by
  have hn := hc.firstTrack
  have hstart : stage2Start.toNat = 1 := rfl
  have htrack : minSectorsPerTrack.toNat = 18 := rfl
  obtain ⟨found, s₁, hr₁, hf, hs₁⟩ := hm.run_probeExtensions s
  rw [readStage2, Program.run_bind_of_eq hr₁]
  cases access with
  | extended =>
    rw [if_pos (hf.2 rfl)]
    have hrun : config.stage2Run = ⟨stage2Start.toUInt64.toNat,
        config.stage2Sectors.toUInt16.toNat, linear 0 stage2Address.toUInt16⟩ := by
      rw [UInt32.toNat_toUInt16, Nat.mod_eq_of_lt (by omega)]
      rfl
    obtain ⟨s₂, hr₂, hs₂⟩ := hm.run_readExtended hrun hw s₁
    exact ⟨s₂, hr₂, by rw [hs₂, hs₁]⟩
  | chs shape =>
    rw [if_neg (by simp [hf])]
    obtain ⟨s₂, hr₂, hs₂⟩ := hm.run_print "Using CHS mode.\r\n" s₁
    have hcount : config.stage2Sectors.toUInt8.toNat = config.stage2Sectors.toNat := by
      rw [UInt32.toNat_toUInt8, Nat.mod_eq_of_lt (by omega)]
    have hsector : (stage2Start + 1).toUInt8.toNat = 2 := rfl
    have hreq : (Access.chs shape).requested? (chsRegisters drive
        ⟨0, 0, (stage2Start + 1).toUInt8⟩ config.stage2Sectors.toUInt8 0
        stage2Address.toUInt16) = some config.stage2Run := by
      have hreach : minSectorsPerTrack.toNat ≤ shape.sectorsPerTrack := ha.1
      refine (requested?_chsRegisters ?_ ?_ ?_ ?_ ?_).trans ?_
      · exact shape.cylinders_pos
      · exact shape.heads_pos
      · dsimp only
        omega
      · omega
      · dsimp only
        omega
      · rw [hcount]
        simp only [Shape.number, hsector, BuildConfig.stage2Run, hstart, UInt16.toNat_zero,
          UInt8.toNat_zero]
        rw [Nat.zero_mul, Nat.zero_add, Nat.zero_mul]
        rfl
    obtain ⟨s₃, hr₃, hs₃⟩ := hm.run_readChs hreq hw s₂
    rw [Program.run_bind_of_eq hr₂]
    exact ⟨s₃, hr₃, by rw [hs₃, hs₂, hs₁]⟩

/-- The boot sector leaves the second stage where it jumps to. -/
theorem run_stage1 (hc : config.Sound) (hm : m.Serves drive disk access)
    (ha : access.Reaches disk) (h0 : 0 < config.stage2Sectors.toNat)
    (hw : config.stage2Run.Within disk) (s : m.State) :
    ∃ s', (stage1 config drive).run m.answer s =
        (some (.jumped 0 stage2Address.toUInt16 drive), s') ∧
      m.memory s' = config.stage2Run.copy disk (m.memory s) := by
  obtain ⟨s₁, hr₁, hs₁⟩ := hm.run_print "LBL stage 1\r\n" s
  obtain ⟨s₂, hr₂, hs₂⟩ := hm.run_readStage2 hc ha h0 hw s₁
  rw [stage1, Program.run_bind_of_eq hr₁, Program.run_bind_of_eq hr₂]
  exact ⟨s₂, rfl, by rw [hs₂, hs₁]⟩

/-- The switch to protected mode leaves memory as it is. -/
theorem run_enterProtectedMode (hm : m.Serves drive disk access) (shared : Shared)
    (target : UInt32) (s : m.State) :
    ∃ table s', (enterProtectedMode shared target).run m.answer s =
        (some (.protectedMode table codeSelector target, { shared with table }), s') ∧
      m.memory s' = m.memory s :=
  ⟨_, _, rfl, by
    rw [hm.still .tableOffset _ id, hm.still .codeSegment _ id]⟩

theorem fits_coreRun (hc : config.Sound) :
    (Transfer.mk config.coreStart config.coreSectors bounceAddress).Fits .extended := by
  have := hc.bounce
  have := hc.sectors
  have : protectedStackBase.toNat = 0x80000 := rfl
  have : bounceAddress.toNat = 0x10000 := rfl
  exact ⟨by dsimp only; omega, by dsimp only [Access.sectors]; omega⟩

/-- A sector of the disk can be named by any way of access that reaches the disk. -/
theorem fits_of_reaches (hc : config.Sound) (ha : access.Reaches disk)
    (hw : config.coreRun.Within disk) :
    (Transfer.mk config.coreStart config.coreSectors bounceAddress).Fits access := by
  have hfits := fits_coreRun hc
  cases access with
  | extended => exact hfits
  | chs shape =>
    have hsize : disk.size ≤ 512 * shape.capacity := ha.2
    have hdisk : 512 * (config.coreStart.toNat + config.coreSectors.toNat) ≤ disk.size := hw.1
    exact ⟨hfits.target, by dsimp only [Access.sectors]; omega⟩

/-- The core is read to the bounce buffer, and the second stage goes on in protected mode. -/
theorem run_loadCore (hc : config.Sound) (hm : m.Serves drive disk access)
    (ha : access.Reaches disk) (hw : config.coreRun.Within disk) {shared : Shared}
    (hd : shared.bootDrive = drive) (target : UInt32) (s : m.State) :
    ∃ table shared' s', (loadCore config shared target).run m.answer s =
        (some (.protectedMode table codeSelector target, shared'), s') ∧
      shared'.bootDrive = drive ∧ m.memory s' = config.coreRun.copy disk (m.memory s) := by
  subst hd
  obtain ⟨s₁, hr₁, hs₁⟩ := hm.run_print "Loading LBL Core Engine...\r\n" s
  obtain ⟨reader, s₂, hr₂, hdrive, hu, hs₂⟩ := hm.run_init s₁
  obtain ⟨s₃, hr₃, hs₃⟩ := hm.run_readWithin hdrive hu config.coreSectors.toNat
    ⟨config.coreStart, config.coreSectors, bounceAddress⟩ s₂ (Nat.le_refl _)
    (fits_of_reaches hc ha hw) hw.1
  obtain ⟨s₄, hr₄, hs₄⟩ := hm.run_print "LBL Core loaded.\r\n" s₃
  obtain ⟨table, s₅, hr₅, hs₅⟩ := hm.run_enterProtectedMode
    { shared with usedExtensions := reader.extended } target s₄
  refine ⟨table, { shared with usedExtensions := reader.extended, table }, s₅, ?_, rfl, ?_⟩
  · rw [loadCore, Program.run_bind_of_eq hr₁, Program.run_bind_of_eq hr₂]
    dsimp only
    rw [if_pos rfl, Reader.read, Program.run_bind_of_eq hr₃, if_pos rfl,
      Program.run_bind_of_eq hr₄]
    exact hr₅
  · rw [hs₅, hs₄, hs₃, hs₂, hs₁]
    rfl

/-- The second stage leaves the core in the bounce buffer, if it can turn the A20 line on. -/
theorem run_stage2 (hc : config.Sound) (hm : m.Serves drive disk access)
    (ha : access.Reaches disk) (hw : config.coreRun.Within disk) (target : UInt32) (s : m.State)
    (hA : m.OpensA20 s) :
    ∃ table shared s', (stage2 config drive target).run m.answer s =
        (some (.protectedMode table codeSelector target, shared), s') ∧
      shared.bootDrive = drive ∧ m.memory s' = config.coreRun.copy disk (m.memory s) := by
  obtain ⟨s₁, hr₁, hs₁⟩ := hm.run_print "LBL stage 2\r\n" s
  obtain ⟨method, s₂, hr₂, hs₂⟩ := hm.run_of_offDisk A20.offDisk_enable s₁
  have hmethod : method ≠ .failed := by
    rw [Machine.OpensA20, hr₁, hr₂] at hA
    exact fun h => hA (congrArg some h)
  obtain ⟨s₃, hr₃, hs₃⟩ := hm.run_print method.report s₂
  obtain ⟨table, shared, s₄, hr₄, hd, hs₄⟩ :=
    hm.run_loadCore hc ha hw (show ({ bootDrive := drive } : Shared).bootDrive = drive from rfl)
      target s₃
  refine ⟨table, shared, s₄, ?_, hd, ?_⟩
  · rw [stage2, Program.run_bind_of_eq hr₁, Program.run_bind_of_eq hr₂, if_neg hmethod,
      Program.run_bind_of_eq hr₃]
    exact hr₄
  · rw [hs₄, hs₃, hs₂, hs₁]

end Machine.Serves

namespace Machine

/-- The answer that describes a shape. -/
def shapeReply (shape : Shape) : DiskReply where
  cx := word16 (UInt8.ofNat (shape.cylinders - 1))
    (UInt8.ofNat (64 * ((shape.cylinders - 1) / 256) + shape.sectorsPerTrack))
  dx := word16 (UInt8.ofNat (shape.heads - 1)) 1
  carry := false

/-- The answer of the disk service to what is not a read. -/
def otherReply (r : Registers) : Access → DiskReply
  | .extended => { bx := 0xAA55, cx := 1, carry := false }
  | .chs shape => { shapeReply shape with bx := r.bx }

/-- The disk service of a machine that has one disk on every drive. -/
def service (disk : Buffer) (access : Access) (r : Registers) (memory : Buffer) :
    DiskReply × Buffer :=
  match access.requested? r with
  | some run => ({ carry := false }, run.copy disk memory)
  | none => (otherReply r access, memory)

/-- A machine with one disk on every drive, the A20 line of which is on from the beginning. -/
def ofDisk (disk : Buffer) (access : Access) : Machine where
  State := Buffer
  answer
    | .disk r, memory => service disk access r memory
    | .teletype _, memory => ((), memory)
    | .readPort _, memory => (0, memory)
    | .writePort .., memory => ((), memory)
    | .delay, memory => ((), memory)
    | .wrapTest, memory => (true, memory)
    | .codeSegment, memory => (0, memory)
    | .tableOffset, memory => (0, memory)
  memory := id

theorem describes_shapeReply (shape : Shape) : (shapeReply shape).Describes shape := by
  have := shape.cylinders_le
  have := shape.heads_le
  have := shape.sectorsPerTrack_le
  refine ⟨rfl, ?_, ?_, ?_, ?_⟩ <;>
    simp only [shapeReply, highByte_word16, lowByte_word16, UInt8.toNat_ofNat'] <;> omega

theorem requested?_eq_none {access : Access} {r : Registers} (h2 : r.service ≠ 0x02)
    (h42 : r.service ≠ 0x42) : access.requested? r = none := by
  cases access with
  | extended => exact if_neg h42
  | chs shape => exact if_neg fun h => h2 h.1

theorem service_of_ne {disk memory : Buffer} {access : Access} {r : Registers}
    (h2 : r.service ≠ 0x02) (h42 : r.service ≠ 0x42) :
    service disk access r memory = (otherReply r access, memory) := by
  rw [service, requested?_eq_none h2 h42]

section Service

variable {disk memory : Buffer} {access : Access} {r : Registers}

theorem offersExtensions_service (h : r.service = 0x41) (hbx : r.bx = 0x55AA) :
    (service disk access r memory).1.OffersExtensions ↔ access = .extended := by
  rw [service_of_ne (by rw [h]; decide) (by rw [h]; decide)]
  cases access with
  | extended => exact iff_of_true ⟨rfl, rfl, (by decide : (1 : UInt16) &&& 1 ≠ 0)⟩ rfl
  | chs shape =>
    refine iff_of_false (fun ho => ?_) (by simp)
    have hbx' : r.bx = 0xAA55 := ho.2.1
    rw [hbx] at hbx'
    exact absurd hbx' (by decide)

theorem describes_service {shape : Shape} (h : r.service = 0x08) :
    (service disk (.chs shape) r memory).1.Describes shape := by
  rw [service_of_ne (by rw [h]; decide) (by rw [h]; decide)]
  have hd := describes_shapeReply shape
  exact ⟨hd.carry, hd.cylinderLow, hd.cylinderHigh, hd.sectors, hd.head⟩

theorem service_of_requested? {run : SectorRun} (h : access.requested? r = some run) :
    service disk access r memory = ({ carry := false }, run.copy disk memory) := by
  rw [service, h]

end Service

/-- Such a machine serves its disk, whatever the way of access. -/
theorem serves_ofDisk (drive : UInt8) (disk : Buffer) (access : Access) :
    (ofDisk disk access).Serves drive disk access where
  extensions _ _ h hbx _ := offersExtensions_service h hbx
  shape _ hs _ _ h _ := hs ▸ describes_service h
  read r s run _ h _ := by
    have hr : service disk access r s = ({ carry := false }, run.copy disk s) :=
      service_of_requested? h
    exact ⟨congrArg (fun x => x.1.carry) hr, congrArg Prod.snd hr⟩
  still q s hq := by
    cases q with
    | disk r =>
      exact congrArg Prod.snd (service_of_ne (fun h => hq (.inr h)) (fun h => hq (.inl h)))
    | _ => rfl

theorem opensA20_ofDisk (disk : Buffer) (access : Access) (s : Buffer) :
    (ofDisk disk access).OpensA20 s := by
  have h : (A20.enable.run (ofDisk disk access).answer
      ((print "LBL stage 2\r\n").run (ofDisk disk access).answer s).2).1 =
        some .alreadyEnabled := rfl
  exact fun hf => absurd (h.symm.trans hf) (by decide)

end Machine

section Image

variable {config : BuildConfig} {bootSector stage2Image coreImage : List UInt8} {disk : Buffer}
variable {memory : Buffer}

/-- The parts of an image are where the stages look for them. -/
theorem within_of_assemble (hc : config.Sound)
    (hi : DiskImage.assemble bootSector stage2Image coreImage (.ofBuild config) = .ok disk) :
    config.stage2Run.Within disk ∧ config.coreRun.Within disk := by
  have hsize := DiskImage.size_assemble hc.exact_ofBuild hi
  obtain ⟨-, -, -, hle, -⟩ := DiskImage.parts_in_order hc.exact_ofBuild hi
  have hfirst := hc.firstTrack
  have hbounce := hc.bounce
  have : minSectorsPerTrack.toNat = 18 := rfl
  have : protectedStackBase.toNat = 0x80000 := rfl
  have : stage2Address.toNat = 0x8000 := rfl
  simp only [DiskLayout.ofBuild, DiskImage.sectorBytes] at hsize hle
  simp only [SectorRun.Within, BuildConfig.stage2Run, BuildConfig.coreRun]
  omega

theorem stage2Sectors_pos
    (hi : DiskImage.assemble bootSector stage2Image coreImage (.ofBuild config) = .ok disk) :
    0 < config.stage2Sectors.toNat := by
  obtain ⟨-, -, hs, -, -⟩ := DiskImage.assemble_eq_ok_iff.1 hi
  obtain ⟨hne, hle⟩ := DiskImage.checkFits_eq_ok_iff.1 hs
  have := List.length_pos_iff.2 hne
  simp only [DiskLayout.ofBuild, DiskImage.sectorBytes] at hle
  omega

theorem SectorRun.read_copy {run : SectorRun} (h : run.address + 512 * run.count ≤ memory.size) :
    (run.copy disk memory).read run.address (512 * run.count) =
      disk.read (512 * run.first) (512 * run.count) := by
  have hr : (run.copy disk memory).read run.address
      (disk.read (512 * run.first) (512 * run.count)).length = _ :=
    Buffer.read_write (by rwa [Buffer.length_read])
  rwa [Buffer.length_read] at hr

theorem SectorRun.size_copy {run : SectorRun} : (run.copy disk memory).size = memory.size :=
  Buffer.size_write ..

/-- A machine that boots from an image enters the core with the core of the image in its place,
whichever way its BIOS reads the disk. -/
theorem boot_from_disk (hc : config.Sound)
    (hi : DiskImage.assemble bootSector stage2Image coreImage (.ofBuild config) = .ok disk)
    {m : Machine} {drive : UInt8} {access : Access} (hm : m.Serves drive disk access)
    (ha : access.Reaches disk) (s : m.State)
    (hs : coreAddress.toNat + config.coreSize.toNat ≤ (m.memory s).size)
    (hA : m.OpensA20 ((stage1 config drive).run m.answer s).2) (target : UInt32) :
    ∃ s₁ s₂ table shared,
      (stage1 config drive).run m.answer s =
          (some (.jumped 0 stage2Address.toUInt16 drive), s₁) ∧
        (m.memory s₁).read stage2Address.toNat config.stage2Size.toNat =
          stage2Image.rightpad config.stage2Size.toNat 0 ∧
        (stage2 config drive target).run m.answer s₁ =
          (some (.protectedMode table codeSelector target, shared), s₂) ∧
        shared.bootDrive = drive ∧
        ∀ es o, Program.Runs (protectedMode config shared.bootDrive (m.memory s₂)) es o →
          ∃ call left, es = [⟨call, left⟩] ∧ call.entry = coreEntry ∧
            call.record = handoffAddress ∧
            call.memory.read coreAddress.toNat config.coreSize.toNat =
              coreImage.rightpad config.coreSize.toNat 0 := by
  obtain ⟨hw₁, hw₂⟩ := within_of_assemble hc hi
  have hbounce := hc.bounce
  have hfirst := hc.firstTrack
  have hstack : protectedStackBase.toNat = 0x80000 := rfl
  have hscreen : screenAddress.toNat = 0xB8000 := rfl
  have htrack : minSectorsPerTrack.toNat = 18 := rfl
  have hcore : coreAddress.toNat = 0x100000 := rfl
  have hstage2 : stage2Address.toNat = 0x8000 := rfl
  obtain ⟨s₁, hr₁, hs₁⟩ := hm.run_stage1 hc ha (stage2Sectors_pos hi) hw₁ s
  rw [hr₁] at hA
  obtain ⟨table, shared, s₂, hr₂, hd, hs₂⟩ := hm.run_stage2 hc ha hw₂ target s₁ hA
  have hsize₁ : (m.memory s₁).size = (m.memory s).size := by rw [hs₁, SectorRun.size_copy]
  have hsize₂ : (m.memory s₂).size = (m.memory s).size := by rw [hs₂, SectorRun.size_copy, hsize₁]
  refine ⟨s₁, s₂, table, shared, hr₁, ?_, hr₂, hd, fun es o h => ?_⟩
  · rw [hc.toNat_stage2Size, hs₁]
    refine (SectorRun.read_copy ?_).trans (DiskImage.read_stage2 hc.exact_ofBuild hi)
    simp only [BuildConfig.stage2Run]
    omega
  · obtain ⟨left, rfl⟩ := runs_protectedMode h
    refine ⟨_, left, rfl, rfl, rfl, ?_⟩
    dsimp only
    rw [read_entryMemory (by rw [hc.toNat_coreSize]; omega) (by omega), hc.toNat_coreSize, hs₂]
    refine (SectorRun.read_copy ?_).trans (DiskImage.read_core hc.exact_ofBuild hi)
    simp only [BuildConfig.coreRun]
    omega

/-- The shape of a floppy disk. -/
def floppy : Shape := ⟨80, 2, 18, by decide, by decide, by decide, by decide, by decide, by decide⟩

/-- The usual image of two parts of one byte each. -/
def smallImage : Buffer :=
  let disk := Buffer.zeros (DiskImage.imageSize .default)
  let disk := DiskImage.place disk (List.replicate 510 0 ++ [0x55, 0xAA]) 0
  DiskImage.place (DiskImage.place disk [1] stage2Start) [2] BuildConfig.default.coreStart

theorem boot_from_floppy :
    ∃ s₁ s₂ table shared,
      (stage1 .default 0).run (Machine.ofDisk smallImage (.chs floppy)).answer
          (Buffer.zeros 0x200000) = (some (.jumped 0 0x8000 0), s₁) ∧
        (stage2 .default 0 0x9000).run (Machine.ofDisk smallImage (.chs floppy)).answer s₁ =
          (some (.protectedMode table codeSelector 0x9000, shared), s₂) ∧
        ∀ es o, Program.Runs (protectedMode .default shared.bootDrive s₂) es o →
          ∃ call left, es = [⟨call, left⟩] ∧
            call.memory.read 0x100000 0x10000 = List.rightpad 0x10000 0 [2] := by
  have hc : BuildConfig.default.Sound := ⟨by decide, by decide, by decide⟩
  have hi : DiskImage.assemble (List.replicate 510 0 ++ [0x55, 0xAA]) [1] [2]
      (.ofBuild .default) = .ok smallImage := by
    rw [DiskImage.assemble_eq_ok_iff]
    exact ⟨DiskImage.checkLayout_eq_ok_iff.2 (by decide),
      DiskImage.checkBootSector_eq_ok_iff.2 ⟨by rw [List.length_append, List.length_replicate]; rfl,
        List.drop_left' List.length_replicate⟩,
      DiskImage.checkFits_eq_ok_iff.2 (by decide), DiskImage.checkFits_eq_ok_iff.2 (by decide), rfl⟩
  have hsize : smallImage.size = 512 * 192 := by
    simp only [smallImage, DiskImage.place, Buffer.size_write, Buffer.size_zeros]
    decide
  have hmemory : coreAddress.toNat + BuildConfig.default.coreSize.toNat ≤
      (Buffer.zeros 0x200000).size := by
    rw [Buffer.size_zeros]
    decide
  obtain ⟨s₁, s₂, table, shared, hr₁, -, hr₂, -, hcore⟩ :=
    boot_from_disk hc hi (Machine.serves_ofDisk 0 smallImage (.chs floppy))
      ⟨by decide, by rw [hsize]; decide⟩ (Buffer.zeros 0x200000)
      hmemory (Machine.opensA20_ofDisk _ _ _) 0x9000
  refine ⟨s₁, s₂, table, shared, hr₁, hr₂, fun es o h => ?_⟩
  obtain ⟨call, left, hes, -, -, hread⟩ := hcore es o h
  exact ⟨call, left, hes, hread⟩

end Image


end Bootloader.Legacy
