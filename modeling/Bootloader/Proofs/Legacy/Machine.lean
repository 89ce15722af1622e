import Bootloader.Proofs.Buffer
import Bootloader.Proofs.Legacy.A20
import Bootloader.Proofs.Legacy.Reader

/-!
# A machine with a disk

A `Machine` answers the calls of the first two stages and has memory.  It serves a disk on a drive
by a way of access (`Machine.Serves`) if it says so when it is asked, carries out every read by a
copy of the sectors to memory, and changes memory by nothing else.

On such a machine a reader finds the way of access (`run_init`), and a read of a run of sectors
leaves exactly these sectors in memory, however it is split up (`run_readWithin`).
-/

namespace Bootloader.Legacy

open Bios

/-- What answers the calls of the first two stages, and its memory. -/
structure Machine where
  State : Type
  answer : (q : Bios.Call) → State → q.Reply × State
  memory : State → Buffer

/-- A call that reads sectors. -/
def Bios.Call.IsRead : Bios.Call → Prop
  | .disk r => r.service = 0x42 ∨ r.service = 0x02
  | _ => False

theorem Bios.Call.IsRead.isDisk : ∀ {q : Bios.Call}, q.IsRead → q.IsDisk
  | .disk _, _ => trivial

namespace SectorRun

/-- The sectors are on a disk, and go to memory below 1 MiB. -/
def Within (run : SectorRun) (disk : Buffer) : Prop :=
  512 * (run.first + run.count) ≤ disk.size ∧ run.address + 512 * run.count ≤ 0x100000

/-- Memory after the sectors were copied to it. -/
def copy (run : SectorRun) (disk memory : Buffer) : Buffer :=
  memory.write run.address (disk.read (512 * run.first) (512 * run.count))

end SectorRun

/-- The machine has a disk on a drive, which can be read by one way of access. -/
structure Machine.Serves (m : Machine) (drive : UInt8) (disk : Buffer) (access : Access) :
    Prop where
  extensions : ∀ (r : Registers) (s : m.State), r.service = 0x41 → r.bx = 0x55AA →
    r.drive = drive → ((m.answer (.disk r) s).1.OffersExtensions ↔ access = .extended)
  shape : ∀ shape, access = .chs shape → ∀ (r : Registers) (s : m.State), r.service = 0x08 →
    r.drive = drive → (m.answer (.disk r) s).1.Describes shape
  read : ∀ (r : Registers) (s : m.State) (run : SectorRun), r.drive = drive →
    access.requested? r = some run → run.Within disk →
      (m.answer (.disk r) s).1.carry = false ∧
        m.memory (m.answer (.disk r) s).2 = run.copy disk (m.memory s)
  still : ∀ (q : Bios.Call) (s : m.State), ¬q.IsRead → m.memory (m.answer q s).2 = m.memory s

/-- Two copies of sectors that follow each other, on the disk and in memory, are one. -/
theorem SectorRun.copy_copy (disk memory : Buffer) (first m n address : Nat) :
    (SectorRun.mk (first + m) n (address + 512 * m)).copy disk
        ((SectorRun.mk first m address).copy disk memory) =
      (SectorRun.mk first (m + n) address).copy disk memory := by
  simp only [copy, Nat.mul_add, Buffer.read_add, Buffer.write_append, Buffer.length_read]

namespace Machine.Serves

variable {m : Machine} {drive : UInt8} {disk : Buffer} {access : Access}
variable {α : Type}

/-- A program that does without the disk service comes to a value and leaves memory as it is. -/
theorem run_of_offDisk (hm : m.Serves drive disk access) {p : Program Bios α} (hp : OffDisk p)
    (s : m.State) : ∃ a s', p.run m.answer s = (some a, s') ∧ m.memory s' = m.memory s :=
  hp.run_eq (fun q s hq => hm.still q s fun hr => hq hr.isDisk) s

theorem run_print (hm : m.Serves drive disk access) (text : String) (s : m.State) :
    ∃ s', (print text).run m.answer s = (some (), s') ∧ m.memory s' = m.memory s := by
  obtain ⟨_, s', hr, hs⟩ := hm.run_of_offDisk (offDisk_print text) s
  exact ⟨s', hr, hs⟩

/-- The probe for the extensions finds out whether they are the way of access. -/
theorem run_probeExtensions (hm : m.Serves drive disk access) (s : m.State) :
    ∃ found s', (probeExtensions drive).run m.answer s = (some found, s') ∧
      (found = true ↔ access = .extended) ∧ m.memory s' = m.memory s := by
  have hservice : (highByte 0x4100) = 0x41 := by decide
  have ho := hm.extensions { ax := 0x4100, bx := 0x55AA, dx := drive.toUInt16 } s hservice rfl
    (lowByte_toUInt16 drive)
  refine ⟨_, _, rfl, ?_, hm.still _ s ?_⟩
  · rw [← ho]
    simp [DiskReply.OffersExtensions, and_assoc]
  · simp [Call.IsRead, Registers.service, hservice]

/-- The question for the shape of a drive without extensions is answered with its shape. -/
theorem run_askGeometry {shape : Shape} (hm : m.Serves drive disk (.chs shape)) (known : Geometry)
    (s : m.State) :
    ∃ s', (askGeometry drive known).run m.answer s = (some (true, shape.geometry), s') ∧
      m.memory s' = m.memory s := by
  have hservice : highByte 0x0800 = 0x08 := by decide
  have hd := hm.shape shape rfl { ax := 0x0800, dx := drive.toUInt16 } s hservice
    (lowByte_toUInt16 drive)
  have hsectors : (shape.geometry.sectorsPerTrack != 0) = true := by
    have := shape.sectorsPerTrack_pos
    simp only [bne_iff_ne, ne_eq, ← UInt8.toNat_inj, shape.toNat_sectorsPerTrack]
    exact Nat.pos_iff_ne_zero.1 this
  refine ⟨(m.answer (.disk { ax := 0x0800, dx := drive.toUInt16 }) s).2, ?_, hm.still _ s ?_⟩
  · simp only [askGeometry, perform, Program.request, Program.bind_ask, Program.run_ask,
      Program.bind_done]
    rw [hd.carry, if_neg (by simp), hd.geometry_eq, hsectors]
    rfl
  · simp [Call.IsRead, Registers.service, hservice]

/-- A new reader finds out how the drive is read. -/
theorem run_init (hm : m.Serves drive disk access) (s : m.State) :
    ∃ r s', (Reader.init { drive }).run m.answer s = (some (true, r), s') ∧
      r.drive = drive ∧ r.Uses access ∧ m.memory s' = m.memory s := by
  obtain ⟨found, s₁, hr₁, hf, hs₁⟩ := hm.run_probeExtensions s
  rw [Reader.init, Program.run_bind_of_eq hr₁]
  cases access with
  | extended =>
    rw [if_pos (hf.2 rfl)]
    exact ⟨_, s₁, rfl, rfl, .extended rfl, hs₁⟩
  | chs shape =>
    rw [if_neg (by simp [hf])]
    obtain ⟨s₂, hr₂, hs₂⟩ := hm.run_askGeometry {} s₁
    rw [Program.run_bind_of_eq hr₂]
    exact ⟨_, s₂, rfl, rfl, .chs shape rfl rfl, hs₂.trans hs₁⟩

/-- A read puts the sectors of a run where they were to go, piece by piece. -/
theorem run_readWithin {r : Reader} (hm : m.Serves drive disk access) (hd : r.drive = drive)
    (hu : r.Uses access) :
    ∀ (requests : Nat) (t : Transfer) (s : m.State), t.count.toNat ≤ requests →
      t.Fits access → 512 * (t.lba.toNat + t.count.toNat) ≤ disk.size →
      ∃ s', (r.readWithin requests t).run m.answer s = (some true, s') ∧
        m.memory s' =
          (SectorRun.mk t.lba.toNat t.count.toNat t.target.toNat).copy disk (m.memory s) := by
  intro requests
  induction requests with
  | zero =>
    intro t s hle _ _
    rw [show t.count.toNat = 0 by omega]
    exact ⟨s, rfl, rfl⟩
  | succ requests ih =>
    intro t s hle ht hdisk
    by_cases h : t.count = 0
    · rw [Reader.readWithin, if_pos h, h]
      exact ⟨s, rfl, rfl⟩
    have hpos := Reader.piece_pos hu h
    have hpiece : (r.piece t).toNat ≤ t.count.toNat := Reader.piece_le
    have hrequested := Reader.requested?_request hu ht h
    have hcount := Transfer.Fits.toNat_count_advance hpiece
    have htarget := ht.toNat_target_advance hpiece
    have hwithin : (SectorRun.mk t.lba.toNat (r.piece t).toNat t.target.toNat).Within disk := by
      have := ht.target
      exact ⟨by dsimp only; omega, by dsimp only; omega⟩
    obtain ⟨hcarry, hmemory⟩ :=
      hm.read (r.request t) s _ (Reader.drive_request.trans hd) hrequested hwithin
    obtain ⟨s', hr, hs'⟩ := ih (t.advance (r.piece t)) (m.answer (.disk (r.request t)) s).2
      (by omega) (ht.advance hpiece)
      (by rcases ht.toNat_lba_advance hpiece with hl | ⟨hl, hn⟩ <;> omega)
    refine ⟨s', ?_, ?_⟩
    · rw [Reader.readWithin_succ hu ht h]
      simp only [perform, Program.request, Program.bind_ask, Program.run_ask, Program.bind_done]
      rw [hcarry, if_neg (by simp)]
      exact hr
    · rw [hs', hmemory, htarget, hcount]
      rcases ht.toNat_lba_advance hpiece with hl | ⟨hl, hn⟩
      · rw [hl, SectorRun.copy_copy, Nat.add_sub_cancel' hpiece]
      · rw [hl, hn, Nat.sub_self]
        rfl

end Machine.Serves

end Bootloader.Legacy
