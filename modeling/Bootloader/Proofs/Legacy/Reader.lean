import Bootloader.Proofs.Legacy.DiskService

/-!
# One request of a read

A reader goes through a run of sectors piece by piece.  The next piece is `Reader.piece` sectors
long, and `Reader.request` is what the registers hold when it is asked for.  By either way of access
the service understands that request as the next `piece` sectors of the run, at the place in memory
where they belong (`requested?_request`).

So a read is a loop over pieces (`readWithin_succ`), each of which has at least one sector
(`piece_pos`) and no more than are left (`piece_le`).
-/

namespace Bootloader.Legacy

open Bios

namespace Transfer

variable (t : Transfer)

theorem toNat_toBoundary : t.toBoundary.toNat = (0x10000 - t.target.toNat % 0x10000) / 512 := by
  have hand : (t.target &&& 0xFFFF).toNat = t.target.toNat % 0x10000 := by
    rw [UInt32.toNat_and, show (0xFFFF : UInt32).toNat = 2 ^ 16 - 1 from rfl,
      Nat.and_two_pow_sub_one_eq_mod]
  rw [toBoundary, UInt32.toNat_div, UInt32.toNat_sub, hand,
    show (0x10000 : UInt32).toNat = 0x10000 from rfl, show (512 : UInt32).toNat = 512 from rfl]
  omega

/-- A chunk is all that is wanted, unless a boundary comes first. -/
theorem toNat_chunk :
    t.chunk.toNat =
      if t.toBoundary.toNat ≠ 0 ∧ t.toBoundary.toNat < min t.count.toNat 127 then
        t.toBoundary.toNat
      else min t.count.toNat 127 := by
  have hwanted : (if t.count < maxSectorsPerRead then t.count else maxSectorsPerRead).toNat =
      min t.count.toNat 127 := by
    split_ifs with h <;> rw [UInt32.lt_iff_toNat_lt] at h <;>
      simp only [show maxSectorsPerRead.toNat = 127 from rfl] at h ⊢ <;> omega
  dsimp only [chunk]
  generalize (if t.count < maxSectorsPerRead then t.count else maxSectorsPerRead) = wanted
    at hwanted ⊢
  simp only [ne_eq, ← UInt32.toNat_inj, gt_iff_lt, UInt32.lt_iff_toNat_lt, UInt32.toNat_zero,
    ← hwanted]
  split <;> rfl

theorem chunk_pos (h : t.count ≠ 0) : 0 < t.chunk.toNat := by
  rw [ne_eq, ← UInt32.toNat_inj, UInt32.toNat_zero] at h
  rw [toNat_chunk]
  split <;> omega

theorem chunk_le : t.chunk.toNat ≤ t.count.toNat := by
  rw [toNat_chunk]
  split <;> omega

theorem chunk_le_max : t.chunk.toNat ≤ 127 := by
  rw [toNat_chunk]
  split <;> omega

/-- Segment and offset make up the target below 1 MiB. -/
theorem linear_target (h : t.target.toNat < 2 ^ 20) :
    linear t.segment t.offset = t.target.toNat := by
  simp only [linear, segment, offset, UInt32.toNat_toUInt16, UInt32.toNat_shiftRight,
    UInt32.toNat_and]
  rw [show (4 : UInt32).toNat % 32 = 4 from rfl, show (0xF : UInt32).toNat = 2 ^ 4 - 1 from rfl,
    Nat.shiftRight_eq_div_pow, Nat.and_two_pow_sub_one_eq_mod]
  omega

end Transfer

/-- Memory below 1 MiB does not wrap. -/
theorem Transfer.toNat_target_advance_of_le {t : Transfer} {n : UInt32}
    (h : t.target.toNat + 512 * t.count.toNat ≤ 0x100000) (hn : n.toNat ≤ t.count.toNat) :
    (t.advance n).target.toNat = t.target.toNat + 512 * n.toNat := by
  rw [advance, UInt32.toNat_add, UInt32.toNat_mul, show (512 : UInt32).toNat = 512 from rfl]
  omega

/-- The sectors that can be named by a way of access. -/
def Access.sectors : Access → Nat
  | extended => 2 ^ 32
  | chs shape => shape.capacity

/-- A run goes to memory below 1 MiB, and its sectors can be named. -/
structure Transfer.Fits (t : Transfer) (access : Access) : Prop where
  target : t.target.toNat + 512 * t.count.toNat ≤ 0x100000
  sectors : t.lba.toNat + t.count.toNat ≤ access.sectors

/-- A reader that reads by a way of access. -/
inductive Reader.Uses (r : Reader) : Access → Prop where
  | extended (h : r.extended = true) : r.Uses .extended
  | chs (shape : Shape) (h : r.extended = false) (hg : r.geometry = shape.geometry) :
    r.Uses (.chs shape)

theorem Shape.capacity_lt (shape : Shape) : shape.capacity < 2 ^ 32 := by
  have h := Nat.mul_le_mul (Nat.mul_le_mul shape.cylinders_le shape.heads_le)
    shape.sectorsPerTrack_le
  unfold capacity
  omega

theorem Access.sectors_le : ∀ access : Access, access.sectors ≤ 2 ^ 32
  | extended => Nat.le_refl _
  | chs shape => Nat.le_of_lt shape.capacity_lt

namespace Transfer.Fits

variable {t : Transfer} {access : Access} {n : UInt32}

theorem toNat_count_advance (hn : n.toNat ≤ t.count.toNat) :
    (t.advance n).count.toNat = t.count.toNat - n.toNat := by
  rw [advance, UInt32.toNat_sub_of_le _ _ (UInt32.le_iff_toNat_le.2 hn)]

theorem toNat_target_advance (h : t.Fits access) (hn : n.toNat ≤ t.count.toNat) :
    (t.advance n).target.toNat = t.target.toNat + 512 * n.toNat :=
  toNat_target_advance_of_le h.target hn

/-- The number of the next sector; it may wrap when none is left. -/
theorem toNat_lba_advance (h : t.Fits access) (hn : n.toNat ≤ t.count.toNat) :
    (t.advance n).lba.toNat = t.lba.toNat + n.toNat ∨
      (t.advance n).lba.toNat = 0 ∧ n.toNat = t.count.toNat := by
  have := h.sectors
  have := access.sectors_le
  rw [advance, UInt32.toNat_add]
  omega

theorem advance (h : t.Fits access) (hn : n.toNat ≤ t.count.toNat) :
    (t.advance n).Fits access := by
  have ht := h.target
  have hs := h.sectors
  have hc := toNat_count_advance hn
  refine ⟨?_, ?_⟩
  · rw [toNat_target_advance h hn, hc]
    omega
  · rcases toNat_lba_advance h hn with hl | ⟨hl, hn'⟩ <;> rw [hl, hc] <;> omega

end Transfer.Fits

namespace Reader

/-- The sectors of the next request. -/
def piece (r : Reader) (t : Transfer) : UInt32 := if r.extended then t.chunk else r.trackChunk t

/-- The registers of the next request. -/
def request (r : Reader) (t : Transfer) : Registers :=
  if r.extended then
    { ax := 0x4200, dx := r.drive.toUInt16
      packet := some (.make t.chunk.toUInt16 t.segment t.offset t.lba.toUInt64) }
  else
    chsRegisters r.drive (r.geometry.locate t.lba) (r.trackChunk t).toUInt8 t.segment t.offset

/-- The next sector is taken to be off the drive. -/
def Ended (r : Reader) (t : Transfer) : Prop :=
  r.extended = false ∧ r.geometry.cylinders ≤ (r.geometry.locate t.lba).cylinder

instance (r : Reader) (t : Transfer) : Decidable (r.Ended t) :=
  inferInstanceAs (Decidable (_ ∧ _))

variable {r : Reader} {t : Transfer} {access : Access}

theorem request_of_extended (he : r.extended = true) :
    r.request t =
      { ax := 0x4200, dx := r.drive.toUInt16
        packet := some (.make t.chunk.toUInt16 t.segment t.offset t.lba.toUInt64) } := by
  rw [request, if_pos he]

theorem request_of_chs (he : r.extended = false) :
    r.request t =
      chsRegisters r.drive (r.geometry.locate t.lba) (r.trackChunk t).toUInt8 t.segment
        t.offset := by
  rw [request, if_neg (by simp [he])]

theorem piece_of_extended (he : r.extended = true) : r.piece t = t.chunk := by
  rw [piece, if_pos he]

theorem piece_of_chs (he : r.extended = false) : r.piece t = r.trackChunk t := by
  rw [piece, if_neg (by simp [he])]

/-- A read asks for the next piece, unless it is off the drive, and goes on behind it unless the
request fails. -/
theorem readWithin_eq (h : t.count ≠ 0) (requests : Nat) :
    r.readWithin (requests + 1) t =
      if r.Ended t then .done false
      else perform (.disk (r.request t)) >>= fun reply =>
        if reply.carry then .done false
        else r.readWithin requests (t.advance (r.piece t)) := by
  rw [readWithin, if_neg h]
  rcases he : r.extended with _ | _
  · rw [request_of_chs he, piece_of_chs he]
    simp only [Ended, he, Bool.false_eq_true, if_false, true_and]
    split
    · rfl
    · simp only [readChs, Program.bind_bind]
      congr 1
      funext reply
      cases reply.carry <;> rfl
  · rw [request_of_extended he, piece_of_extended he]
    simp only [Ended, he, if_true, Bool.true_eq_false, false_and, if_false]
    simp only [readExtended, Program.bind_bind]
    congr 1
    funext reply
    cases reply.carry <;> rfl

theorem drive_request : (r.request t).drive = r.drive := by
  unfold request
  split
  · exact lowByte_toUInt16 r.drive
  · exact drive_chsRegisters

/-- A piece by cylinder, head and sector also ends with the track. -/
theorem toNat_trackChunk {shape : Shape} (hg : r.geometry = shape.geometry) :
    (r.trackChunk t).toNat =
      min t.chunk.toNat (shape.sectorsPerTrack - t.lba.toNat % shape.sectorsPerTrack) := by
  obtain ⟨-, -, hsector⟩ := shape.toNat_locate t.lba
  rw [Nat.mod_mod_of_dvd _ shape.dvd_reach] at hsector
  have hlt := Nat.mod_lt t.lba.toNat shape.sectorsPerTrack_pos
  have hs := shape.sectorsPerTrack_le
  have hleft : (r.geometry.sectorsPerTrack.toUInt32 -
      ((r.geometry.locate t.lba).sector.toUInt32 - 1)).toNat =
        shape.sectorsPerTrack - t.lba.toNat % shape.sectorsPerTrack := by
    rw [hg, UInt32.toNat_sub, UInt32.toNat_sub, UInt8.toNat_toUInt32, UInt8.toNat_toUInt32, hsector,
      shape.toNat_sectorsPerTrack, UInt32.toNat_one]
    omega
  simp only [trackChunk, gt_iff_lt, UInt32.lt_iff_toNat_lt, hleft]
  split
  · rw [hleft]
    omega
  · omega

theorem piece_le_chunk : (r.piece t).toNat ≤ t.chunk.toNat := by
  unfold piece trackChunk
  split
  · exact Nat.le_refl _
  · dsimp only
    split
    · rename_i h
      exact Nat.le_of_lt (UInt32.lt_iff_toNat_lt.1 h)
    · exact Nat.le_refl _

theorem piece_le : (r.piece t).toNat ≤ t.count.toNat := Nat.le_trans piece_le_chunk t.chunk_le

theorem lba_lt_capacity {shape : Shape} (ht : t.Fits (.chs shape)) (h : t.count ≠ 0) :
    t.lba.toNat < shape.capacity := by
  have := ht.sectors
  rw [ne_eq, ← UInt32.toNat_inj, UInt32.toNat_zero] at h
  simp only [Access.sectors] at this
  omega

theorem piece_pos (hu : r.Uses access) (h : t.count ≠ 0) : 0 < (r.piece t).toNat := by
  have hc := t.chunk_pos h
  cases hu with
  | extended he => rwa [piece_of_extended he]
  | chs shape he hg =>
    have hlt := Nat.mod_lt t.lba.toNat shape.sectorsPerTrack_pos
    rw [piece_of_chs he, toNat_trackChunk hg]
    omega

section Chs

variable {shape : Shape} (he : r.extended = false) (hg : r.geometry = shape.geometry)

include he hg

/-- The next request asks for sectors of the place where the next sector is taken to be. -/
theorem requested?_chsRequest (h : t.count ≠ 0)
    (hl : t.lba.toNat % shape.reach < shape.capacity) :
    (Access.chs shape).requested? (r.request t) =
      some ⟨t.lba.toNat % shape.reach, (r.piece t).toNat, linear t.segment t.offset⟩ := by
  have hpos := piece_pos (.chs shape he hg) h
  have hchunk := t.chunk_le_max
  have htrack := toNat_trackChunk (t := t) hg
  have hlt := Nat.mod_lt t.lba.toNat shape.sectorsPerTrack_pos
  rw [piece_of_chs he] at hpos ⊢
  have hbyte : (r.trackChunk t).toUInt8.toNat = (r.trackChunk t).toNat := by
    rw [UInt32.toNat_toUInt8, Nat.mod_eq_of_lt (by omega)]
  rw [request_of_chs he, hg,
    requested?_chs hl (by omega) (by rw [hbyte, htrack]; omega), hbyte]

/-- A read by cylinder, head and sector ends when the place of the next sector is off the drive. -/
theorem readWithin_chs (h : t.count ≠ 0) (requests : Nat) :
    r.readWithin (requests + 1) t =
      if shape.capacity ≤ t.lba.toNat % shape.reach then .done false
      else perform (.disk (r.request t)) >>= fun reply =>
        if reply.carry then .done false
        else r.readWithin requests (t.advance (r.piece t)) := by
  have hended : r.Ended t ↔ shape.capacity ≤ t.lba.toNat % shape.reach := by
    rw [Ended, hg, UInt16.le_iff_toNat_le, (shape.toNat_locate t.lba).1, shape.toNat_cylinders,
      ← Nat.not_lt, shape.lt_capacity_iff, Nat.not_lt]
    exact and_iff_right he
  rw [readWithin_eq h]
  simp only [hended]

end Chs

/-- The next request asks for the next sectors of the run, and has them put where they belong. -/
theorem requested?_request (hu : r.Uses access) (ht : t.Fits access) (h : t.count ≠ 0) :
    access.requested? (r.request t) =
      some ⟨t.lba.toNat, (r.piece t).toNat, t.target.toNat⟩ := by
  have hpos := piece_pos hu h
  have hchunk := t.chunk_le_max
  have hle : (r.piece t).toNat ≤ t.chunk.toNat := piece_le_chunk
  have hcount := t.chunk_le
  have hlinear : linear t.segment t.offset = t.target.toNat := by
    have := ht.target
    exact t.linear_target (by omega)
  cases hu with
  | extended he =>
    rw [request_of_extended he, requested?_extended, UInt32.toNat_toUInt64, UInt32.toNat_toUInt16,
      hlinear, piece, if_pos he, Nat.mod_eq_of_lt (by omega)]
  | chs shape he hg =>
    have hl := lba_lt_capacity ht h
    have hmod := Nat.mod_eq_of_lt (Nat.lt_trans hl shape.capacity_lt_reach)
    rw [requested?_chsRequest he hg h (by rwa [hmod]), hmod, hlinear]

/-- A read asks for the next piece, and goes on behind it unless the request fails. -/
theorem readWithin_succ (hu : r.Uses access) (ht : t.Fits access) (h : t.count ≠ 0)
    (requests : Nat) :
    r.readWithin (requests + 1) t =
      perform (.disk (r.request t)) >>= fun reply =>
        if reply.carry then .done false
        else r.readWithin requests (t.advance (r.piece t)) := by
  cases hu with
  | extended he => rw [readWithin_eq h, if_neg (by simp [Ended, he])]
  | chs shape he hg =>
    have hl := lba_lt_capacity ht h
    rw [readWithin_chs he hg h, Nat.mod_eq_of_lt (Nat.lt_trans hl shape.capacity_lt_reach),
      if_neg (by omega)]

end Reader

end Bootloader.Legacy
