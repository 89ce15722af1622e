import Bootloader.Proofs.Legacy.SectorLoop

/-!
# Reading past the end of a drive

A read by cylinder, head and sector ought to ask for no sectors but those of its run, and to end
where the drive ends (`KeptWithin`).  Whether a sector is on the drive is asked of its cylinder,
which has 16 bits by then.  Sectors whose cylinder does not fit are taken for some that come before
them, so such a read keeps within its run only if those are not on the drive either
(`keepsWithin_iff`).
-/

namespace Bootloader.Legacy

open Bios Program

namespace SectorRun

variable {run : SectorRun}

@[simp] theorem length_sectors : run.sectors.length = run.count := by simp [sectors]

theorem fst_of_mem_sectors {x : Nat × Nat} (h : x ∈ run.sectors) :
    run.first ≤ x.1 ∧ x.1 < run.first + run.count := by
  obtain ⟨i, hi, rfl⟩ := List.mem_map.1 h
  have := List.mem_range.1 hi
  dsimp only
  omega

end SectorRun

/-- The calls ask for no sectors but those of a run, and for none once the next one is off the
drive. -/
structure KeptWithin (shape : Shape) (lba count : Nat) (es : List (Exchange Bios))
    (o : Option Bool) : Prop where
  asked : ∀ e ∈ es, ∃ run, (Access.chs shape).asked? e = some run
  within : ∀ x ∈ (Access.chs shape).sectorsAsked es, lba ≤ x.1 ∧ x.1 < lba + count
  ends : ∀ pre post, es = pre ++ post →
    shape.capacity ≤ lba + ((Access.chs shape).sectorsAsked pre).length →
      ((Access.chs shape).sectorsAsked pre).length < count → post = [] ∧ o = some false

namespace KeptWithin

variable {shape : Shape} {lba count n address : Nat} {r : Registers} {reply : DiskReply}
variable {es : List (Exchange Bios)} {o : Option Bool}

theorem nil (h : count = 0 ∨ o = some false) : KeptWithin shape lba count [] o where
  asked := by simp
  within := by simp [Access.sectorsAsked]
  ends := by
    intro pre post hes _ hlt
    obtain ⟨rfl, rfl⟩ := List.append_eq_nil_iff.1 hes.symm
    exact ⟨rfl, h.resolve_left (Nat.ne_of_gt (Nat.zero_lt_of_lt hlt))⟩

theorem cons (hr : (Access.chs shape).requested? r = some ⟨lba, n, address⟩) (hn : n ≤ count)
    (hl : lba < shape.capacity) (h : KeptWithin shape (lba + n) (count - n) es o) :
    KeptWithin shape lba count (⟨.disk r, reply⟩ :: es) o where
  asked := List.forall_mem_cons.2 ⟨⟨_, hr⟩, h.asked⟩
  within := by
    intro x hx
    rw [Access.sectorsAsked_cons hr, List.mem_append] at hx
    rcases hx with hx | hx
    · have hfst := SectorRun.fst_of_mem_sectors hx
      dsimp only at hfst
      omega
    · have hfst := h.within x hx
      omega
  ends := by
    intro pre post hes hend hlt
    cases pre with
    | nil =>
      simp only [Access.sectorsAsked, List.filterMap_nil, List.flatMap_nil, List.length_nil] at hend
      omega
    | cons e pre =>
      rw [List.cons_append, List.cons.injEq] at hes
      obtain ⟨rfl, hes⟩ := hes
      rw [Access.sectorsAsked_cons hr, List.length_append, SectorRun.length_sectors] at hend hlt
      dsimp only at hend hlt
      exact h.ends pre post hes (by omega) (by omega)

end KeptWithin

namespace Shape

variable (shape : Shape)

/-- The drive ends with a track. -/
theorem track_end_le {lba : Nat} (h : lba < shape.capacity) :
    lba + (shape.sectorsPerTrack - lba % shape.sectorsPerTrack) ≤ shape.capacity := by
  have hpos := shape.sectorsPerTrack_pos
  have hlt := Nat.mod_lt lba hpos
  have hdiv := Nat.div_add_mod' lba shape.sectorsPerTrack
  have htrack : lba / shape.sectorsPerTrack + 1 ≤ shape.cylinders * shape.heads :=
    (Nat.div_lt_iff_lt_mul hpos).2 h
  have hle := Nat.mul_le_mul_right shape.sectorsPerTrack htrack
  rw [Nat.succ_mul] at hle
  unfold capacity
  omega

end Shape

namespace Reader

variable {r : Reader} {shape : Shape} {t : Transfer}

/-- Every read of a run keeps within it, whatever the BIOS answers. -/
def KeepsWithin (r : Reader) (shape : Shape) (lba count target : UInt32) : Prop :=
  ∀ es o, Runs (r.read lba count target) es o → KeptWithin shape lba.toNat count.toNat es o

section Chs

variable (he : r.extended = false) (hg : r.geometry = shape.geometry)

include he hg

theorem lba_add_piece_le (hl : t.lba.toNat < shape.capacity) :
    t.lba.toNat + (r.piece t).toNat ≤ shape.capacity := by
  have hend := shape.track_end_le hl
  rw [piece_of_chs he, toNat_trackChunk hg]
  omega

/-- A sector of the drive and a piece make no number that wraps. -/
theorem toNat_lba_advance_piece (hl : t.lba.toNat < shape.capacity) :
    (t.advance (r.piece t)).lba.toNat = t.lba.toNat + (r.piece t).toNat := by
  have hend := lba_add_piece_le (t := t) he hg hl
  have hcapacity := shape.capacity_lt
  rw [Transfer.advance, UInt32.toNat_add, Nat.mod_eq_of_lt (by omega)]

/-- By induction on the requests that are allowed: a piece ends on the drive, or with it. -/
theorem keptWithin_readWithin :
    ∀ (requests : Nat) (t : Transfer), t.count.toNat ≤ requests →
      (t.lba.toNat < shape.reach ∨ shape.capacity ≤ t.lba.toNat % shape.reach) →
        ∀ es o, Runs (r.readWithin requests t) es o →
          KeptWithin shape t.lba.toNat t.count.toNat es o
  | 0, t, hle, _, es, o, hr => by
    obtain ⟨rfl, rfl⟩ := runs_done_iff.1 hr
    exact .nil (.inl (by omega))
  | requests + 1, t, hle, hlba, es, o, hr => by
    by_cases h : t.count = 0
    · rw [readWithin, if_pos h] at hr
      obtain ⟨rfl, rfl⟩ := runs_done_iff.1 hr
      exact .nil (.inl (by rw [h, UInt32.toNat_zero]))
    rw [readWithin_chs he hg h] at hr
    split at hr
    · obtain ⟨rfl, rfl⟩ := runs_done_iff.1 hr
      exact .nil (.inr rfl)
    rename_i hend
    -- what is at the place is on the drive, so the sector has not been taken for another
    have hmod : t.lba.toNat % shape.reach = t.lba.toNat :=
      Nat.mod_eq_of_lt (hlba.resolve_right hend)
    have hrequested := requested?_chsRequest he hg h (Nat.lt_of_not_le hend)
    rw [hmod] at hrequested hend
    have hl : t.lba.toNat < shape.capacity := Nat.lt_of_not_le hend
    have hpos := piece_pos (.chs shape he hg) h
    have hpiece : (r.piece t).toNat ≤ t.count.toNat := piece_le
    have hcount := Transfer.Fits.toNat_count_advance hpiece
    have hpieceEnd := lba_add_piece_le (t := t) he hg hl
    have hreach := shape.capacity_lt_reach
    have hadvance := toNat_lba_advance_piece (t := t) he hg hl
    obtain ⟨reply, es', rfl, hrest⟩ := runs_request.1 hr
    refine .cons hrequested hpiece hl ?_
    cases hc : reply.carry with
    | true =>
      rw [hc, if_pos rfl] at hrest
      obtain ⟨rfl, rfl⟩ := runs_done_iff.1 hrest
      exact .nil (.inr rfl)
    | false =>
      rw [hc, if_neg (by simp)] at hrest
      rw [← hadvance, ← hcount]
      exact keptWithin_readWithin requests _ (by omega) (.inl (by omega)) es' o hrest

/-- A read that did not fail was of sectors on the drive, if the cylinder of the first one fits. -/
theorem lba_add_count_le_of_read :
    ∀ (requests : Nat) (t : Transfer), t.count.toNat ≤ requests → t.count ≠ 0 →
      t.lba.toNat < shape.reach → ∀ es, Runs (r.readWithin requests t) es (some true) →
        t.lba.toNat + t.count.toNat ≤ shape.capacity
  | 0, t, hle, h, _, es, hr => by
    rw [ne_eq, ← UInt32.toNat_inj, UInt32.toNat_zero] at h
    omega
  | requests + 1, t, hle, h, hlba, es, hr => by
    rw [readWithin_chs he hg h, Nat.mod_eq_of_lt hlba] at hr
    split at hr
    · simp at hr
    rename_i hl
    have hpos := piece_pos (.chs shape he hg) h
    have hpiece : (r.piece t).toNat ≤ t.count.toNat := piece_le
    have hcount := Transfer.Fits.toNat_count_advance hpiece
    have hend := lba_add_piece_le (t := t) he hg (Nat.lt_of_not_le hl)
    have hreach := shape.capacity_lt_reach
    have hadvance := toNat_lba_advance_piece (t := t) he hg (Nat.lt_of_not_le hl)
    obtain ⟨reply, es', rfl, hrest⟩ := runs_request.1 hr
    cases hc : reply.carry with
    | true => simp [hc] at hrest
    | false =>
      rw [hc, if_neg (by simp)] at hrest
      by_cases hzero : (t.advance (r.piece t)).count = 0
      · rw [← UInt32.toNat_inj, UInt32.toNat_zero] at hzero
        omega
      · have hle' := lba_add_count_le_of_read requests _ (by omega) hzero (by omega) es' hrest
        omega

/-- A read whose cylinder does not fit asks for sectors before its run first of all. -/
theorem not_keepsWithin {lba count target : UInt32} (hcount : count ≠ 0)
    (hlba : shape.reach ≤ lba.toNat) (hl : lba.toNat % shape.reach < shape.capacity) :
    ¬r.KeepsWithin shape lba count target := by
  intro hkeeps
  let t : Transfer := ⟨lba, count, target⟩
  let e : Exchange Bios := ⟨.disk (r.request t), { carry := true }⟩
  have hrequested := requested?_chsRequest (t := t) he hg hcount hl
  have hpos := piece_pos (t := t) (.chs shape he hg) hcount
  have hr : Runs (r.read lba count target) [e] (some false) := by
    rw [ne_eq, ← UInt32.toNat_inj, UInt32.toNat_zero] at hcount
    obtain ⟨requests, hrequests⟩ := Nat.exists_eq_succ_of_ne_zero hcount
    rw [Reader.read, hrequests, readWithin_chs he hg (by rwa [ne_eq, ← UInt32.toNat_inj]),
      if_neg (Nat.not_le.2 hl)]
    exact runs_request.2 ⟨_, [], rfl, .done false⟩
  have hmem : (lba.toNat % shape.reach, linear t.segment t.offset) ∈
      (Access.chs shape).sectorsAsked [e] := by
    rw [Access.sectorsAsked_cons hrequested, List.mem_append]
    exact .inl (List.mem_map.2 ⟨0, List.mem_range.2 hpos, rfl⟩)
  obtain ⟨hle, -⟩ := (hkeeps [e] _ hr).within _ hmem
  have hcapacity := shape.capacity_lt_reach
  dsimp only at hle
  omega

end Chs

/-- A reader that was told the shape of its drive keeps a read by cylinder, head and sector within
its run, and on the drive, just if the first cylinder fits into 16 bits or what is left of it is
past the end of the drive. -/
theorem keepsWithin_iff {known : Geometry} {es₀ : List (Exchange Bios)}
    (h : Runs (askGeometry r.drive known) es₀ (some (true, r.geometry)))
    (he : r.extended = false) :
    ∃ shape : Shape, r.geometry = shape.geometry ∧ ∀ lba count target : UInt32,
      r.KeepsWithin shape lba count target ↔
        count = 0 ∨ lba.toNat < shape.reach ∨ shape.capacity ≤ lba.toNat % shape.reach := by
  obtain ⟨shape, hg⟩ := exists_shape_of_askGeometry h
  refine ⟨shape, hg, fun lba count target => ⟨fun hkeeps => ?_, ?_⟩⟩
  · by_cases hcount : count = 0
    · exact .inl hcount
    rcases Nat.lt_or_ge lba.toNat shape.reach with hlba | hlba
    · exact .inr (.inl hlba)
    rcases Nat.lt_or_ge (lba.toNat % shape.reach) shape.capacity with hl | hl
    · exact absurd hkeeps (not_keepsWithin he hg hcount hlba hl)
    · exact .inr (.inr hl)
  · rintro (rfl | hlba) es o hr
    · obtain ⟨rfl, rfl⟩ := runs_done_iff.1 hr
      exact .nil (.inl rfl)
    · exact keptWithin_readWithin he hg count.toNat ⟨lba, count, target⟩ (Nat.le_refl _) hlba
        es o hr

/-- A hard disk of 1024 cylinders, 16 heads and 63 sectors. -/
def hardDisk : Shape where
  cylinders := 1024
  heads := 16
  sectorsPerTrack := 63
  cylinders_pos := by decide
  cylinders_le := by decide
  heads_pos := by decide
  heads_le := by decide
  sectorsPerTrack_pos := by decide
  sectorsPerTrack_le := by decide

theorem runs_askGeometry_hardDisk (drive : UInt8) (known : Geometry) :
    Runs (askGeometry drive known)
      [⟨.disk { ax := 0x0800, dx := drive.toUInt16 },
        { cx := 0xFFFF, dx := 0x0F01, carry := false }⟩]
      (some (true, hardDisk.geometry)) :=
  runs_request.2 ⟨_, [], rfl, .done (true, hardDisk.geometry)⟩

/-- A read that begins on that disk and goes on past its end. -/
theorem keepsWithin_hardDisk : ∃ shape : Shape, hardDisk.geometry = shape.geometry ∧
    Reader.KeepsWithin { drive := 0x80, geometry := hardDisk.geometry } shape
      1032000 1000 0x10000 := by
  obtain ⟨shape, hg, hkeeps⟩ := keepsWithin_iff
    (r := { drive := 0x80, geometry := hardDisk.geometry }) (runs_askGeometry_hardDisk 0x80 {}) rfl
  refine ⟨shape, hg, (hkeeps 1032000 1000 0x10000).2 (.inr (.inl ?_))⟩
  have hheads : shape.heads = 16 := by
    rw [← shape.toNat_heads, ← hg]
    rfl
  have hsectors : shape.sectorsPerTrack = 63 := by
    rw [← shape.toNat_sectorsPerTrack, ← hg]
    rfl
  rw [Shape.reach, hheads, hsectors]
  decide

/-- Not every read keeps within its run: the first sector of that disk whose cylinder does not fit
is taken for sector 0. -/
theorem not_forall_keepsWithin :
    ¬∀ (r : Reader) (known : Geometry) (es₀ : List (Exchange Bios)) (shape : Shape),
      Runs (askGeometry r.drive known) es₀ (some (true, r.geometry)) → r.extended = false →
        r.geometry = shape.geometry → ∀ lba count target : UInt32,
          lba.toNat + count.toNat ≤ 2 ^ 32 → r.KeepsWithin shape lba count target := by
  intro h
  let r : Reader := { drive := 0x80, geometry := hardDisk.geometry }
  have hask := runs_askGeometry_hardDisk r.drive {}
  have hkeeps := h r {} _ hardDisk hask rfl rfl 66060288 1 0x10000 (by decide)
  exact not_keepsWithin rfl rfl (by decide) (by decide) (by decide) hkeeps

end Reader

end Bootloader.Legacy
