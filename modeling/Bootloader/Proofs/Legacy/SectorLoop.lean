import Bootloader.Proofs.Ensures
import Bootloader.Proofs.Legacy.Reader

/-!
# A read as a loop over sectors

The plain way to read a run of sectors is one sector after the other, each to its own place in
memory: `SectorRun.sectors` lists the steps of that loop.  A reader takes several steps at once, and
how many depends on what is left, on memory and on the track.  `Transfer.ReadBy` says that it is
still that loop: its requests, taken apart into sectors, are the first steps in their order, up to
the first request that fails, and all of them if none does.

Every reader that has found out how to read its drive reads in this way, however the BIOS answers
(`readBy_of_init`).
-/

namespace Bootloader.Legacy

open Bios Program

namespace SectorRun

/-- The sectors of a run one by one, each with the address it goes to. -/
def sectors (run : SectorRun) : List (Nat × Nat) :=
  (List.range run.count).map fun i => (run.first + i, run.address + 512 * i)

theorem sectors_add (first m n address : Nat) :
    (mk first (m + n) address).sectors =
      (mk first m address).sectors ++ (mk (first + m) n (address + 512 * m)).sectors := by
  simp only [sectors, List.range_add, List.map_append, List.map_map]
  congr 2
  funext i
  simp only [Function.comp_apply, Prod.mk.injEq]
  omega

end SectorRun

/-- The sectors that a call to the disk service asks for. -/
def Access.asked? (access : Access) : Exchange Bios → Option SectorRun
  | ⟨.disk r, _⟩ => access.requested? r
  | _ => none

/-- The sectors that the calls ask for, one by one. -/
def Access.sectorsAsked (access : Access) (es : List (Exchange Bios)) : List (Nat × Nat) :=
  (es.filterMap access.asked?).flatMap SectorRun.sectors

/-- Whether the disk service failed. -/
def failed : Exchange Bios → Bool
  | ⟨.disk _, reply⟩ => reply.carry
  | _ => false

/-- The run of sectors that is still to be read. -/
def Transfer.run (t : Transfer) : SectorRun := ⟨t.lba.toNat, t.count.toNat, t.target.toNat⟩

/-- The calls read a run as a loop over its sectors does, and `ok` tells how that went. -/
structure Transfer.ReadBy (t : Transfer) (access : Access) (drive : UInt8)
    (es : List (Exchange Bios)) (ok : Bool) : Prop where
  asked : ∀ e ∈ es, ∃ (r : Registers) (reply : DiskReply) (run : SectorRun),
    e = ⟨.disk r, reply⟩ ∧ r.drive = drive ∧ access.requested? r = some run
  inOrder : access.sectorsAsked es <+: t.run.sectors
  stops : ∀ pre e post, es = pre ++ e :: post → failed e = true → post = []
  ok_iff : ok = true ↔ ∀ e ∈ es, failed e = false
  whole : ok = true → access.sectorsAsked es = t.run.sectors

section Steps

variable {t : Transfer} {access : Access} {drive : UInt8} {n : UInt32}
variable {r : Registers} {reply : DiskReply} {es : List (Exchange Bios)} {ok : Bool}

theorem Access.sectorsAsked_cons {run : SectorRun} (h : access.requested? r = some run) :
    access.sectorsAsked (⟨.disk r, reply⟩ :: es) = run.sectors ++ access.sectorsAsked es := by
  have hasked : access.asked? ⟨.disk r, reply⟩ = some run := h
  rw [sectorsAsked, List.filterMap_cons_some hasked, List.flatMap_cons]
  rfl

theorem Transfer.sectors_run_of_count_eq_zero (h : t.count = 0) : t.run.sectors = [] := by
  rw [Transfer.run, h]
  rfl

/-- The loop over a run is the loop over its first sectors and then over those left. -/
theorem Transfer.Fits.sectors_run (ht : t.Fits access) (hn : n.toNat ≤ t.count.toNat) :
    t.run.sectors =
      (SectorRun.mk t.lba.toNat n.toNat t.target.toNat).sectors ++ (t.advance n).run.sectors := by
  have hcount := toNat_count_advance hn
  have htarget := ht.toNat_target_advance hn
  rcases ht.toNat_lba_advance hn with hlba | ⟨-, hall⟩
  · rw [Transfer.run, Transfer.run, hcount, htarget, hlba, ← SectorRun.sectors_add,
      Nat.add_sub_cancel' hn]
  · -- nothing is left, so it does not matter where the rest would begin
    have hzero : (t.advance n).count = 0 := by
      rw [← UInt32.toNat_inj, hcount, hall, Nat.sub_self, UInt32.toNat_zero]
    rw [sectors_run_of_count_eq_zero hzero, List.append_nil, Transfer.run, hall]

namespace Transfer.ReadBy

theorem nil (h : t.count = 0) : t.ReadBy access drive [] true where
  asked := by simp
  inOrder := List.nil_prefix
  stops := by simp
  ok_iff := by simp
  whole _ := (sectors_run_of_count_eq_zero h).symm

theorem refused (hd : r.drive = drive)
    (hr : access.requested? r = some ⟨t.lba.toNat, n.toNat, t.target.toNat⟩)
    (ht : t.Fits access) (hn : n.toNat ≤ t.count.toNat) (hc : reply.carry = true) :
    t.ReadBy access drive [⟨.disk r, reply⟩] false where
  asked := by
    intro e he
    rw [List.mem_singleton.1 he]
    exact ⟨r, reply, _, rfl, hd, hr⟩
  inOrder := by
    rw [Access.sectorsAsked_cons hr, ht.sectors_run hn, List.prefix_append_right_inj]
    exact List.nil_prefix
  stops := by
    intro pre e post hes _
    cases pre with
    | nil => exact (List.cons.inj hes).2.symm
    | cons => simp at hes
  ok_iff := by simp [failed, hc]
  whole := by simp

theorem cons (hd : r.drive = drive)
    (hr : access.requested? r = some ⟨t.lba.toNat, n.toNat, t.target.toNat⟩)
    (ht : t.Fits access) (hn : n.toNat ≤ t.count.toNat) (hc : reply.carry = false)
    (h : (t.advance n).ReadBy access drive es ok) :
    t.ReadBy access drive (⟨.disk r, reply⟩ :: es) ok where
  asked := List.forall_mem_cons.2 ⟨⟨r, reply, _, rfl, hd, hr⟩, h.asked⟩
  inOrder := by
    rw [Access.sectorsAsked_cons hr, ht.sectors_run hn, List.prefix_append_right_inj]
    exact h.inOrder
  stops := by
    intro pre e post hes he
    cases pre with
    | nil =>
      obtain ⟨rfl, -⟩ := List.cons.inj hes
      exact absurd he (by simp [failed, hc])
    | cons e' pre => exact h.stops pre e post (List.cons.inj hes).2 he
  ok_iff := by rw [h.ok_iff, List.forall_mem_cons, failed, and_iff_right hc]
  whole hok := by rw [Access.sectorsAsked_cons hr, ht.sectors_run hn, h.whole hok]

end Transfer.ReadBy

end Steps

namespace Reader

variable {r : Reader} {access : Access}

/-- By induction on the requests that are allowed: what is left after a request fits as well. -/
theorem ensures_readWithin (hu : r.Uses access) :
    ∀ (requests : Nat) (t : Transfer), t.count.toNat ≤ requests → t.Fits access →
      (r.readWithin requests t).Ensures (fun _ => True) (t.ReadBy access r.drive)
  | 0, t, hle, _ => by
    have hzero : t.count = 0 := by
      rw [← UInt32.toNat_inj, UInt32.toNat_zero]
      omega
    exact ensures_done.2 (.nil hzero)
  | requests + 1, t, hle, ht => by
    by_cases h : t.count = 0
    · rw [readWithin, if_pos h]
      exact ensures_done.2 (.nil h)
    have hpos := piece_pos hu h
    have hpiece : (r.piece t).toNat ≤ t.count.toNat := piece_le
    have hcount := Transfer.Fits.toNat_count_advance hpiece
    have hrequested := requested?_request hu ht h
    rw [readWithin_succ hu ht h]
    refine ensures_request.2 fun reply _ => ?_
    cases hc : reply.carry with
    | true => exact ensures_done.2 (.refused drive_request hrequested ht hpiece hc)
    | false =>
      have hrest := ensures_readWithin hu requests (t.advance (r.piece t)) (by omega)
        (ht.advance hpiece)
      exact hrest.mono fun es ok h => .cons drive_request hrequested ht hpiece hc h

end Reader

/-- An answer that is no failure describes a shape, no part of which is out of range, provided that
it tells of sectors. -/
theorem DiskReply.exists_describes {reply : DiskReply} (hc : reply.carry = false)
    (h : reply.geometry.sectorsPerTrack ≠ 0) : ∃ shape, reply.Describes shape := by
  have hlow := (lowByte reply.cx).toNat_lt
  have hhigh := (highByte reply.cx).toNat_lt
  have hdx := (highByte reply.dx).toNat_lt
  have hcylinders := reply.toNat_cylinders_geometry
  have hheads : reply.geometry.heads.toNat = (highByte reply.dx).toNat + 1 := by
    simp only [geometry, UInt16.toNat_add, UInt8.toNat_toUInt16, UInt16.toNat_one]
    omega
  have hsectors : reply.geometry.sectorsPerTrack.toNat = (lowByte reply.cx).toNat % 64 := by
    rw [geometry, UInt8.toNat_and, show (0x3F : UInt8).toNat = 2 ^ 6 - 1 from rfl,
      Nat.and_two_pow_sub_one_eq_mod]
  rw [ne_eq, ← UInt8.toNat_inj, UInt8.toNat_zero] at h
  refine ⟨⟨reply.geometry.cylinders.toNat, reply.geometry.heads.toNat,
    reply.geometry.sectorsPerTrack.toNat, by omega, by omega, by omega, by omega, by omega,
    by omega⟩, hc, ?_, ?_, hsectors.symm, ?_⟩
  · dsimp only
    omega
  · dsimp only
    omega
  · dsimp only
    omega

/-- The shape is known once the question for it was answered. -/
theorem exists_shape_of_askGeometry {drive : UInt8} {known g : Geometry}
    {es : List (Exchange Bios)} (h : Runs (askGeometry drive known) es (some (true, g))) :
    ∃ shape : Shape, g = shape.geometry := by
  obtain ⟨reply, es', -, h⟩ := runs_request.1 h
  cases hc : reply.carry with
  | true =>
    rw [hc] at h
    simp at h
  | false =>
    rw [hc, if_neg (by simp)] at h
    obtain ⟨-, h⟩ := runs_done_iff.1 h
    simp only [Option.some.injEq, Prod.mk.injEq] at h
    obtain ⟨hsectors, rfl⟩ := h
    obtain ⟨shape, hshape⟩ := DiskReply.exists_describes hc (bne_iff_ne.1 hsectors.symm)
    exact ⟨shape, hshape.geometry_eq⟩

/-- A reader that may be used knows how. -/
theorem Reader.exists_uses_of_init {r r' : Reader} {es : List (Exchange Bios)}
    (h : Runs r.init es (some (true, r'))) : ∃ access, r'.Uses access := by
  rcases runs_bind_iff.1 h with ⟨-, h⟩ | ⟨found, es₁, es₂, -, -, h⟩
  · cases h
  cases found with
  | true =>
    obtain ⟨-, h⟩ := runs_done_iff.1 h
    cases h
    exact ⟨_, .extended rfl⟩
  | false =>
    rcases runs_bind_iff.1 h with ⟨-, h⟩ | ⟨x, es₃, es₄, -, hask, h⟩
    · cases h
    obtain ⟨ok, geometry⟩ := x
    obtain ⟨-, h⟩ := runs_done_iff.1 h
    cases h
    obtain ⟨shape, rfl⟩ := exists_shape_of_askGeometry hask
    exact ⟨_, .chs shape rfl rfl⟩

/-- A reader that has found out how to read its drive reads every run that it can name, and that
goes to memory below 1 MiB, as a loop over its sectors does. -/
theorem readBy_of_init {r r' : Reader} {es₀ : List (Exchange Bios)}
    (h : Runs r.init es₀ (some (true, r'))) :
    ∃ access, r'.Uses access ∧ ∀ t : Transfer, t.Fits access → ∀ es o,
      Runs (r'.read t.lba t.count t.target) es o →
        ∃ ok, o = some ok ∧ t.ReadBy access r'.drive es ok := by
  obtain ⟨access, hu⟩ := Reader.exists_uses_of_init h
  refine ⟨access, hu, fun t ht es o hr => ?_⟩
  exact Reader.ensures_readWithin hu t.count.toNat t (Nat.le_refl _) ht es o hr fun _ _ => trivial

/-- A BIOS without the extensions, for a floppy disk of 80 cylinders, 2 heads and 18 sectors. -/
def floppyBios : (q : Bios.Call) → Unit → q.Reply × Unit
  | .disk r, s =>
    (if r.service = 0x08 then { cx := 0x4F12, dx := 0x0100, carry := false }
      else { carry := r.service != 0x02 }, s)
  | .teletype _, s => ((), s)
  | .readPort _, s => (0, s)
  | .writePort .., s => ((), s)
  | .delay, s => ((), s)
  | .wrapTest, s => (true, s)
  | .codeSegment, s => (0, s)
  | .tableOffset, s => (0, s)

/-- A reader that was told of that floppy disk. -/
def floppyReader : Reader := { drive := 0, geometry := ⟨80, 2, 18⟩ }

theorem runs_init_floppy :
    Runs (Reader.init { drive := 0 }) ((Reader.init { drive := 0 }).exchanges floppyBios ())
      (some (true, floppyReader)) := by
  have h : ((Reader.init { drive := 0 }).run floppyBios ()).1 = some (true, floppyReader) := by
    decide +kernel
  exact h ▸ runs_exchanges floppyBios (Reader.init { drive := 0 }) ()

/-- Forty sectors that lie in three tracks are read by three requests. -/
theorem readBy_floppy : ∃ access es, floppyReader.Uses access ∧ es.length = 3 ∧
    Runs (floppyReader.read 5 40 0x10000) es (some true) ∧
      Transfer.ReadBy ⟨5, 40, 0x10000⟩ access 0 es true := by
  obtain ⟨access, hu, hread⟩ := readBy_of_init runs_init_floppy
  have hr := runs_exchanges floppyBios (floppyReader.read 5 40 0x10000) ()
  have hok : ((floppyReader.read 5 40 0x10000).run floppyBios ()).1 = some true := by
    decide +kernel
  have hfits : (Transfer.mk 5 40 0x10000).Fits access := by
    refine ⟨by decide, ?_⟩
    cases hu with
    | extended h => cases h
    | chs shape _ hg =>
      have hcapacity : shape.capacity = 80 * 2 * 18 := by
        rw [Shape.capacity, ← shape.toNat_cylinders, ← shape.toNat_heads,
          ← shape.toNat_sectorsPerTrack, ← hg]
        rfl
      rw [Access.sectors, hcapacity]
      decide
  rw [hok] at hr
  obtain ⟨ok, hsome, h⟩ := hread _ hfits _ _ hr
  cases hsome
  exact ⟨access, _, hu, by decide +kernel, hr, h⟩

end Bootloader.Legacy
