import Bootloader.Legacy.Layout
import Mathlib.Algebra.Group.Nat.Defs

/-!
# Regions that share addresses

Regions overlap by their numbers exactly if there is an address in both (`overlaps_iff`), provided
that each has an address and does not go round the end of memory (`Region.Proper`).  Each region of
a table is compared with those after it, and as the comparison is the same in both orders, no two
places of the table are left out (`apart_iff_pairwise`).
-/

namespace Bootloader.Legacy

namespace Region

/-- The addresses of a region. -/
def Covers (r : Region) (address : Nat) : Prop :=
  r.base.toNat ≤ address ∧ address < r.base.toNat + r.size.toNat

/-- A region has an address, and ends below the end of memory. -/
structure Proper (r : Region) : Prop where
  size_pos : 0 < r.size.toNat
  end_lt : r.base.toNat + r.size.toNat < 2 ^ 32

instance (r : Region) : Decidable r.Proper :=
  decidable_of_iff (0 < r.size.toNat ∧ r.base.toNat + r.size.toNat < 2 ^ 32)
    ⟨fun h => ⟨h.1, h.2⟩, fun h => ⟨h.size_pos, h.end_lt⟩⟩

/-- No address lies in regions at two places of the table. -/
def Apart (regions : List Region) : Prop :=
  ∀ i j (hi : i < regions.length) (hj : j < regions.length) (address : Nat),
    regions[i].Covers address → regions[j].Covers address → i = j

section Pair

variable {a b : Region}

theorem toNat_end (h : a.Proper) : (a.base + a.size).toNat = a.base.toNat + a.size.toNat := by
  rw [UInt32.toNat_add, Nat.mod_eq_of_lt h.end_lt]

theorem overlaps_comm (a b : Region) : a.overlaps b = b.overlaps a := Bool.and_comm ..

/-- The higher of the two beginnings is in both, if any address is. -/
theorem overlaps_iff (ha : a.Proper) (hb : b.Proper) :
    a.overlaps b = true ↔ ∃ address, a.Covers address ∧ b.Covers address := by
  have hpos := ha.size_pos
  have hpos' := hb.size_pos
  have hends : a.overlaps b = true ↔ a.base.toNat < b.base.toNat + b.size.toNat ∧
      b.base.toNat < a.base.toNat + a.size.toNat := by
    simp only [overlaps, Bool.and_eq_true, decide_eq_true_eq, UInt32.lt_iff_toNat_lt, toNat_end ha,
      toNat_end hb]
  rw [hends]
  constructor
  · intro h
    rcases Nat.le_total a.base.toNat b.base.toNat with hle | hle
    · exact ⟨b.base.toNat, ⟨hle, h.2⟩, Nat.le_refl _, by omega⟩
    · exact ⟨a.base.toNat, ⟨Nat.le_refl _, by omega⟩, hle, h.1⟩
  · rintro ⟨address, ⟨hlow, hhigh⟩, hlow', hhigh'⟩
    omega

end Pair

section Table

variable {regions : List Region}

theorem disjoint_iff_pairwise :
    disjoint regions = true ↔ regions.Pairwise fun a b => a.overlaps b = false := by
  induction regions with
  | nil => simp [disjoint]
  | cons region rest ih => simp [disjoint, ih]

/-- Two places of a table come in one of two orders, and its regions are compared in one of them. -/
theorem apart_iff_pairwise (h : ∀ r ∈ regions, r.Proper) :
    Apart regions ↔ regions.Pairwise fun a b => a.overlaps b = false := by
  have hshare : ∀ i j (hi : i < regions.length) (hj : j < regions.length),
      regions[i].overlaps regions[j] = true ↔
        ∃ address, regions[i].Covers address ∧ regions[j].Covers address := fun i j hi hj =>
    overlaps_iff (h _ (List.getElem_mem hi)) (h _ (List.getElem_mem hj))
  rw [List.pairwise_iff_getElem]
  constructor
  · intro hapart i j hi hj hlt
    rw [Bool.eq_false_iff]
    intro hover
    obtain ⟨address, hin, hin'⟩ := (hshare i j hi hj).1 hover
    exact Nat.ne_of_lt hlt (hapart i j hi hj address hin hin')
  · intro hpairs i j hi hj address hin hin'
    have hover := (hshare i j hi hj).2 ⟨address, hin, hin'⟩
    rcases Nat.lt_trichotomy i j with hlt | heq | hgt
    · simp [hpairs i j hi hj hlt] at hover
    · exact heq
    · rw [overlaps_comm] at hover
      simp [hpairs j i hj hi hgt] at hover

/-- A table passes exactly if no address lies in regions at two places of it, and two of its regions
overlap, in either order, exactly if they share an address. -/
theorem disjoint_exact (h : ∀ r ∈ regions, r.Proper) :
    (disjoint regions = true ↔ Apart regions) ∧
      ∀ a ∈ regions, ∀ b ∈ regions, a.overlaps b = b.overlaps a ∧
        (a.overlaps b = true ↔ ∃ address, a.Covers address ∧ b.Covers address) :=
  ⟨disjoint_iff_pairwise.trans (apart_iff_pairwise h).symm, fun a ha b hb =>
    ⟨overlaps_comm a b, overlaps_iff (h a ha) (h b hb)⟩⟩

/-- The largest layout puts no address to two uses. -/
theorem apart_largestLayout :
    (∀ r ∈ BuildConfig.max.regions, r.Proper) ∧ Apart BuildConfig.max.regions := by
  have hproper : ∀ r ∈ BuildConfig.max.regions, r.Proper := by decide
  exact ⟨hproper, (disjoint_exact hproper).1.1 (by decide)⟩

end Table

end Region

end Bootloader.Legacy
