import Bootloader.Proofs.Uefi.ProtocolLookup

/-!
# Revisions and the direct search

A revision packs its major number above its minor number.  Boot services have a direct search for a
protocol since revision 1.10, and older ones are to be searched by their handles
(`KeepsToRevision`).

The lookup compares the packed revision with a number that stands for 0.266.  So it keeps to the
revision but for those from there to 1.9, which it takes for newer ones (`keepsToRevision_iff`).
-/

namespace Bootloader.Uefi

open Program

def majorRevision (revision : UInt32) : Nat := (revision >>> 16).toNat

def minorRevision (revision : UInt32) : Nat := (revision &&& 0xFFFF).toNat

/-- Boot services have a direct search since revision 1.10. -/
def HasDirectSearch (revision : UInt32) : Prop :=
  1 < majorRevision revision ∨ (majorRevision revision = 1 ∧ 10 ≤ minorRevision revision)

instance (revision : UInt32) : Decidable (HasDirectSearch revision) :=
  inferInstanceAs (Decidable (_ ∨ _))

/-- The revisions from 0.266 to 1.9. -/
def ReadAsNewer (revision : UInt32) : Prop :=
  (majorRevision revision = 0 ∧ 266 ≤ minorRevision revision) ∨
    (majorRevision revision = 1 ∧ minorRevision revision < 10)

instance (revision : UInt32) : Decidable (ReadAsNewer revision) :=
  inferInstanceAs (Decidable (_ ∨ _))

/-- There is a direct search only where the services have one, and a lookup by handles where they
have none. -/
structure KeepsToRevision (revision : UInt32) (protocol : Guid) (es : List (Exchange Firmware)) :
    Prop where
  direct : ∀ p got, ⟨.locateProtocol p, got⟩ ∈ es → HasDirectSearch revision
  byHandles : ¬HasDirectSearch revision → ∃ interface, LookedUp protocol es interface

section Revision

variable (revision : UInt32)

theorem toNat_revision : revision.toNat = 65536 * majorRevision revision + minorRevision revision ∧
    minorRevision revision < 65536 := by
  have hmajor : majorRevision revision = revision.toNat / 65536 := by
    simp [majorRevision, Nat.shiftRight_eq_div_pow]
  have hminor : minorRevision revision = revision.toNat % 65536 := by
    rw [minorRevision, UInt32.toNat_and]
    exact Nat.and_two_pow_sub_one_eq_mod revision.toNat 16
  omega

variable {revision}

theorem hasDirectSearch_iff : HasDirectSearch revision ↔ 0x1000A ≤ revision := by
  obtain ⟨hnat, hminor⟩ := toNat_revision revision
  rw [UInt32.le_iff_toNat_le, HasDirectSearch]
  change _ ↔ 0x1000A ≤ revision.toNat
  omega

theorem readAsNewer_iff :
    ReadAsNewer revision ↔ directSearchRevision ≤ revision ∧ ¬HasDirectSearch revision := by
  obtain ⟨hnat, hminor⟩ := toNat_revision revision
  rw [hasDirectSearch_iff, UInt32.le_iff_toNat_le, UInt32.le_iff_toNat_le, ReadAsNewer]
  change _ ↔ 266 ≤ revision.toNat ∧ ¬0x1000A ≤ revision.toNat
  omega

end Revision

section Lookup

variable {protocol : Guid} {es : List (Exchange Firmware)}

theorem HandlesSought.not_mem_locateProtocol {found : Option UInt64}
    (h : HandlesSought protocol es found) (p : Guid) (got : Answer UInt64) :
    ⟨.locateProtocol p, got⟩ ∉ es := by
  cases h <;> simp

theorem LookedUp.not_mem_locateProtocol {interface : UInt64} (h : LookedUp protocol es interface)
    (p : Guid) (got : Answer UInt64) : ⟨.locateProtocol p, got⟩ ∉ es := by
  cases h with
  | missing h => exact h.not_mem_locateProtocol p got
  | asked h => simp [h.not_mem_locateProtocol p got]

end Lookup

namespace Services

/-- The lookup keeps to the revision of the boot services but for those that it takes for newer
ones; services that were given up are not searched at all. -/
theorem keepsToRevision_iff {efi : Services} {protocol : Guid} {es : List (Exchange Firmware)}
    {o : Option UInt64} (h : Runs (efi.locateProtocol protocol) es o) :
    (efi.live = false ∧ o = none ∧ ∀ p got, ⟨.locateProtocol p, got⟩ ∉ es) ∨
      (KeepsToRevision efi.table.servicesRevision protocol es ↔
        ¬ReadAsNewer efi.table.servicesRevision) := by
  cases hl : efi.live with
  | false =>
    obtain ⟨rfl, rfl⟩ := runs_check_of_not_live hl h
    exact .inl ⟨rfl, rfl, by simp⟩
  | true =>
    right
    rw [readAsNewer_iff]
    by_cases hrev : directSearchRevision ≤ efi.table.servicesRevision
    · obtain ⟨_, rfl, got, rfl, rfl⟩ := (ensures_direct hl hrev protocol).exists_of_run h
      constructor
      · rintro hkeeps ⟨-, hnone⟩
        exact hnone (hkeeps.direct protocol got (by simp))
      · intro hnot
        have hhas : HasDirectSearch efi.table.servicesRevision :=
          not_not.1 fun hnone => hnot ⟨hrev, hnone⟩
        exact ⟨fun _ _ _ => hhas, fun hnone => absurd hhas hnone⟩
    · obtain ⟨interface, rfl, hlookup⟩ :=
        (ensures_lookedUp hl (UInt32.not_le.1 hrev) protocol).exists_of_run h
      refine iff_of_true ⟨fun p got hmem => ?_, fun _ => ⟨interface, hlookup⟩⟩ fun hread =>
        hrev hread.1
      exact absurd hmem (hlookup.not_mem_locateProtocol p got)

/-- Services of revision 0.0 are searched by their handles. -/
theorem keepsToRevision_olderLookup :
    KeepsToRevision olderServices.table.servicesRevision .graphicsOutput olderLookup := by
  rcases keepsToRevision_iff runs_olderLookup with ⟨h, -⟩ | h
  · cases h
  · exact h.2 (by decide)

/-- The hold on a firmware with boot services of revision 1.2. -/
def earlyServices : Services := ⟨0x100, { smallTable with servicesRevision := 0x10002 }, true⟩

/-- They are searched directly, though they have no direct search. -/
theorem not_forall_keepsToRevision : ¬∀ (efi : Services) (protocol : Guid)
    (es : List (Exchange Firmware)) (interface : UInt64),
    Runs (efi.locateProtocol protocol) es (some interface) →
      KeepsToRevision efi.table.servicesRevision protocol es := by
  intro hall
  have hr := runs_exchanges smallFirmware (earlyServices.locateProtocol .graphicsOutput) 0
  have hkeeps := hall earlyServices .graphicsOutput _ 0x3000 hr
  have hhas : HasDirectSearch 0x10002 :=
    hkeeps.direct .graphicsOutput ⟨.success, 0x3000⟩ (.head _)
  exact absurd hhas (by decide)

end Services

end Bootloader.Uefi
