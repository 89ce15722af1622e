import Bootloader.Proofs.Bytes
import Bootloader.Proofs.Uefi.Boot

/-!
# The root of the ACPI tables in the record

The configuration table is a list of identifiers and addresses, in any order.  It has a root of the
ACPI tables if the first entry for version 2.0 is not null, or else the first one for version 1.0
(`AcpiRoot`).  An identifier is found by its sixteen bytes (`Guid.toBytes_inj`), which are
`newerBytes` and `olderBytes` for the two versions.

The record gets that root and is otherwise as it was, and no other entry has a say in it
(`rootFilled_of_runs`).
-/

namespace Bootloader.Uefi

open Program

namespace Guid

variable {a b : Guid}

/-- The identifier as it lies in memory: its first three parts little-endian, and the last as it is
written. -/
def toBytes (guid : Guid) : List UInt8 :=
  bytes32 guid.data1 ++ bytes16 guid.data2 ++ bytes16 guid.data3 ++ (bytes64 guid.data4).reverse

/-- Identifiers are the same if all their bytes are. -/
theorem toBytes_inj : a.toBytes = b.toBytes ↔ a = b := by
  refine ⟨fun h => ?_, congrArg toBytes⟩
  obtain ⟨h, h4⟩ := List.append_inj' h (by simp)
  obtain ⟨h, h3⟩ := List.append_inj' h (by simp)
  obtain ⟨h1, h2⟩ := List.append_inj' h (by simp)
  have hdata1 := littleEndian_inj a.data1.toNat_lt b.data1.toNat_lt h1
  have hdata2 := littleEndian_inj a.data2.toNat_lt b.data2.toNat_lt h2
  have hdata3 := littleEndian_inj a.data3.toNat_lt b.data3.toNat_lt h3
  have hdata4 := littleEndian_inj a.data4.toNat_lt b.data4.toNat_lt (List.reverse_inj.1 h4)
  cases a
  cases b
  simp only [Guid.mk.injEq]
  exact ⟨UInt32.toNat_inj.1 hdata1, UInt16.toNat_inj.1 hdata2, UInt16.toNat_inj.1 hdata3,
    UInt64.toNat_inj.1 hdata4⟩

end Guid

/-- The identifier of ACPI 2.0, 8868E871-E4F1-11D3-BC22-0080C73C8881. -/
def newerBytes : List UInt8 :=
  [0x71, 0xE8, 0x68, 0x88, 0xF1, 0xE4, 0xD3, 0x11, 0xBC, 0x22, 0x00, 0x80, 0xC7, 0x3C, 0x88, 0x81]

/-- The identifier of ACPI 1.0, EB9D2D30-2D88-11D3-9A16-0090273FC14D. -/
def olderBytes : List UInt8 :=
  [0x30, 0x2D, 0x9D, 0xEB, 0x88, 0x2D, 0xD3, 0x11, 0x9A, 0x16, 0x00, 0x90, 0x27, 0x3F, 0xC1, 0x4D]

theorem toBytes_acpi20 : Guid.acpi20.toBytes = newerBytes := by
  decide

theorem toBytes_acpi : Guid.acpi.toBytes = olderBytes := by
  decide

/-- The first entry with an identifier has this table, which may be null. -/
def FirstTable (bytes : List UInt8) (entries : List ConfigurationEntry) (table : UInt64) : Prop :=
  ∃ before entry after, entries = before ++ entry :: after ∧ entry.guid.toBytes = bytes ∧
    (∀ e ∈ before, e.guid.toBytes ≠ bytes) ∧ entry.table = table

/-- The root of the ACPI tables that a configuration table has. -/
inductive AcpiRoot (entries : List ConfigurationEntry) : UInt64 → Prop
  | newer {root : UInt64} (h : FirstTable newerBytes entries root) (hne : root ≠ 0) :
    AcpiRoot entries root
  | older {root : UInt64} (hnewer : ∀ table, FirstTable newerBytes entries table → table = 0)
      (h : FirstTable olderBytes entries root) (hne : root ≠ 0) : AcpiRoot entries root

/-- What becomes of a record: it gets the root if there is one, and is as it was if not. -/
structure RootFilled (entries : List ConfigurationEntry) (info : BootInfo) (filled : Bool)
    (after : BootInfo) : Prop where
  filled_iff : filled = true ↔ ∃ root, AcpiRoot entries root
  root : ∀ root, AcpiRoot entries root → after.acpiRoot = root
  others : { after with acpiRoot := 0 } = { info with acpiRoot := 0 }
  kept : filled = false → after = info

/-- Two configuration tables have the same entries for version 2.0, and the same for version 1.0,
each in the same order.  How the ones stand to the others, and to what else there is, may differ. -/
def SameAcpi (entries entries' : List ConfigurationEntry) : Prop :=
  ∀ bytes, bytes = newerBytes ∨ bytes = olderBytes →
    entries.filter (·.guid.toBytes = bytes) = entries'.filter (·.guid.toBytes = bytes)

/-- The entries that the firmware publishes. -/
def SystemTable.entries (table : SystemTable) : List ConfigurationEntry :=
  table.configuration.getD []

/-- The firmware with another configuration table, or with none. -/
def Services.withConfiguration (efi : Services) (configuration : Option (List ConfigurationEntry)) :
    Services :=
  { efi with table := { efi.table with configuration } }

/-- The table for version 2.0, or that for version 1.0 if it is null. -/
def rootIn (entries : List ConfigurationEntry) : UInt64 :=
  if findTable .acpi20 entries = 0 then findTable .acpi entries else findTable .acpi20 entries

/-- A record with a root, unless that is null, and whether it has got it. -/
def BootInfo.fillRoot (info : BootInfo) (root : UInt64) : Bool × BootInfo :=
  if root = 0 then (false, info) else (true, info.withAcpi root)

section Table

variable {guid : Guid} {bytes : List UInt8} {entries entries' before : List ConfigurationEntry}
  {root : UInt64}

theorem findTable_append (h : ∀ e ∈ before, e.guid ≠ guid) :
    findTable guid (before ++ entries) = findTable guid entries := by
  induction before with
  | nil => rfl
  | cons e before ih =>
    rw [List.forall_mem_cons] at h
    rw [List.cons_append, findTable, if_neg h.1, ih h.2]

theorem FirstTable.findTable_eq (h : FirstTable bytes entries root) (hb : guid.toBytes = bytes) :
    findTable guid entries = root := by
  subst hb
  obtain ⟨before, entry, after, rfl, hguid, hbefore, rfl⟩ := h
  rw [findTable_append fun e he => mt Guid.toBytes_inj.2 (hbefore e he), findTable,
    if_pos (Guid.toBytes_inj.1 hguid)]

theorem firstTable_findTable (hb : guid.toBytes = bytes) : ∀ {entries : List ConfigurationEntry},
    findTable guid entries ≠ 0 → FirstTable bytes entries (findTable guid entries)
  | [], h => (h rfl).elim
  | entry :: rest, h => by
    rw [findTable] at h ⊢
    split at h
    · rename_i hguid
      rw [if_pos hguid]
      exact ⟨[], entry, rest, rfl, by rw [hguid, hb], List.forall_mem_nil _, rfl⟩
    · rename_i hguid
      rw [if_neg hguid]
      obtain ⟨before, first, after, hrest, hfirst, hbefore, htable⟩ := firstTable_findTable hb h
      refine ⟨entry :: before, first, after, by rw [hrest, List.cons_append], hfirst, ?_, htable⟩
      exact List.forall_mem_cons.2 ⟨hb ▸ mt Guid.toBytes_inj.1 hguid, hbefore⟩

/-- Entries with other identifiers are passed over. -/
theorem findTable_filter (hb : guid.toBytes = bytes) :
    findTable guid (entries.filter (·.guid.toBytes = bytes)) = findTable guid entries := by
  subst hb
  simp only [Guid.toBytes_inj]
  induction entries with
  | nil => rfl
  | cons entry rest ih =>
    by_cases h : entry.guid = guid
    · simp [findTable, h]
    · simp [findTable, h, ih]

theorem acpiRoot_iff : AcpiRoot entries root ↔ rootIn entries = root ∧ root ≠ 0 := by
  unfold rootIn
  constructor
  · intro h
    cases h with
    | newer h hne =>
      rw [h.findTable_eq toBytes_acpi20, if_neg hne]
      exact ⟨rfl, hne⟩
    | older hnewer h hne =>
      have hzero : findTable .acpi20 entries = 0 :=
        Decidable.of_not_not fun hnz => hnz (hnewer _ (firstTable_findTable toBytes_acpi20 hnz))
      rw [if_pos hzero, h.findTable_eq toBytes_acpi]
      exact ⟨rfl, hne⟩
  · rintro ⟨rfl, hne⟩
    by_cases hzero : findTable .acpi20 entries = 0
    · rw [if_pos hzero] at hne ⊢
      refine .older (fun table h => ?_) (firstTable_findTable toBytes_acpi hne) hne
      rw [← h.findTable_eq toBytes_acpi20, hzero]
    · rw [if_neg hzero]
      exact .newer (firstTable_findTable toBytes_acpi20 hzero) hzero

theorem SameAcpi.rootIn_eq (h : SameAcpi entries entries') : rootIn entries = rootIn entries' := by
  have hfind : ∀ {guid : Guid} {bytes : List UInt8}, guid.toBytes = bytes →
      bytes = newerBytes ∨ bytes = olderBytes → findTable guid entries = findTable guid entries' := by
    intro guid bytes hb hbytes
    rw [← findTable_filter hb, h bytes hbytes, findTable_filter hb]
  unfold rootIn
  rw [hfind toBytes_acpi20 (.inl rfl), hfind toBytes_acpi (.inr rfl)]

theorem rootFilled_fillRoot {info : BootInfo} :
    RootFilled entries info (info.fillRoot (rootIn entries)).1 (info.fillRoot (rootIn entries)).2 := by
  unfold BootInfo.fillRoot
  split
  · rename_i hzero
    have hnone : ¬∃ root, AcpiRoot entries root := by
      rintro ⟨root, h⟩
      obtain ⟨rfl, hne⟩ := acpiRoot_iff.1 h
      exact hne hzero
    exact ⟨by simpa using hnone, fun root h => absurd ⟨root, h⟩ hnone, rfl, fun _ => rfl⟩
  · rename_i hne
    refine ⟨by simpa using ⟨_, acpiRoot_iff.2 ⟨rfl, hne⟩⟩, fun root h => ?_, rfl, by simp⟩
    exact (acpiRoot_iff.1 h).1

end Table

namespace Services

variable {efi : Services} {info : BootInfo}

theorem findConfiguration_eq (hl : efi.live = true) (guid : Guid) :
    efi.findConfiguration guid = .done (findTable guid efi.table.entries) := by
  rw [findConfiguration, check_of_live hl, SystemTable.entries]
  cases efi.table.configuration <;> rfl

theorem fillAcpi_eq (hl : efi.live = true) :
    efi.fillAcpi info = .done (info.fillRoot (rootIn efi.table.entries)) := by
  have hfind : efi.findAcpi = .done (rootIn efi.table.entries) := by
    rw [findAcpi, findConfiguration_eq hl, findConfiguration_eq hl, bind_done, rootIn]
    by_cases hzero : findTable .acpi20 efi.table.entries = 0 <;> simp [hzero]
  rw [fillAcpi, hfind, bind_done, BootInfo.fillRoot]
  split <;> rfl

/-- The record gets the root that the configuration table has, whatever else is in there. -/
theorem rootFilled_of_runs {es : List (Exchange Firmware)} {o : Option (Bool × BootInfo)}
    (h : Runs (efi.fillAcpi info) es o) :
    (efi.live = false ∧ o = none) ∨ ∃ filled after, es = [] ∧ o = some (filled, after) ∧
      RootFilled efi.table.entries info filled after ∧
        ∀ configuration, SameAcpi efi.table.entries (configuration.getD []) →
          Runs ((efi.withConfiguration configuration).fillAcpi info) es o := by
  cases hl : efi.live with
  | false =>
    rw [fillAcpi, findAcpi, findConfiguration, bind_bind, bind_bind] at h
    exact .inl ⟨rfl, (runs_check_of_not_live hl h).2⟩
  | true =>
    rw [fillAcpi_eq hl] at h
    obtain ⟨rfl, rfl⟩ := runs_done_iff.1 h
    refine .inr ⟨_, _, rfl, rfl, rootFilled_fillRoot, fun configuration hsame => ?_⟩
    have hl' : (efi.withConfiguration configuration).live = true := hl
    have hroot : rootIn (efi.withConfiguration configuration).table.entries =
        rootIn efi.table.entries := hsame.rootIn_eq.symm
    rw [fillAcpi_eq hl', hroot]
    exact .done _

end Services

/-- A configuration table whose first entry for version 2.0 is null. -/
def nullNewer : List ConfigurationEntry :=
  [⟨.acpi20, 0⟩, ⟨.fileInfo, 0x3000⟩, ⟨.acpi, 0x1000⟩, ⟨.acpi20, 0x2000⟩]

/-- The same with the entry for version 1.0 at its head, and without the entry of another kind. -/
def olderFirst : List ConfigurationEntry := [⟨.acpi, 0x1000⟩, ⟨.acpi20, 0⟩, ⟨.acpi20, 0x2000⟩]

/-- Both give the root for version 1.0. -/
theorem rootFilled_nullNewer : ∃ after,
    Runs ((smallServices.withConfiguration (some nullNewer)).fillAcpi {}) [] (some (true, after)) ∧
      RootFilled nullNewer {} true after ∧ after.acpiRoot = 0x1000 ∧
        SameAcpi nullNewer olderFirst ∧
          Runs ((smallServices.withConfiguration (some olderFirst)).fillAcpi {}) []
            (some (true, after)) := by
  have hl : (smallServices.withConfiguration (some nullNewer)).live = true := rfl
  have hr : Runs ((smallServices.withConfiguration (some nullNewer)).fillAcpi {}) []
      (some (true, { acpiRoot := 0x1000 })) := by
    rw [Services.fillAcpi_eq hl]
    exact .done _
  have hsame : SameAcpi nullNewer olderFirst := by
    rintro bytes (rfl | rfl) <;> decide
  rcases Services.rootFilled_of_runs hr with ⟨h, -⟩ | ⟨filled, after, -, ho, hfilled, hothers⟩
  · cases h
  cases ho
  exact ⟨_, hr, hfilled, rfl, hsame, hothers (some olderFirst) hsame⟩

end Bootloader.Uefi
