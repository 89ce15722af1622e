import Bootloader.Proofs.Uefi.Calls

/-!
# What the core is told of the platform

The record for the core gets a framebuffer only if an interface was found that reports a mode to
draw in, and then all of it is of that one mode (`ReportedScreen`); it gets a root of the ACPI
tables only if the configuration table has one (`ReportedRoot`).  A group that was not found out
stays as it was, and nothing else changes (`ensures_describePlatform`).
-/

namespace Bootloader.Uefi

open Program

/-- The call found this graphics interface. -/
def FindsGraphics (e : Exchange Firmware) (graphics : UInt64) : Prop :=
  ∃ got : Answer UInt64, got.status.isError = false ∧ got.value = graphics ∧
    (e = ⟨.locateProtocol .graphicsOutput, got⟩ ∨
      ∃ handle, e = ⟨.handleProtocol handle .graphicsOutput, got⟩)

/-- The interface has a mode with memory to draw in. -/
structure Drawable (table : SystemTable) (graphics : UInt64) (mode : GraphicsMode)
    (information : ModeInformation) : Prop where
  found : graphics ≠ 0
  reported : table.graphicsMode graphics = some mode
  described : mode.information = some information
  base : mode.base ≠ 0
  layout : information.pixelFormat.layout ≠ .none

/-- One of the calls found a graphics interface that reports this mode, which can be drawn in. -/
def ReportedScreen (table : SystemTable) (es : List (Exchange Firmware)) (mode : GraphicsMode)
    (information : ModeInformation) : Prop :=
  ∃ e ∈ es, ∃ graphics, FindsGraphics e graphics ∧ Drawable table graphics mode information

/-- The configuration table has this root of the ACPI tables, for version 2.0 or for 1.0. -/
def ReportedRoot (table : SystemTable) (root : UInt64) : Prop :=
  ∃ entries entry, table.configuration = some entries ∧ entry ∈ entries ∧
    (entry.guid = ⟨0x8868E871, 0xE4F1, 0x11D3, 0xBC220080C73C8881⟩ ∨
      entry.guid = ⟨0xEB9D2D30, 0x2D88, 0x11D3, 0x9A160090273FC14D⟩) ∧ entry.table = root

namespace BootInfo

/-- Tells the core of a framebuffer, if there is one. -/
def withScreen (info : BootInfo) : Option (GraphicsMode × ModeInformation) → BootInfo
  | none => info
  | some (mode, information) => info.withFramebuffer mode information

/-- Tells the core where the ACPI tables begin, if there are any. -/
def withRoot (info : BootInfo) : Option UInt64 → BootInfo
  | none => info
  | some root => info.withAcpi root

/-- The record for a core, with the groups that were found out. -/
def described (core : CoreImage) (systemTable : UInt64)
    (screen : Option (GraphicsMode × ModeInformation)) (root : Option UInt64) : BootInfo :=
  ((forCore core.pages.address core.size systemTable).withScreen screen).withRoot root

end BootInfo

section Drawable

variable {table : SystemTable} {graphics : UInt64} {mode : GraphicsMode}
variable {information : ModeInformation}

theorem GraphicsMode.drawable?_eq_some_iff : mode.drawable? = some information ↔
    mode.information = some information ∧ mode.base ≠ 0 ∧
      information.pixelFormat.layout ≠ .none := by
  unfold drawable?
  cases mode.information with
  | none => simp
  | some found =>
    dsimp only
    rw [Option.some.injEq]
    split
    · rename_i h0
      simp [h0]
    rename_i h0
    split
    · rename_i hnone
      simp only [reduceCtorEq, false_iff]
      rintro ⟨rfl, -, hlayout⟩
      exact hlayout hnone
    · rename_i hlayout
      rw [Option.some.injEq]
      constructor
      · rintro rfl
        exact ⟨rfl, h0, hlayout⟩
      · exact fun h => h.1

theorem Drawable.drawable?_eq (h : Drawable table graphics mode information) :
    mode.drawable? = some information :=
  GraphicsMode.drawable?_eq_some_iff.2 ⟨h.described, h.base, h.layout⟩

theorem drawable_of_drawable? (h0 : graphics ≠ 0) (hmode : table.graphicsMode graphics = some mode)
    (hdraw : mode.drawable? = some information) : Drawable table graphics mode information := by
  obtain ⟨hinfo, hbase, hlayout⟩ := GraphicsMode.drawable?_eq_some_iff.1 hdraw
  exact ⟨h0, hmode, hinfo, hbase, hlayout⟩

end Drawable

/-- A table that was found is that of an entry with the identifier. -/
theorem exists_of_findTable_ne_zero {guid : Guid} :
    ∀ {entries : List ConfigurationEntry}, findTable guid entries ≠ 0 →
      ∃ entry ∈ entries, entry.guid = guid ∧ entry.table = findTable guid entries
  | [], h => (h rfl).elim
  | entry :: rest, h => by
    rw [findTable] at h ⊢
    split at h
    · rename_i hg
      rw [if_pos hg]
      exact ⟨entry, by simp, hg, rfl⟩
    · rename_i hg
      rw [if_neg hg]
      obtain ⟨other, hmem, hother⟩ := exists_of_findTable_ne_zero h
      exact ⟨other, by simp [hmem], hother⟩

theorem Answer.interface_eq {got : Answer UInt64} (h : got.interface ≠ 0) :
    got.status.isError = false ∧ got.value = got.interface := by
  unfold interface at h ⊢
  split at h
  · exact (h rfl).elim
  · rename_i hs
    rw [if_neg hs]
    exact ⟨by simpa using hs, rfl⟩

namespace Services

variable {efi : Services} {A : Exchange Firmware → Prop}

theorem ensures_locateGraphics (hl : efi.live = true) :
    (efi.locateProtocol .graphicsOutput).Ensures A fun es graphics =>
      graphics ≠ 0 → ∃ e ∈ es, FindsGraphics e graphics := by
  rw [locateProtocol, check_of_live hl, bind_done]
  split
  · rw [call_eq_of_live hl]
    refine ensures_request.2 fun got _ => ensures_done.2 fun h => ?_
    obtain ⟨hs, hv⟩ := got.interface_eq h
    exact ⟨_, by simp, got, hs, hv, .inl rfl⟩
  refine (asks_firstHandle hl _).ensures.bind fun es handle _ => ?_
  cases handle with
  | none => exact ensures_done.2 fun h => (h rfl).elim
  | some handle =>
    dsimp only
    rw [call_eq_of_live hl]
    refine ensures_request.2 fun got _ => ensures_done.2 fun h => ?_
    obtain ⟨hs, hv⟩ := got.interface_eq h
    exact ⟨_, by simp, got, hs, hv, .inr ⟨handle, rfl⟩⟩

theorem ensures_findGraphics (hl : efi.live = true) :
    efi.findGraphics.Ensures A fun es graphics =>
      graphics ≠ 0 → ∃ e ∈ es, FindsGraphics e graphics := by
  rw [findGraphics, check_of_live hl, bind_done]
  split
  · exact ensures_locateGraphics hl
  rw [call_eq_of_live hl]
  refine ensures_request.2 fun got _ => ?_
  split
  · rename_i hgot
    refine ensures_done.2 fun _ => ⟨⟨.handleProtocol efi.table.consoleHandle .graphicsOutput, got⟩,
      by simp, got, ?_, rfl, .inr ⟨_, rfl⟩⟩
    rw [hgot.1]
    rfl
  · refine (ensures_locateGraphics hl).mono fun es graphics h hne => ?_
    obtain ⟨e, he, hfinds⟩ := h hne
    exact ⟨e, by simp [he], hfinds⟩

theorem ensures_fillFramebuffer (hl : efi.live = true) (info : BootInfo) :
    (efi.fillFramebuffer info).Ensures A fun es x => ∃ screen, x.2 = info.withScreen screen ∧
      ∀ s ∈ screen, ReportedScreen efi.table es s.1 s.2 := by
  refine (ensures_findGraphics hl).bind fun es graphics h => ?_
  split
  · exact ensures_done.2 ⟨none, rfl, by simp⟩
  rename_i hne
  obtain ⟨e, he, hfinds⟩ := h hne
  cases hmode : efi.table.graphicsMode graphics with
  | none => exact ensures_done.2 ⟨none, rfl, by simp⟩
  | some mode =>
    dsimp only
    cases hdraw : mode.drawable? with
    | none => exact ensures_done.2 ⟨none, rfl, by simp⟩
    | some information =>
      refine ensures_done.2 ⟨some (mode, information), rfl, ?_⟩
      rintro _ ⟨⟩
      exact ⟨e, by simp [he], graphics, hfinds, drawable_of_drawable? hne hmode hdraw⟩

theorem ensures_findConfiguration (hl : efi.live = true) (guid : Guid) :
    (efi.findConfiguration guid).Ensures A fun _ root => root ≠ 0 →
      ∃ entries entry, efi.table.configuration = some entries ∧ entry ∈ entries ∧
        entry.guid = guid ∧ entry.table = root := by
  rw [findConfiguration, check_of_live hl, bind_done]
  refine ensures_done.2 fun h => ?_
  cases hc : efi.table.configuration with
  | none => simp [hc] at h
  | some entries =>
    rw [hc] at h
    obtain ⟨entry, hmem, hg, ht⟩ := exists_of_findTable_ne_zero h
    exact ⟨entries, entry, rfl, hmem, hg, ht⟩

theorem ensures_fillAcpi (hl : efi.live = true) (info : BootInfo) :
    (efi.fillAcpi info).Ensures A fun _ x => ∃ root, x.2 = info.withRoot root ∧
      ∀ r ∈ root, ReportedRoot efi.table r := by
  have hfind : efi.findAcpi.Ensures A fun _ root => root ≠ 0 → ReportedRoot efi.table root := by
    refine (ensures_findConfiguration hl .acpi20).bind fun _ root h => ?_
    split
    · refine ensures_done.2 fun hne => ?_
      obtain ⟨entries, entry, hc, hmem, hg, ht⟩ := h hne
      exact ⟨entries, entry, hc, hmem, .inl hg, ht⟩
    · refine (ensures_findConfiguration hl .acpi).mono fun _ root h hne => ?_
      obtain ⟨entries, entry, hc, hmem, hg, ht⟩ := h hne
      exact ⟨entries, entry, hc, hmem, .inr hg, ht⟩
  refine hfind.bind fun _ root h => ?_
  split
  · exact ensures_done.2 ⟨none, rfl, by simp⟩
  · rename_i hne
    refine ensures_done.2 ⟨some root, rfl, ?_⟩
    rintro _ ⟨⟩
    exact h hne

theorem ReportedScreen.mono {table : SystemTable} {es : List (Exchange Firmware)}
    {mode : GraphicsMode} {information : ModeInformation}
    (h : ReportedScreen table es mode information) {es' : List (Exchange Firmware)}
    (hes : ∀ e ∈ es, e ∈ es') : ReportedScreen table es' mode information := by
  obtain ⟨e, he, hrest⟩ := h
  exact ⟨e, hes e he, hrest⟩

theorem ensures_describeAcpi (hl : efi.live = true) (info : BootInfo) :
    (efi.describeAcpi info).Ensures A fun _ x => ∃ root, x = info.withRoot root ∧
      ∀ r ∈ root, ReportedRoot efi.table r := by
  refine (ensures_fillAcpi hl info).bind ?_
  rintro es ⟨acpi, _⟩ ⟨root, rfl, hroot⟩
  cases acpi
  · exact (onConsole_warn hl _).ensures.bind fun _ _ _ => ensures_done.2 ⟨root, rfl, hroot⟩
  · exact ensures_done.2 ⟨root, rfl, hroot⟩

/-- Each group of the record is of what was reported, or as it was before. -/
theorem ensures_describePlatform (hl : efi.live = true) (info : BootInfo) :
    (efi.describePlatform info).Ensures A fun es x => ∃ screen root,
      x = (info.withScreen screen).withRoot root ∧
      (∀ s ∈ screen, ReportedScreen efi.table es s.1 s.2) ∧
      ∀ r ∈ root, ReportedRoot efi.table r := by
  refine (ensures_fillFramebuffer hl info).bind ?_
  rintro es₁ ⟨drawable, _⟩ ⟨screen, rfl, hscreen⟩
  have hacpi : ∀ es₀, (efi.describeAcpi (info.withScreen screen)).Ensures A fun es x =>
      ∃ screen root, x = (info.withScreen screen).withRoot root ∧
        (∀ s ∈ screen, ReportedScreen efi.table (es₁ ++ (es₀ ++ es)) s.1 s.2) ∧
        ∀ r ∈ root, ReportedRoot efi.table r := by
    intro es₀
    refine (ensures_describeAcpi hl _).mono ?_
    rintro es _ ⟨root, rfl, hroot⟩
    exact ⟨screen, root, rfl,
      fun s hs => ReportedScreen.mono (hscreen s hs) (by simp +contextual), hroot⟩
  cases drawable
  · exact (onConsole_warn hl _).ensures.bind fun es₀ _ _ => hacpi es₀
  · exact hacpi []

end Services

end Bootloader.Uefi
