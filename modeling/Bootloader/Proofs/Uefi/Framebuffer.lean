import Bootloader.Proofs.Uefi.Boot
import Bootloader.Proofs.Uefi.PixelFormat

/-!
# The framebuffer in the record

The graphics interface is that of the console if it has one to give, and only if not, the one that
a search finds (`GraphicsFound`).  Its mode can be drawn in or not (`Drawable`), which is known
before any field is set.

So the record gets all the fields of a framebuffer from one mode, or stays as it was
(`FramebufferFilled`).
-/

namespace Bootloader.Uefi

open Program

/-- The graphics interface that was found, and how it was: the console gave it, or was passed over,
or there is none. -/
inductive GraphicsFound (efi : Services) : List (Exchange Firmware) → UInt64 → Prop where
  | console {got : Answer UInt64} (hconsole : efi.table.consoleHandle ≠ 0)
      (hgot : got.status = .success ∧ got.value ≠ 0) :
    GraphicsFound efi [⟨.handleProtocol efi.table.consoleHandle .graphicsOutput, got⟩] got.value
  | passedOver {got : Answer UInt64} {es : List (Exchange Firmware)} {graphics : UInt64}
      (hconsole : efi.table.consoleHandle ≠ 0) (hgot : ¬(got.status = .success ∧ got.value ≠ 0))
      (h : Runs (efi.locateProtocol .graphicsOutput) es (some graphics)) :
    GraphicsFound efi (⟨.handleProtocol efi.table.consoleHandle .graphicsOutput, got⟩ :: es)
      graphics
  | noConsole {es : List (Exchange Firmware)} {graphics : UInt64}
      (hconsole : efi.table.consoleHandle = 0)
      (h : Runs (efi.locateProtocol .graphicsOutput) es (some graphics)) :
    GraphicsFound efi es graphics

/-- The record tells of a framebuffer in this mode. -/
structure FramebufferOf (mode : GraphicsMode) (information : ModeInformation) (info : BootInfo) :
    Prop where
  address : info.framebufferAddress = mode.base
  size : info.framebufferSize = mode.size
  width : info.framebufferWidth = information.width
  height : info.framebufferHeight = information.height
  bitsPerPixel : info.framebufferBitsPerPixel = information.pixelFormat.bitsPerPixel
  pixelFormat : info.framebufferPixelFormat = information.pixelFormat.layout.tag
  depth : 1 ≤ info.framebufferBitsPerPixel.toNat ∧ info.framebufferBitsPerPixel.toNat ≤ 32
  tagged : info.framebufferPixelFormat ≠ PixelLayout.none.tag
  pitch : info.framebufferPitch.toNat =
    information.pixelsPerScanLine.toNat * (info.framebufferBitsPerPixel.toNat ⌈/⌉ 8) % 2 ^ 32

/-- The other fields of a record. -/
def BootInfo.withoutFramebuffer (info : BootInfo) : BootInfo :=
  { info with
    framebufferAddress := 0
    framebufferSize := 0
    framebufferWidth := 0
    framebufferHeight := 0
    framebufferBitsPerPixel := 0
    framebufferPixelFormat := 0
    framebufferPitch := 0 }

/-- What becomes of a record: it tells of the mode if that can be drawn in, and it is as it was if
not. -/
structure FramebufferFilled (table : SystemTable) (graphics : UInt64) (info : BootInfo)
    (filled : Bool) (after : BootInfo) : Prop where
  filled_iff : filled = true ↔ ∃ mode information, Drawable table graphics mode information
  group : ∀ mode information, Drawable table graphics mode information →
    FramebufferOf mode information after
  others : after.withoutFramebuffer = info.withoutFramebuffer
  kept : filled = false → after = info

section Record

variable {table : SystemTable} {graphics : UInt64} {mode : GraphicsMode}
variable {information : ModeInformation} {info : BootInfo}

theorem Drawable.framebufferOf (h : Drawable table graphics mode information) :
    FramebufferOf mode information (info.withFramebuffer mode information) where
  address := rfl
  size := rfl
  width := rfl
  height := rfl
  bitsPerPixel := rfl
  pixelFormat := rfl
  depth := ModeInformation.toNat_bitsPerPixel h.layout
  tagged := mt PixelLayout.tag_eq_iff.1 h.layout
  pitch := ModeInformation.toNat_pitch

/-- Where nothing can be drawn in, the record is to stay. -/
theorem framebufferFilled_same (h : ∀ mode information, ¬Drawable table graphics mode information) :
    FramebufferFilled table graphics info false info where
  filled_iff := by simp [h]
  group mode information hd := absurd hd (h mode information)
  others := rfl
  kept _ := rfl

theorem Drawable.framebufferFilled (h : Drawable table graphics mode information) :
    FramebufferFilled table graphics info true (info.withFramebuffer mode information) where
  filled_iff := ⟨fun _ => ⟨mode, information, h⟩, fun _ => rfl⟩
  group mode' information' h' := by
    obtain rfl : mode = mode' := Option.some.inj (h.reported.symm.trans h'.reported)
    obtain rfl : information = information' :=
      Option.some.inj (h.described.symm.trans h'.described)
    exact h.framebufferOf
  others := rfl
  kept h := by cases h

end Record

namespace Services

variable {efi : Services} {A : Exchange Firmware → Prop}

theorem ensures_graphicsFound (hl : efi.live = true) :
    efi.findGraphics.Ensures A (GraphicsFound efi) := by
  rw [findGraphics, check_of_live hl, bind_done]
  have hlocate : (efi.locateProtocol .graphicsOutput).Ensures A fun _ _ => True :=
    (asks_locateProtocol hl _).ensures.mono fun _ _ _ => trivial
  split
  · rename_i hconsole
    exact hlocate.runs.mono fun es graphics h => .noConsole hconsole h.1
  rename_i hconsole
  rw [call_eq_of_live hl]
  refine ensures_request.2 fun got _ => ?_
  split
  · rename_i hgot
    exact ensures_done.2 (.console hconsole hgot)
  · rename_i hgot
    exact hlocate.runs.mono fun es graphics h => .passedOver hconsole hgot h.1

theorem ensures_framebufferFilled (hl : efi.live = true) (info : BootInfo) :
    (efi.fillFramebuffer info).Ensures A fun es x => ∃ graphics, GraphicsFound efi es graphics ∧
      FramebufferFilled efi.table graphics info x.1 x.2 := by
  refine (ensures_graphicsFound hl).bind fun es graphics hfound => ?_
  have hdone : ∀ filled after, FramebufferFilled efi.table graphics info filled after →
      (done (filled, after)).Ensures A fun es' x => ∃ graphics,
        GraphicsFound efi (es ++ es') graphics ∧
          FramebufferFilled efi.table graphics info x.1 x.2 :=
    fun _ _ h => ensures_done.2 ⟨graphics, by rwa [List.append_nil], h⟩
  split
  · rename_i h0
    exact hdone _ _ (framebufferFilled_same fun _ _ h => h.found h0)
  rename_i h0
  cases hmode : efi.table.graphicsMode graphics with
  | none =>
    refine hdone _ _ (framebufferFilled_same fun mode information h => ?_)
    cases hmode.symm.trans h.reported
  | some mode =>
    dsimp only
    cases hdraw : mode.drawable? with
    | none =>
      refine hdone _ _ (framebufferFilled_same fun mode' information h => ?_)
      obtain rfl : mode = mode' := Option.some.inj (hmode.symm.trans h.reported)
      cases hdraw.symm.trans h.drawable?_eq
    | some information =>
      exact hdone _ _ (drawable_of_drawable? h0 hmode hdraw).framebufferFilled

/-- The framebuffer goes into the record whole, or the record stays as it was. -/
theorem framebuffer_of_runs {info : BootInfo} {es : List (Exchange Firmware)}
    {o : Option (Bool × BootInfo)} (h : Runs (efi.fillFramebuffer info) es o) :
    (efi.live = false ∧ o = none) ∨ ∃ filled after graphics, o = some (filled, after) ∧
      GraphicsFound efi es graphics ∧ FramebufferFilled efi.table graphics info filled after := by
  cases hl : efi.live with
  | false =>
    rw [fillFramebuffer, findGraphics, bind_bind] at h
    exact .inl ⟨rfl, (runs_check_of_not_live hl h).2⟩
  | true =>
    obtain ⟨⟨filled, after⟩, rfl, graphics, hfound, hfilled⟩ :=
      (ensures_framebufferFilled hl info).exists_of_run h
    exact .inr ⟨filled, after, graphics, rfl, hfound, hfilled⟩

end Services

/-- Pixels with five bits of each colour, in lines of 832. -/
def highColour : ModeInformation := ⟨800, 600, 2, ⟨0x7C00, 0x3E0, 0x1F, 0⟩, 832⟩

/-- The small firmware with a mode of such pixels, and a console that claims a graphics interface
and gives none. -/
def colourServices : Services :=
  ⟨0x100, { smallTable with
    consoleHandle := 0x22
    graphicsMode := fun graphics =>
      if graphics = 0x3000 then some ⟨some highColour, 0x80000000, 0x100000⟩ else none }, true⟩

def colourFirmware : (q : Call) → (exits : Nat) → q.Reply × Nat
  | .handleProtocol .., n => (⟨.success, 0⟩, n)
  | q, n => smallFirmware q n

/-- There the interface is searched for, and the lines take two bytes for each pixel. -/
theorem framebuffer_highColour : ∃ es after,
    Runs (colourServices.fillFramebuffer {}) es (some (true, after)) ∧
      GraphicsFound colourServices es 0x3000 ∧
        FramebufferOf ⟨some highColour, 0x80000000, 0x100000⟩ highColour after ∧
          after.framebufferBitsPerPixel = 15 ∧ after.framebufferPitch = 1664 := by
  have hr := runs_exchanges colourFirmware (colourServices.fillFramebuffer {}) 0
  have hrun : ((colourServices.fillFramebuffer {}).run colourFirmware 0).1.map (fun x =>
      (x.1, x.2.framebufferBitsPerPixel, x.2.framebufferPitch)) = some (true, 15, 1664) := by
    decide +kernel
  rcases Services.framebuffer_of_runs hr with
    ⟨h, -⟩ | ⟨filled, after, graphics, ho, hfound, hfilled⟩
  · cases h
  rw [ho] at hr hrun
  obtain ⟨rfl, hbits, hpitch⟩ : filled = true ∧ after.framebufferBitsPerPixel = 15 ∧
      after.framebufferPitch = 1664 := by simpa using hrun
  obtain ⟨mode, information, hdrawable⟩ := hfilled.filled_iff.1 rfl
  obtain ⟨rfl, rfl⟩ : graphics = 0x3000 ∧ ⟨some highColour, 0x80000000, 0x100000⟩ = mode := by
    simpa [colourServices] using hdrawable.reported
  obtain rfl : highColour = information := Option.some.inj hdrawable.described
  exact ⟨_, after, hr, hfound, hfilled.group _ _ hdrawable, hbits, hpitch⟩

end Bootloader.Uefi
