import Bootloader.Proofs.Uefi.MemoryRules

/-!
# The buffers that the firmware is given

Every part of the boot observes the rules for memory, those that ask for no map whatever was before
(`Proper`).  The snapshot of the memory map keeps its buffer until the services end, so that there
is room for each further one.  In every run of the boot the firmware is told the size of what it is
to fill (`roomRule_boot`).
-/

namespace Bootloader.Uefi

open Program

namespace Services

variable {efi : Services} {past : List (Exchange Firmware)}

section Loading

theorem proper_fileInfo (hl : efi.live = true) (file : UInt64) : Proper (efi.fileInfo file) := by
  refine fun past => (observes_sizedQuery hl (R := fun _ _ _ _ _ => True) (fun now size buffer _ h =>
    ?_) fileInfoRoom ()).bind fun now ⟨outcome, _⟩ _ => ?_
  · exact observes_request.2 ⟨⟨h, trivial⟩, fun got => observes_done.2 ⟨_, rfl, trivial⟩⟩
  · cases outcome <;> exact observes_done.2 trivial

theorem proper_fileSize (hl : efi.live = true) (file : UInt64) : Proper (efi.fileSize file) := by
  refine (proper_fileInfo hl file).bind fun record => ?_
  split
  · exact proper_done _
  · rename_i hr
    have hload : Proper (perform (.load (record + fileSizeOffset))) := proper_perform trivial
    exact hload.bind fun _ => (proper_free hl hr).bind fun _ => proper_done _

theorem proper_loadOpenFile (hl : efi.live = true) (file : UInt64) (pages : PageRun) :
    Proper (efi.loadOpenFile file pages) := by
  refine (proper_fileSize hl file).bind fun size => ?_
  cases size with
  | none => exact proper_done _
  | some size =>
    dsimp only
    split
    · exact proper_done _
    refine (proper_replacePages hl pages _).bind fun run => ?_
    cases run with
    | none => exact proper_done _
    | some run =>
      have hread : Proper (fileRead file size run.address) := proper_perform trivial
      refine hread.bind fun got => ?_
      split
      · exact proper_done _
      split <;> exact proper_done _

theorem proper_loadFromRoot (hl : efi.live = true) (root : UInt64) (path : String)
    (pages : PageRun) : Proper (efi.loadFromRoot root path pages) := by
  have hopen : Proper (perform (.openFile root path readMode 0)) := proper_perform trivial
  refine hopen.bind fun file => ?_
  split
  · exact proper_done _
  have hclose : Proper (perform (.closeFile file.value)) := proper_perform trivial
  exact (proper_loadOpenFile hl _ pages).bind fun _ => hclose.bind fun _ => proper_done _

theorem proper_loadFile (hl : efi.live = true) (device : UInt64) (path : String)
    (pages : PageRun) : Proper (efi.loadFile device path pages) := by
  have hhandle : Proper (efi.call (.handleProtocol device .simpleFileSystem)) :=
    proper_call hl trivial
  refine hhandle.bind fun fileSystem => ?_
  split
  · exact proper_done _
  have hopen : Proper (perform (.openVolume fileSystem.value)) := proper_perform trivial
  refine hopen.bind fun root => ?_
  split
  · exact proper_done _
  have hclose : Proper (perform (.closeFile root.value)) := proper_perform trivial
  exact (proper_loadFromRoot hl _ path pages).bind fun _ => hclose.bind fun _ => proper_done _

theorem proper_tryVolume (hl : efi.live = true) (handles number : UInt64) (path : String) :
    Proper (efi.tryVolume handles number path) := by
  refine (proper_print hl _).bind fun _ => (proper_print hl _).bind fun _ => ?_
  have hload : Proper (perform (.load (handles + 8 * number))) := proper_perform trivial
  refine (proper_print hl _).bind fun _ => hload.bind fun device => ?_
  refine (proper_loadFile hl device path {}).bind fun ⟨result, run⟩ => ?_
  cases result with
  | ok size =>
    exact (proper_print hl _).bind fun _ => (proper_print hl _).bind fun _ =>
      (proper_print hl _).bind fun _ => proper_done _
  | error failure =>
    exact (proper_of_onConsole (onConsole_explain hl failure)).bind fun _ =>
      (proper_print hl _).bind fun _ => (proper_dropPages hl run).bind fun _ => proper_done _

theorem proper_tryVolumes (hl : efi.live = true) (handles : UInt64) (path : String) :
    ∀ left number, Proper (efi.tryVolumes handles path left number)
  | 0, _ => proper_done _
  | left + 1, number => by
    refine (proper_tryVolume hl handles number path).bind fun image => ?_
    cases image with
    | some image => exact proper_done _
    | none => exact proper_tryVolumes hl handles path left (number + 1)

theorem proper_findCore (hl : efi.live = true) (path : String) (image : CoreImage) :
    Proper (efi.findCore path image) := by
  have hlocate : Proper (efi.call (.locateHandleBuffer byProtocol .simpleFileSystem)) :=
    proper_call hl trivial
  refine hlocate.bind fun handles => ?_
  split
  · exact (proper_print hl _).bind fun _ => proper_done _
  rename_i hsome
  have hbuffer : handles.value.buffer ≠ 0 := fun h0 => hsome (by simp [h0])
  refine (proper_tryVolumes hl _ path _ 0).bind fun found => ?_
  cases found with
  | none => exact (proper_free hl hbuffer).bind fun _ => proper_done _
  | some found =>
    exact (proper_dropPages hl _).bind fun _ => (proper_free hl hbuffer).bind fun _ =>
      proper_done _

end Loading

section Platform

/-- A handle is looked for in the room for one, or in a buffer of the size that was asked for. -/
theorem proper_firstHandle (hl : efi.live = true) (protocol : Guid) :
    Proper (efi.firstHandle protocol) := by
  intro past
  rw [firstHandle, call_eq_of_live hl]
  refine observes_request.2 ⟨⟨rfl, trivial⟩, fun got => ?_⟩
  split
  · exact observes_done.2 trivial
  split
  · exact observes_done.2 trivial
  refine (observes_allocate hl _).bind fun now buffer hnow => ?_
  split
  · exact observes_done.2 trivial
  rename_i hb
  rw [call_eq_of_live hl]
  refine observes_request.2 ⟨⟨.inr (hnow hb), trivial⟩, fun again => ?_⟩
  split
  · exact (proper_free hl hb).bind (fun _ => proper_done _) _
  · have hload : Proper (perform (.load buffer)) := proper_perform trivial
    exact hload.bind (fun _ => (proper_free hl hb).bind fun _ => proper_done _) _

theorem proper_locateProtocol (hl : efi.live = true) (protocol : Guid) :
    Proper (efi.locateProtocol protocol) := by
  rw [locateProtocol, check_of_live hl, bind_done]
  split
  · have hlocate : Proper (efi.call (.locateProtocol protocol)) := proper_call hl trivial
    exact hlocate.bind fun _ => proper_done _
  refine (proper_firstHandle hl protocol).bind fun handle => ?_
  cases handle with
  | none => exact proper_done _
  | some handle =>
    have hhandle : Proper (efi.call (.handleProtocol handle protocol)) := proper_call hl trivial
    exact hhandle.bind fun _ => proper_done _

theorem proper_findGraphics (hl : efi.live = true) : Proper efi.findGraphics := by
  rw [findGraphics, check_of_live hl, bind_done]
  split
  · exact proper_locateProtocol hl _
  have hhandle : Proper (efi.call (.handleProtocol efi.table.consoleHandle .graphicsOutput)) :=
    proper_call hl trivial
  refine hhandle.bind fun got => ?_
  split
  · exact proper_done _
  · exact proper_locateProtocol hl _

theorem proper_fillFramebuffer (hl : efi.live = true) (info : BootInfo) :
    Proper (efi.fillFramebuffer info) := by
  refine (proper_findGraphics hl).bind fun graphics => ?_
  split
  · exact proper_done _
  split
  · exact proper_done _
  split <;> exact proper_done _

theorem proper_warn (hl : efi.live = true) (message : String) : Proper (efi.warn message) :=
  proper_of_onConsole (onConsole_warn hl message)

theorem proper_describeAcpi (hl : efi.live = true) (info : BootInfo) :
    Proper (efi.describeAcpi info) := by
  refine (proper_of_onConsole (only_fillAcpi hl info)).bind ?_
  rintro ⟨acpi, info⟩
  cases acpi
  · exact (proper_warn hl _).bind fun _ => proper_done _
  · exact proper_done _

theorem proper_describePlatform (hl : efi.live = true) (info : BootInfo) :
    Proper (efi.describePlatform info) := by
  refine (proper_fillFramebuffer hl info).bind ?_
  rintro ⟨drawable, info⟩
  cases drawable
  · exact (proper_warn hl _).bind fun _ => proper_describeAcpi hl info
  · exact proper_describeAcpi hl info

end Platform

section Map

/-- One call for the memory map, and what it has written. -/
def MapAsked (size buffer : UInt64) (seen : MapSeen) (es : List (Exchange Firmware))
    (x : Answer UInt64 × MapSeen) : Prop :=
  ∃ got : Answer MapOutputs, es = [⟨.getMemoryMap size buffer, got⟩] ∧
    x = (⟨got.status, got.value.size⟩, seen.update got.value)

/-- The buffer that a snapshot was taken into is live, or there was none, and the first call was a
success. -/
def SnapshotRoom (past now : List (Exchange Firmware)) (initial : UInt64) (seen : MapSeen)
    (result : SizedQuery.Filled) (after : MapSeen) : Prop :=
  Holds now result.allocated result.buffer ∨
    initial = 0 ∧ result.allocated = 0 ∧ result.buffer = 0 ∧ ∃ got : Answer MapOutputs,
      now = past ++ [⟨.getMemoryMap 0 0, got⟩] ∧ got.status = .success ∧
        after = seen.update got.value

theorem observes_fetchMap (hl : efi.live = true) (initial : UInt64) (seen : MapSeen) :
    (efi.fetchMap initial seen).Observes memoryRule past fun now x =>
      ∀ result, x.1 = .filled result → SnapshotRoom past now initial seen result x.2 := by
  refine (observes_sizedQuery (R := MapAsked) hl (fun now size buffer s h => ?_) initial seen).mono
    fun now x hx => ?_
  · exact observes_request.2 ⟨⟨h, trivial⟩, fun got => observes_done.2 ⟨_, rfl, got, rfl, rfl⟩⟩
  obtain ⟨es, fs, rfl, hfilled, hc⟩ := hx
  intro result hr
  rcases hfilled result hr with ⟨h0, hsize, hbuffer, rfl⟩ | ⟨hb, before, got, rfl⟩
  · cases hc.of_singleton with
    | query h =>
      obtain ⟨got, rfl, heq⟩ := h
      simp only [Prod.mk.injEq, Answer.mk.injEq] at heq
      exact .inr ⟨h0, hsize, hbuffer, got, rfl, heq.1.1.symm, heq.2⟩
  · obtain ⟨fs₁, s₁, fs₂, rfl, hbefore, hlast⟩ := hc.of_append
    obtain ⟨fs₃, s₃, fs₄, rfl, -, hallocate⟩ := hbefore.of_append
    obtain ⟨got', rfl, hv⟩ := measures_allocate hallocate.of_singleton
    cases hlast.of_singleton with
    | query h =>
      obtain ⟨got, rfl, -⟩ := h
      refine .inl ?_
      rw [← List.append_assoc, ← List.append_assoc]
      exact (holds_allocated _ hv hb).append (by simp [Touches])

/-- What was granted without a buffer was so by the first call there was. -/
theorem observes_fetchMapOrGuess (hl : efi.live = true)
    (hpast : Unmapped past) :
    efi.fetchMapOrGuess.Observes memoryRule past fun now x => ∀ result, x.1 = .filled result →
      Room now result.allocated result.buffer ∧
        (result.buffer = 0 → x.2.descriptorSize < 40 → TakenBare now) := by
  refine (observes_fetchMap hl 0 {}).bind fun now ⟨outcome, seen⟩ h => ?_
  dsimp only at h ⊢
  split
  · refine (observes_fetchMap hl _ seen).mono fun now' x h' result hr => ?_
    rcases h' result hr with hholds | ⟨h0, -⟩
    · exact ⟨.inr hholds, fun hb => absurd hb hholds.ne_zero⟩
    · cases h0
  · refine observes_done.2 fun result hr => ?_
    rcases h result hr with hholds | ⟨-, hsize, hbuffer, got, rfl, hs, rfl⟩
    · exact ⟨.inr hholds, fun hb => absurd hb hholds.ne_zero⟩
    · refine ⟨.inl ⟨hsize, hbuffer⟩, fun _ hsmall => ⟨got, ?_, hs, hsmall⟩⟩
      rw [hpast.findSome?_append]
      rfl

/-- A snapshot that was taken is in a live buffer, or needs none. -/
theorem observes_acquireMap (hl : efi.live = true) {map : MemoryMap} (hm : map.buffer = 0)
    (hpast : Unmapped past) :
    (efi.acquireMap map).Observes memoryRule past fun now x =>
      x.1 = .ok → Room now x.2.bufferSize x.2.buffer := by
  rw [acquireMap, check_of_live hl, bind_done]
  split
  · exact observes_done.2 (by simp)
  refine (observes_fetchMapOrGuess hl hpast).bind ?_
  rintro now ⟨outcome, seen⟩ h
  cases outcome with
  | filled result =>
    obtain ⟨hroom, hbare⟩ := h result rfl
    dsimp only
    split
    · rename_i hsmall
      have hfree : result.buffer ≠ 0 ∨ TakenBare now := by
        by_cases hb : result.buffer = 0
        · exact .inr (hbare hb hsmall)
        · exact .inl hb
      exact (observes_free hl hfree).bind fun _ _ _ => observes_done.2 (by simp)
    · rw [hm]
      exact observes_done.2 fun _ => hroom
  | _ => exact observes_done.2 (by simp)

theorem observes_refreshMap (hl : efi.live = true) {map : MemoryMap}
    (hroom : Room past map.bufferSize map.buffer) :
    (efi.refreshMap map).Observes memoryRule past fun now x =>
      Room now x.2.bufferSize x.2.buffer := by
  rw [refreshMap, call_eq_of_live hl]
  refine observes_request.2 ⟨⟨hroom, trivial⟩, fun got => ?_⟩
  have hstill : Room (past ++ [⟨.getMemoryMap map.bufferSize map.buffer, got⟩]) map.bufferSize
      map.buffer := hroom.append (by simp [Touches])
  split <;> exact observes_done.2 hstill

end Map

section End

/-- The buffer of the snapshot is live at every attempt to end the services. -/
theorem observes_exitAgain (hl : efi.live = true) :
    ∀ (left : Nat) (status : Status) (map : MemoryMap) (info : BootInfo)
      {past : List (Exchange Firmware)}, Room past map.bufferSize map.buffer →
      (efi.exitAgain left status map info).Observes memoryRule past fun _ x =>
        x.status.isError = true → x.efi = efi
  | 0, status, map, info, _, _ => observes_done.2 fun hs =>
    if_neg fun hsuccess => by simp [hsuccess, Status.isError_success] at hs
  | left + 1, status, map, info, past, hroom => by
    -- neither a refresh nor an attempt touches the buffer, so there is room for the next refresh
    rw [exitAgain]
    split
    · refine (observes_refreshMap hl hroom).bind ?_
      rintro now ⟨refreshed, map'⟩ hnow
      dsimp only
      split
      · exact observes_done.2 fun _ => rfl
      refine observes_request.2 ⟨⟨trivial, trivial⟩, fun status' => ?_⟩
      exact observes_exitAgain hl left status' map' _ (hnow.append (by simp [Touches]))
    · rename_i hs
      exact observes_done.2 fun herror => absurd herror hs

theorem proper_abandon {state : Handover} (hl : state.efi.live = true) (status : Status) :
    Proper (abandon status state) := by
  have hsay : Proper (perform (.debugWrite "LBL: ExitBootServices failed, halting\n")) :=
    proper_perform trivial
  have hhalt : Proper (perform .halt) := proper_perform trivial
  refine (proper_of_onConsole (onConsole_setColour hl _)).bind fun _ => ?_
  refine (proper_print hl _).bind fun _ => (proper_print hl _).bind fun _ => ?_
  refine (proper_print hl _).bind fun _ => ?_
  refine (proper_dropPages hl _).bind fun _ => (proper_dropBuffer hl _).bind fun _ => ?_
  exact hsay.bind fun _ => hhalt.bind fun _ => proper_done _

theorem proper_enter (state : Handover) : Proper (enter state) := by
  have hsay : ∀ text, Proper (perform (.debugWrite text)) := fun _ => proper_perform trivial
  have henter : Proper (perform (.enterCore state.info.entry state.info)) := proper_perform trivial
  have hhalt : Proper (perform .halt) := proper_perform trivial
  exact (hsay _).bind fun _ => henter.bind fun _ => (hsay _).bind fun _ => hhalt.bind fun _ =>
    proper_done _

theorem observes_handOff (hl : efi.live = true) (core : CoreImage) {map : MemoryMap}
    (info : BootInfo) (hroom : Room past map.bufferSize map.buffer) :
    (efi.handOff core map info).Observes memoryRule past fun _ _ => True := by
  rw [handOff, exitBootServices, call_eq_of_live hl, bind_assoc]
  refine observes_request.2 ⟨⟨trivial, trivial⟩, fun status => ?_⟩
  refine (observes_exitAgain hl _ status map info (hroom.append (by simp [Touches]))).bind
    fun now exit hexit => ?_
  dsimp only
  split
  · rename_i hs
    exact proper_abandon ((congrArg live (hexit hs)).trans hl) _ now
  · exact proper_enter _ now

end End

section Boot

theorem observes_unmapped {α : Type} {p : Action α} {P : Call → Prop} (hp : Proper p)
    (ho : p.Only P) (hP : ∀ q, P q → q.IsLoading ∨ q.IsPlatform ∨ q.IsConsole)
    (hpast : Unmapped past) : p.Observes memoryRule past fun now _ => Unmapped now := by
  refine (hp past).runs.mono fun now _ h => ?_
  obtain ⟨-, es, rfl, hr⟩ := h
  exact List.forall_mem_append.2
    ⟨hpast, fun e he => mapAnswer?_eq_none (hP e.1 (ho.of_runs hr e he))⟩

theorem observes_unmapped_of_onConsole {α : Type} {p : Action α} (hp : OnConsole p)
    (hpast : Unmapped past) : p.Observes memoryRule past fun now _ => Unmapped now :=
  observes_unmapped (proper_of_onConsole hp) hp (fun _ h => .inr (.inr h)) hpast

theorem observes_bootCore (hl : efi.live = true) (core : CoreImage)
    (hpast : Unmapped past) :
    (efi.bootCore core).Observes memoryRule past fun _ _ => True := by
  refine (observes_unmapped (proper_describePlatform hl _) (onPlatform_describePlatform hl _)
    (fun _ => .inr) hpast).bind fun now info hnow => ?_
  refine (observes_unmapped_of_onConsole (onConsole_printSummary hl info) hnow).bind
    fun now _ hnow => ?_
  refine (observes_acquireMap hl rfl hnow).bind fun now ⟨outcome, map⟩ hroom => ?_
  dsimp only at hroom ⊢
  split
  · rename_i hok
    exact (observes_handOff hl core _ (hroom hok)).bind fun _ _ _ => observes_done.2 trivial
  · exact (proper_dropPages hl _).bind (fun _ => (proper_of_onConsole (onConsole_fail hl _)).bind
      fun _ => proper_done _) now

/-- The boot observes both rules. -/
theorem observes_boot (hl : efi.live = true) :
    efi.boot.Observes memoryRule [] fun _ _ => True := by
  have hnil : Unmapped [] := List.forall_mem_nil _
  refine (observes_unmapped_of_onConsole (onConsole_printBanner hl) hnil).bind fun now _ hnow => ?_
  refine (observes_unmapped_of_onConsole (onConsole_print hl _) hnow).bind fun now _ hnow => ?_
  refine (observes_unmapped (proper_findCore hl _ _) (onLoading_findCore hl _ _)
    (fun _ => Or.imp_right .inr) hnow).bind fun now ⟨status, core⟩ hnow => ?_
  dsimp only
  split
  · exact (proper_of_onConsole (onConsole_fail hl _)).bind (fun _ => proper_done _) now
  · exact observes_bootCore hl core hnow

theorem memoryRule_of_runs {es : List (Exchange Firmware)} {o : Option Ending}
    (h : Runs efi.boot es o) : memoryRule.KeptBy es := by
  cases hl : efi.live with
  | true => exact ((observes_boot hl).of_runs h).1
  | false =>
    obtain ⟨rfl, -⟩ := runs_boot_of_not_live hl h
    exact Rule.keptBy_of_forall fun e he past => by
      simp only [List.mem_cons, List.not_mem_nil, or_false] at he
      rcases he with rfl | rfl <;> exact ⟨trivial, trivial⟩

/-- In every run of the boot, whatever the firmware is to fill is a live buffer of just the size it
is told, or nothing of no size. -/
theorem roomRule_boot {es : List (Exchange Firmware)} {o : Option Ending}
    (h : Runs efi.boot es o) : roomRule.KeptBy es :=
  (memoryRule_of_runs h).mono fun _ _ => And.left

end Boot

end Services

/-- The small firmware with boot services that have no direct search, and two handles for each
protocol. -/
def olderFirmware : (q : Call) → (exits : Nat) → q.Reply × Nat
  | .locateHandle _ _ size _, n =>
    (⟨if size < 16 then .bufferTooSmall else .success, ⟨16, 0⟩⟩, n)
  | q, n => smallFirmware q n

/-- The hold on that firmware. -/
def olderServices : Services := ⟨0x100, { smallTable with servicesRevision := 0 }, true⟩

/-- A boot on that firmware. -/
def olderBoot : List (Exchange Firmware) := olderServices.boot.exchanges olderFirmware 0

/-- There the record of a file, a list of handles and the memory map are filled, and the map once
more before the services end. -/
theorem roomRule_olderBoot : roomRule.KeptBy olderBoot ∧
    olderBoot.filterMap (fun e => e.1.room?) = [(128, .pool 0x1000), (8, .single),
      (16, .pool 0x1000), (0, .pool 0), (864, .pool 0x1000), (864, .pool 0x1000)] := by
  refine ⟨?_, by decide +kernel⟩
  unfold olderBoot
  exact Services.roomRule_boot (runs_exchanges _ _ 0)

end Bootloader.Uefi
