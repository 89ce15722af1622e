import Bootloader.Proofs.Legacy.Boot
import Bootloader.Proofs.Legacy.DriveEnd

/-!
# The second stage over a whole run

All that a run of the second stage can be (`Staged`): it fails to turn the A20 line on, finds no way
to read its drive, fails to read the core, or goes on in protected mode.  So it ends in one of two
ways, and what it goes on with has been read, whatever the BIOS and the ports answer
(`secondStage_of_runs`).
-/

namespace Bootloader.Legacy

open Bios Program

/-- The calls by which a text is written. -/
def said (text : String) : List (Exchange Bios) := text.toList.map fun c => ⟨.teletype c, ()⟩

theorem ensures_print {A : Exchange Bios → Prop} (text : String) :
    (print text).Ensures A fun es _ => es = said text := by
  unfold print said
  induction text.toList with
  | nil => exact ensures_done.2 rfl
  | cons c rest ih => exact ensures_request.2 fun _ _ => ih.mono fun _ _ hes => by rw [hes]; rfl

theorem not_isDisk_said {text : String} : ∀ e ∈ said text, ¬e.1.IsDisk := by
  intro e he
  obtain ⟨c, -, rfl⟩ := List.mem_map.1 he
  exact id

namespace Reader

/-- A reader finds out how to read its drive by the disk service alone. -/
theorem only_init (r : Reader) : r.init.Only Bios.Call.IsDisk := by
  have hprobe : (probeExtensions r.drive).Only Bios.Call.IsDisk := ⟨trivial, fun _ => trivial⟩
  have hask : (askGeometry r.drive r.geometry).Only Bios.Call.IsDisk := by
    refine ⟨trivial, fun reply => ?_⟩
    change (if reply.carry = true then _ else _ : Program Bios _).Only _
    split <;> trivial
  refine hprobe.bind fun found => ?_
  cases found with
  | true => trivial
  | false => exact hask.bind fun _ => trivial

theorem only_readWithin (r : Reader) :
    ∀ (requests : Nat) (t : Transfer), (r.readWithin requests t).Only Bios.Call.IsDisk
  | 0, _ => trivial
  | requests + 1, t => by
    have hnext : ∀ t' ok, (if ok = true then r.readWithin requests t' else pure false).Only
        Bios.Call.IsDisk := by
      intro t' ok
      cases ok with
      | true => exact only_readWithin r requests t'
      | false => trivial
    unfold readWithin
    split
    · trivial
    split
    · have hread : ∀ packet, (readExtended r.drive packet).Only Bios.Call.IsDisk :=
        fun _ => ⟨trivial, fun _ => trivial⟩
      exact (hread _).bind (hnext _)
    dsimp only
    split
    · trivial
    · have hread : ∀ place count segment offset,
          (readChs r.drive place count segment offset).Only Bios.Call.IsDisk :=
        fun _ _ _ _ => ⟨trivial, fun _ => trivial⟩
      exact (hread _ _ _ _).bind (hnext _)

theorem drive_of_init {r r' : Reader} {es : List (Exchange Bios)} {ok : Bool}
    (h : Runs r.init es (some (ok, r'))) : r'.drive = r.drive := by
  rcases runs_bind_iff.1 h with ⟨-, h⟩ | ⟨found, es₁, es₂, -, -, h⟩
  · cases h
  cases found with
  | true =>
    obtain ⟨-, h⟩ := runs_done_iff.1 h
    cases h
    rfl
  | false =>
    rcases runs_bind_iff.1 h with ⟨-, h⟩ | ⟨⟨ok', g⟩, es₃, es₄, -, -, h⟩
    · cases h
    obtain ⟨-, h⟩ := runs_done_iff.1 h
    cases h
    rfl

end Reader

/-- The output of a stage that fails. -/
def failing (message : String) : List (Exchange Bios) := said message ++ said "\r\nSystem halted."

/-- The calls of the second stage up to its first look at the drive. -/
def prologue (method : A20.Method) (a20 : List (Exchange Bios)) : List (Exchange Bios) :=
  said "LBL stage 2\r\n" ++ (a20 ++ (said method.report ++ said "Loading LBL Core Engine...\r\n"))

/-- All that a run of the second stage can be. -/
inductive Staged (config : BuildConfig) (drive : UInt8) (target : UInt32) :
    List (Exchange Bios) → Ending × Shared → Prop where
  | shut {a20 : List (Exchange Bios)} (ha : Runs A20.enable a20 (some .failed)) :
    Staged config drive target (said "LBL stage 2\r\n" ++ (a20 ++ failing "A20 enable FAILED!"))
      (.halted, { bootDrive := drive })
  | unusable {a20 probe : List (Exchange Bios)} {method : A20.Method} {reader : Reader}
      (ha : Runs A20.enable a20 (some method)) (hm : method ≠ .failed)
      (hp : Runs (Reader.init { drive }) probe (some (false, reader))) :
    Staged config drive target (prologue method a20 ++ (probe ++
      failing "LBL Core load FAILED! (no usable disk access method)"))
      (.halted, { bootDrive := drive })
  | unread {a20 probe reads : List (Exchange Bios)} {method : A20.Method} {reader : Reader}
      (ha : Runs A20.enable a20 (some method)) (hm : method ≠ .failed)
      (hp : Runs (Reader.init { drive }) probe (some (true, reader)))
      (hr : Runs (reader.read config.coreStart config.coreSectors bounceAddress) reads
        (some false)) :
    Staged config drive target (prologue method a20 ++ (probe ++ (reads ++
      failing "LBL Core load FAILED!")))
      (.halted, { bootDrive := drive, usedExtensions := reader.extended })
  | switched {a20 probe reads : List (Exchange Bios)} {method : A20.Method} {reader : Reader}
      (ha : Runs A20.enable a20 (some method)) (hm : method ≠ .failed)
      (hp : Runs (Reader.init { drive }) probe (some (true, reader)))
      (hr : Runs (reader.read config.coreStart config.coreSectors bounceAddress) reads
        (some true)) (segment offset : UInt16) :
    Staged config drive target (prologue method a20 ++ (probe ++ (reads ++
      (said "LBL Core loaded.\r\n" ++ [⟨.codeSegment, segment⟩, ⟨.tableOffset, offset⟩]))))
      (.protectedMode (.make segment offset flatTableBytes) codeSelector target,
        { bootDrive := drive, usedExtensions := reader.extended,
          table := .make segment offset flatTableBytes })

theorem ensures_reportFailure {A : Exchange Bios → Prop} (message : String) :
    (reportFailure message).Ensures A fun es _ => es = failing message := by
  refine (ensures_print message).bind ?_
  rintro _ _ rfl
  refine (ensures_print _).mono ?_
  rintro _ _ rfl
  rfl

section Stages

variable {config : BuildConfig} {drive : UInt8} {target : UInt32} {A : Exchange Bios → Prop}
variable {a20 : List (Exchange Bios)} {method : A20.Method}

theorem ensures_loadCore (ha : Runs A20.enable a20 (some method)) (hm : method ≠ .failed) :
    (loadCore config { bootDrive := drive } target).Ensures A fun es x =>
      Staged config drive target
        (said "LBL stage 2\r\n" ++ (a20 ++ (said method.report ++ es))) x := by
  refine (ensures_print _).bind ?_
  rintro _ _ rfl
  refine (Ensures.runs (Reader.only_init { drive }).ensures).bind ?_
  rintro probe ⟨ok, reader⟩ ⟨hp, -⟩
  cases ok with
  | false =>
    refine (ensures_reportFailure _).bind ?_
    rintro _ _ rfl
    have hstaged : Staged config drive target _ _ := .unusable ha hm hp
    exact ensures_done.2 (by simpa [prologue] using hstaged)
  | true =>
    dsimp only
    rw [if_pos rfl]
    refine (Ensures.runs (reader.only_readWithin _ _).ensures).bind ?_
    rintro reads ok ⟨hr, -⟩
    cases ok with
    | false =>
      refine (ensures_reportFailure _).bind ?_
      rintro _ _ rfl
      have hstaged : Staged config drive target _ _ := .unread ha hm hp hr
      exact ensures_done.2 (by simpa [prologue] using hstaged)
    | true =>
      refine (ensures_print _).bind ?_
      rintro _ _ rfl
      refine ensures_request.2 fun segment _ => ensures_request.2 fun offset _ => ?_
      have hstaged : Staged config drive target _ _ := .switched ha hm hp hr segment offset
      exact ensures_done.2 (by simpa [prologue] using hstaged)

theorem ensures_stage2 : (stage2 config drive target).Ensures A (Staged config drive target) := by
  refine (ensures_print _).bind ?_
  rintro _ _ rfl
  refine (Ensures.runs A20.offDisk_enable.ensures).bind ?_
  rintro a20 method ⟨ha, -⟩
  by_cases hm : method = .failed
  · rw [if_pos hm]
    rw [hm] at ha
    refine (ensures_reportFailure _).bind ?_
    rintro _ _ rfl
    have hstaged : Staged config drive target _ _ := .shut ha
    exact ensures_done.2 (by simpa using hstaged)
  · rw [if_neg hm]
    refine (ensures_print _).bind ?_
    rintro _ _ rfl
    exact ensures_loadCore ha hm

end Stages

/-- The A20 line is on, a reader knows how to read the drive, and has read the core. -/
def Loads (config : BuildConfig) (drive : UInt8) (es : List (Exchange Bios)) (reader : Reader)
    (reads rest : List (Exchange Bios)) : Prop :=
  ∃ method a20 probe, es = prologue method a20 ++ (probe ++ (reads ++ rest)) ∧
    Runs A20.enable a20 (some method) ∧ method ≠ .failed ∧
      Runs (Reader.init { drive }) probe (some (true, reader)) ∧
        Runs (reader.read config.coreStart config.coreSectors bounceAddress) reads (some true)

/-- A sector was asked for, to go to an address, by a call that did not fail. -/
def Delivered (access : Access) (drive : UInt8) (es : List (Exchange Bios)) (lba address : Nat) :
    Prop :=
  ∃ (r : Registers) (reply : DiskReply) (run : SectorRun), ⟨.disk r, reply⟩ ∈ es ∧
    r.drive = drive ∧ reply.carry = false ∧ access.requested? r = some run ∧
      (lba, address) ∈ run.sectors

/-- What the second stage may say last. -/
def failures : List String :=
  ["A20 enable FAILED!", "LBL Core load FAILED! (no usable disk access method)",
    "LBL Core load FAILED!"]

/-- The second stage over a whole run. -/
structure SecondStage (config : BuildConfig) (drive : UInt8) (target : UInt32)
    (es : List (Exchange Bios)) (o : Option (Ending × Shared)) : Prop where
  ends : (∃ shared, o = some (.halted, shared)) ∨
    ∃ table selector entry shared, o = some (.protectedMode table selector entry, shared)
  entered_iff : (∃ table selector entry shared,
      o = some (.protectedMode table selector entry, shared)) ↔
    ∃ reader reads rest, Loads config drive es reader reads rest
  entered : ∀ table selector entry shared,
    o = some (.protectedMode table selector entry, shared) →
      selector = codeSelector ∧ entry = target ∧ ∃ reader access reads segment offset,
        Loads config drive es reader reads
          (said "LBL Core loaded.\r\n" ++ [⟨.codeSegment, segment⟩, ⟨.tableOffset, offset⟩]) ∧
        reader.Uses access ∧
        (∀ i < config.coreSectors.toNat, Delivered access drive reads (config.coreStart.toNat + i)
          (bounceAddress.toNat + 512 * i)) ∧
        table.limit = 23 ∧ table.base.toNat = 16 * segment.toNat + offset.toNat
  halted : ∀ shared, o = some (.halted, shared) → ∃ message ∈ failures, failing message <:+ es
  disk : ∀ pre r reply post, es = pre ++ ⟨.disk r, reply⟩ :: post →
    ∃ method a20 rest, pre = prologue method a20 ++ rest ∧
      Runs A20.enable a20 (some method) ∧ method ≠ .failed

section Whole

variable {config : BuildConfig} {drive : UInt8} {target : UInt32}
variable {es a20 a20' xs ys : List (Exchange Bios)} {method method' : A20.Method}

theorem not_isDisk_prologue (ha : Runs A20.enable a20 (some method)) :
    ∀ e ∈ prologue method a20, ¬e.1.IsDisk := by
  have hoff := A20.offDisk_enable.of_runs ha
  intro e he
  simp only [prologue, List.mem_append] at he
  rcases he with he | he | he | he
  · exact not_isDisk_said e he
  · exact hoff e he
  · exact not_isDisk_said e he
  · exact not_isDisk_said e he

theorem prologue_inj (ha : Runs A20.enable a20 (some method))
    (ha' : Runs A20.enable a20' (some method'))
    (h : prologue method a20 ++ xs = prologue method' a20' ++ ys) : xs = ys := by
  simp only [prologue, List.append_assoc] at h
  have hcancel := List.append_cancel_left h
  obtain ⟨rfl, hm⟩ := ha.eq_of_append ha' hcancel
  cases hm
  simpa using hcancel

theorem Staged.entered_iff {x : Ending × Shared} (h : Staged config drive target es x) :
    (∃ table selector entry shared, x = (.protectedMode table selector entry, shared)) ↔
      ∃ reader reads rest, Loads config drive es reader reads rest := by
  constructor
  · rintro ⟨table, selector, entry, shared, rfl⟩
    cases h with
    | switched ha hm hp hr segment offset =>
      exact ⟨_, _, _, _, _, _, rfl, ha, hm, hp, hr⟩
  · rintro ⟨reader, reads, rest, method, a20, probe, hes, ha, hm, hp, hr⟩
    cases h with
    | shut ha' =>
      simp only [prologue, List.append_assoc] at hes
      obtain ⟨-, hfailed⟩ := ha'.eq_of_append ha (List.append_cancel_left hes)
      cases hfailed
      exact absurd rfl hm
    | unusable ha' hm' hp' =>
      obtain ⟨-, hready⟩ := hp'.eq_of_append hp (prologue_inj ha' ha hes)
      cases hready
    | unread ha' hm' hp' hr' =>
      have htail := prologue_inj ha' ha hes
      obtain ⟨rfl, hready⟩ := hp'.eq_of_append hp htail
      cases hready
      obtain ⟨-, hread⟩ := hr'.eq_of_append hr (List.append_cancel_left htail)
      cases hread
    | switched => exact ⟨_, _, _, _, rfl⟩

theorem Staged.disk {x : Ending × Shared} (h : Staged config drive target es x)
    {pre post : List (Exchange Bios)} {r : Registers} {reply : DiskReply}
    (hes : es = pre ++ ⟨.disk r, reply⟩ :: post) :
    ∃ method a20 rest, pre = prologue method a20 ++ rest ∧
      Runs A20.enable a20 (some method) ∧ method ≠ .failed := by
  have hbehind : ∀ {method a20 ys}, Runs A20.enable a20 (some method) → method ≠ .failed →
      prologue method a20 ++ ys = pre ++ ⟨.disk r, reply⟩ :: post →
        ∃ method a20 rest, pre = prologue method a20 ++ rest ∧
          Runs A20.enable a20 (some method) ∧ method ≠ .failed := by
    intro method a20 ys ha hm heq
    obtain ⟨rest, hrest⟩ := exists_eq_append
      (fun hmem => not_isDisk_prologue ha ⟨.disk r, reply⟩ hmem trivial) heq
    exact ⟨method, a20, rest, hrest, ha, hm⟩
  cases h with
  | @shut a20 ha =>
    have hoff := A20.offDisk_enable.of_runs ha
    have hmem : (⟨.disk r, reply⟩ : Exchange Bios) ∈
        said "LBL stage 2\r\n" ++ (a20 ++ failing "A20 enable FAILED!") := by
      rw [hes]
      simp
    simp only [failing, List.mem_append] at hmem
    rcases hmem with hmem | hmem | hmem | hmem
    · exact absurd trivial (not_isDisk_said _ hmem)
    · exact absurd trivial (hoff _ hmem)
    · exact absurd trivial (not_isDisk_said _ hmem)
    · exact absurd trivial (not_isDisk_said _ hmem)
  | unusable ha hm => exact hbehind ha hm hes
  | unread ha hm => exact hbehind ha hm hes
  | switched ha hm => exact hbehind ha hm hes

theorem Staged.halted {shared : Shared} (h : Staged config drive target es (.halted, shared)) :
    ∃ message ∈ failures, failing message <:+ es := by
  cases h with
  | shut => exact ⟨_, .head _, by simp [← List.append_assoc]⟩
  | unusable => exact ⟨_, .tail _ (.head _), by simp [← List.append_assoc]⟩
  | unread => exact ⟨_, .tail _ (.tail _ (.head _)), by simp [← List.append_assoc]⟩

/-- What a read that did not fail was to fetch was delivered. -/
theorem Transfer.ReadBy.delivered {t : Transfer} {access : Access}
    (h : t.ReadBy access drive es true) {i : Nat} (hi : i < t.count.toNat) :
    Delivered access drive es (t.lba.toNat + i) (t.target.toNat + 512 * i) := by
  have hmem : (t.lba.toNat + i, t.target.toNat + 512 * i) ∈ access.sectorsAsked es := by
    rw [h.whole rfl]
    exact List.mem_map.2 ⟨i, List.mem_range.2 hi, rfl⟩
  obtain ⟨run, hrun, hsector⟩ := List.mem_flatMap.1 hmem
  obtain ⟨e, he, hasked⟩ := List.mem_filterMap.1 hrun
  obtain ⟨r, reply, run', rfl, hdrive, hrequested⟩ := h.asked e he
  have hrun' : run' = run := Option.some.inj (hrequested.symm.trans hasked)
  exact ⟨r, reply, run, he, hdrive, h.ok_iff.1 rfl _ he, hrun' ▸ hrequested, hsector⟩

theorem TablePointer.toNat_base_make (segment offset bytes : UInt16) :
    (make segment offset bytes).base.toNat = 16 * segment.toNat + offset.toNat := by
  have hs := segment.toNat_lt
  have ho := offset.toNat_lt
  simp only [make, UInt32.toNat_add, UInt32.toNat_shiftLeft, UInt16.toNat_toUInt32]
  rw [show (4 : UInt32).toNat % 32 = 4 from rfl, Nat.shiftLeft_eq]
  omega

/-- A core that was read is one whose sectors can be named. -/
theorem fits_of_read (hc : config.Sound) (hf : config.coreStart.toNat < 2 ^ 16)
    (h0 : config.coreSectors ≠ 0) {reader : Reader} {access : Access} (hu : reader.Uses access)
    (hr : Runs (reader.read config.coreStart config.coreSectors bounceAddress) es (some true)) :
    (Transfer.mk config.coreStart config.coreSectors bounceAddress).Fits access := by
  have hfits := Machine.Serves.fits_coreRun hc
  cases hu with
  | extended => exact hfits
  | chs shape he hg =>
    have hreach : 65536 ≤ shape.reach := by
      unfold Shape.reach
      rw [Nat.mul_assoc]
      exact Nat.le_mul_of_pos_right _ (Nat.mul_pos shape.heads_pos shape.sectorsPerTrack_pos)
    exact ⟨hfits.target, Reader.lba_add_count_le_of_read he hg _ _ (Nat.le_refl _) h0
      (Nat.lt_of_lt_of_le hf hreach) es hr⟩

/-- The second stage halts with a message, or goes on in protected mode with a core that has been
read, whatever the BIOS and the ports answer. -/
theorem secondStage_of_runs (hc : config.Sound) (hf : config.coreStart.toNat < 2 ^ 16)
    {o : Option (Ending × Shared)} (h : Runs (stage2 config drive target) es o) :
    SecondStage config drive target es o := by
  have hstaged : (stage2 config drive target).Ensures (fun _ => True)
      (Staged config drive target) := ensures_stage2
  obtain ⟨x, rfl, hs⟩ := hstaged es o h fun _ _ => trivial
  refine ⟨?_, ?_, ?_, ?_, fun pre r reply post hes => hs.disk hes⟩
  · cases hs with
    | switched => exact .inr ⟨_, _, _, _, rfl⟩
    | _ => exact .inl ⟨_, rfl⟩
  · simpa using hs.entered_iff
  · intro table selector entry shared ho
    cases ho
    cases hs with
    | @switched a20 probe reads method reader ha hm hp hr segment offset =>
    obtain ⟨access, hu, hread⟩ := readBy_of_init hp
    refine ⟨rfl, rfl, reader, access, reads, segment, offset,
      ⟨method, a20, probe, rfl, ha, hm, hp, hr⟩, hu, fun i hi => ?_, rfl,
      TablePointer.toNat_base_make segment offset flatTableBytes⟩
    have h0 : config.coreSectors ≠ 0 := by
      rw [ne_eq, ← UInt32.toNat_inj, UInt32.toNat_zero]
      omega
    obtain ⟨ok, hok, hby⟩ := hread _ (fits_of_read hc hf h0 hu hr) reads _ hr
    cases hok
    rw [Reader.drive_of_init hp] at hby
    exact hby.delivered hi
  · intro shared ho
    cases ho
    exact hs.halted

/-- The three builds are sound, and their core begins early enough for every shape of a drive. -/
theorem BuildConfig.sound_of_mem (h : config ∈ [BuildConfig.default, .min, .max]) :
    config.Sound ∧ config.coreStart.toNat < 2 ^ 16 := by
  simp only [List.mem_cons, List.not_mem_nil, or_false] at h
  rcases h with rfl | rfl | rfl <;> exact ⟨⟨by decide, by decide, by decide⟩, by decide⟩

/-- From a floppy disk the second stage goes on. -/
theorem secondStage_floppy : ∃ es shared,
    Runs (stage2 .default 0 0x9000) es (some (.protectedMode ⟨23, 0⟩ 8 0x9000, shared)) ∧
      SecondStage .default 0 0x9000 es (some (.protectedMode ⟨23, 0⟩ 8 0x9000, shared)) := by
  obtain ⟨hc, hf⟩ := BuildConfig.sound_of_mem (List.mem_cons_self (a := BuildConfig.default))
  have hr := runs_exchanges floppyBios (stage2 .default 0 0x9000) ()
  have ho : ((stage2 .default 0 0x9000).run floppyBios ()).1 =
      some (.protectedMode ⟨23, 0⟩ 8 0x9000, { table := ⟨23, 0⟩ }) := by
    decide +kernel
  rw [ho] at hr
  exact ⟨_, _, hr, secondStage_of_runs hc hf hr⟩

end Whole

end Bootloader.Legacy
