import Bootloader.Proofs.Legacy.Conventions
import Bootloader.Proofs.Legacy.SecondStage
import Bootloader.Proofs.Rule

/-!
# Which reads the disk service is asked for

A BIOS without the extensions may never be asked for an extended read, since that can hang the
machine.  So every read has to be one that the last probe allows (`Allowed`), and a read by
cylinder, head and sector has to be counted in the shape that was reported last (`Located`).

The boot sector, the second stage, and a reader that is used in any way at all keep to this,
whatever the BIOS answers (`probed_of_runs`).  What a reader remembers of the drive agrees with the
last answers all the time (`Reader.Informed`), and reads leave them as they are.
-/

namespace Bootloader.Legacy

open Bios Program

/-- The answers to the calls of one service. -/
def answers (service : UInt8) (es : List (Exchange Bios)) : List DiskReply :=
  es.filterMap fun
    | ⟨.disk r, reply⟩ => if r.service = service then some reply else none
    | _ => none

/-- The last answer to the question for the extensions. -/
def lastProbe? (es : List (Exchange Bios)) : Option DiskReply := (answers 0x41 es).getLast?

/-- The last answer to the question for the shape of the drive, other than a failure. -/
def lastShape? (es : List (Exchange Bios)) : Option DiskReply :=
  ((answers 0x08 es).filter fun reply => !reply.carry).getLast?

/-- A call is for the drive, and if it is a read, it is of the kind that the last probe allows. -/
structure Allowed (drive : UInt8) (past : List (Exchange Bios)) (r : Registers) : Prop where
  drive_eq : r.drive = drive
  extended : r.service = 0x42 → ∃ answer, lastProbe? past = some answer ∧ answer.OffersExtensions
  chs : r.service = 0x02 → ∃ answer, lastProbe? past = some answer ∧ ¬answer.OffersExtensions

/-- A read by cylinder, head and sector begins where a sector is in the shape reported last, which
has a head and a sector in each track at least. -/
def Located (past : List (Exchange Bios)) (r : Registers) : Prop :=
  r.service = 0x02 → ∃ answer shape, lastShape? past = some answer ∧ answer.Describes shape ∧
    ∃ lba count segment offset, r.Reads shape r.drive lba count segment offset

/-- All calls of the disk service are as `P` has them. -/
def diskRule (P : List (Exchange Bios) → Registers → Prop) : Rule Bios
  | past, .disk r => P past r
  | _, _ => True

/-- What a reader has to keep to. -/
def readerRule (drive : UInt8) : Rule Bios :=
  diskRule fun past r => Allowed drive past r ∧ Located past r

section Rules

variable {drive : UInt8} {past : List (Exchange Bios)} {r : Registers}

theorem Allowed.of_service (hd : r.drive = drive) (h42 : r.service ≠ 0x42)
    (h02 : r.service ≠ 0x02) : Allowed drive past r :=
  ⟨hd, fun h => absurd h h42, fun h => absurd h h02⟩

theorem readerRule_of_service (hd : r.drive = drive) (h42 : r.service ≠ 0x42)
    (h02 : r.service ≠ 0x02) : readerRule drive past (.disk r) :=
  ⟨.of_service hd h42 h02, fun h => absurd h h02⟩

/-- An extended read is allowed once the extensions were offered. -/
theorem Allowed.of_offered (hd : r.drive = drive) (hs : r.service = 0x42) {answer : DiskReply}
    (h : lastProbe? past = some answer) (ho : answer.OffersExtensions) : Allowed drive past r :=
  ⟨hd, fun _ => ⟨answer, h, ho⟩, fun h02 => absurd (hs.symm.trans h02) (by decide)⟩

/-- A read by cylinder, head and sector is allowed once they were not. -/
theorem Allowed.of_not_offered (hd : r.drive = drive) (hs : r.service = 0x02) {answer : DiskReply}
    (h : lastProbe? past = some answer) (ho : ¬answer.OffersExtensions) : Allowed drive past r :=
  ⟨hd, fun h42 => absurd (hs.symm.trans h42) (by decide), fun _ => ⟨answer, h, ho⟩⟩

end Rules

theorem service_probe : highByte 0x4100 = 0x41 := by decide

theorem service_shape : highByte 0x0800 = 0x08 := by decide

theorem service_readExtended : highByte 0x4200 = 0x42 := by decide

section Answers

variable {past : List (Exchange Bios)} {r : Registers} {reply : DiskReply} {service : UInt8}

theorem answers_append_of_eq (h : r.service = service) :
    answers service (past ++ [⟨.disk r, reply⟩]) = answers service past ++ [reply] := by
  simp [answers, h]

theorem answers_append_of_ne (h : r.service ≠ service) :
    answers service (past ++ [⟨.disk r, reply⟩]) = answers service past := by
  simp [answers, h]

theorem answers_append_of_not_isDisk {e : Exchange Bios} (h : ¬e.1.IsDisk) :
    answers service (past ++ [e]) = answers service past := by
  obtain ⟨q, reply⟩ := e
  cases q with
  | disk r => exact absurd trivial h
  | _ => simp [answers]

theorem lastShape?_append_of_eq (h : r.service = 0x08) (hc : reply.carry = false) :
    lastShape? (past ++ [⟨.disk r, reply⟩]) = some reply := by
  simp [lastShape?, answers_append_of_eq h, hc]

theorem lastProbe?_append_of_eq (h : r.service = 0x41) :
    lastProbe? (past ++ [⟨.disk r, reply⟩]) = some reply := by
  simp [lastProbe?, answers_append_of_eq h]

end Answers

section Calls

variable {rule : Rule Bios} {past : List (Exchange Bios)} {drive : UInt8}
variable {P : List (Exchange Bios) → Registers → Prop} {α : Type}

theorem observes_of_offDisk {p : Program Bios α} (hp : OffDisk p) :
    p.Observes (diskRule P) past fun now _ =>
      ∀ service, answers service now = answers service past := by
  refine Only.observes hp (fun now q hq hnow => ⟨?_, fun r service => ?_⟩) fun _ => rfl
  · cases q with
    | disk r => exact absurd trivial hq
    | _ => trivial
  · rw [answers_append_of_not_isDisk hq, hnow]

/-- The probe finds out what the last answer to it says. -/
theorem observes_probeExtensions
    (h : rule past (.disk { ax := 0x4100, bx := 0x55AA, dx := drive.toUInt16 })) :
    (probeExtensions drive).Observes rule past fun now found =>
      ∃ answer, lastProbe? now = some answer ∧ (found = true ↔ answer.OffersExtensions) := by
  refine observes_request.2 ⟨h, fun reply => observes_done.2 ⟨reply, ?_, ?_⟩⟩
  · exact lastProbe?_append_of_eq service_probe
  · simp [DiskReply.OffersExtensions, and_assoc]

theorem observes_askGeometry {known : Geometry}
    (h : rule past (.disk { ax := 0x0800, dx := drive.toUInt16 })) :
    (askGeometry drive known).Observes rule past fun now x =>
      answers 0x41 now = answers 0x41 past ∧ (x.1 = true → ∃ answer shape,
        lastShape? now = some answer ∧ answer.Describes shape ∧ x.2.Is shape) := by
  refine observes_request.2 ⟨h, fun reply => ?_⟩
  have hprobe : answers 0x41 (past ++ [⟨.disk { ax := 0x0800, dx := drive.toUInt16 }, reply⟩]) =
      answers 0x41 past := answers_append_of_ne (service_shape.trans_ne (by decide))
  cases hc : reply.carry with
  | true => exact observes_done.2 ⟨hprobe, by simp⟩
  | false =>
    refine observes_done.2 ⟨hprobe, fun hs => ?_⟩
    obtain ⟨shape, hshape⟩ := DiskReply.exists_describes hc (bne_iff_ne.1 hs)
    refine ⟨reply, shape, lastShape?_append_of_eq service_shape hc, hshape, ?_⟩
    rw [hshape.geometry_eq]
    exact shape.is_geometry

theorem observes_readExtended {packet : AddressPacket}
    (h : rule past (.disk { ax := 0x4200, dx := drive.toUInt16, packet := some packet })) :
    (readExtended drive packet).Observes rule past fun now _ =>
      answers 0x41 now = answers 0x41 past ∧ answers 0x08 now = answers 0x08 past := by
  refine observes_request.2 ⟨h, fun reply => observes_done.2 ⟨?_, ?_⟩⟩
  · exact answers_append_of_ne (service_readExtended.trans_ne (by decide))
  · exact answers_append_of_ne (service_readExtended.trans_ne (by decide))

theorem observes_readChs {place : ChsAddress} {count : UInt8} {segment offset : UInt16}
    (h : rule past (.disk (chsRegisters drive place count segment offset))) :
    (readChs drive place count segment offset).Observes rule past fun now _ =>
      answers 0x41 now = answers 0x41 past ∧ answers 0x08 now = answers 0x08 past := by
  refine observes_request.2 ⟨h, fun reply => observes_done.2 ⟨?_, ?_⟩⟩
  · exact answers_append_of_ne (service_chsRegisters.trans_ne (by decide))
  · exact answers_append_of_ne (service_chsRegisters.trans_ne (by decide))

end Calls

namespace Reader

/-- What a reader is asked to do. -/
inductive Task where
  | init
  | read (lba count target : UInt32)

/-- A reader is used.  It is asked to read only if it found out how when it was asked last. -/
def serve : (usable : Bool) → Reader → List Task → Program Bios (Bool × Reader)
  | usable, r, [] => return (usable, r)
  | _, r, .init :: rest => do
    let (usable, r) ← r.init
    serve usable r rest
  | false, r, .read .. :: rest => serve false r rest
  | true, r, .read lba count target :: rest => do
    let _ ← r.read lba count target
    serve true r rest

/-- What a reader knows of the drive agrees with the last answers. -/
structure Informed (r : Reader) (past : List (Exchange Bios)) : Prop where
  probe : ∃ answer, lastProbe? past = some answer ∧ (r.extended = true ↔ answer.OffersExtensions)
  shape : r.extended = false → ∃ answer shape, lastShape? past = some answer ∧
    answer.Describes shape ∧ r.geometry.Is shape

variable {r : Reader} {past now : List (Exchange Bios)}

theorem Informed.congr (hi : r.Informed past) (h41 : answers 0x41 now = answers 0x41 past)
    (h08 : answers 0x08 now = answers 0x08 past) : r.Informed now := by
  obtain ⟨hprobe, hshape⟩ := hi
  unfold lastProbe? at hprobe
  unfold lastShape? at hshape
  rw [← h41] at hprobe
  rw [← h08] at hshape
  exact ⟨hprobe, hshape⟩

theorem observes_init (r : Reader) (past : List (Exchange Bios)) :
    r.init.Observes (readerRule r.drive) past fun now x =>
      x.2.drive = r.drive ∧ (x.1 = true → x.2.Informed now) := by
  have hdrive := lowByte_toUInt16 r.drive
  refine (observes_probeExtensions ?_).bind ?_
  · exact readerRule_of_service hdrive (service_probe.trans_ne (by decide))
      (service_probe.trans_ne (by decide))
  rintro now found ⟨probe, hlast, hfound⟩
  cases found with
  | true => exact observes_done.2 ⟨rfl, fun _ => ⟨⟨probe, hlast, by simpa using hfound⟩, by simp⟩⟩
  | false =>
    refine (observes_askGeometry ?_).bind ?_
    · exact readerRule_of_service hdrive (service_shape.trans_ne (by decide))
        (service_shape.trans_ne (by decide))
    rintro now' ⟨ok, geometry⟩ ⟨h41, hshape⟩
    refine observes_done.2
      ⟨rfl, fun hok => ⟨⟨probe, ?_, by simpa using hfound⟩, fun _ => hshape hok⟩⟩
    unfold lastProbe? at hlast ⊢
    rwa [h41]

/-- By induction on the requests that are allowed: a read asks for neither extensions nor shape. -/
theorem observes_readWithin : ∀ (requests : Nat) (t : Transfer) (past : List (Exchange Bios)),
    r.Informed past → (r.readWithin requests t).Observes (readerRule r.drive) past fun now _ =>
      r.Informed now
  | 0, _, _, hi => observes_done.2 hi
  | requests + 1, t, past, hi => by
    obtain ⟨answer, hlast, hextended⟩ := hi.probe
    have hnext : ∀ (t' : Transfer) (now : List (Exchange Bios)) (ok : Bool),
        answers 0x41 now = answers 0x41 past ∧ answers 0x08 now = answers 0x08 past →
          Program.Observes (readerRule r.drive)
            (if ok = true then r.readWithin requests t' else pure false) now fun now _ =>
              r.Informed now := by
      rintro t' now ok ⟨h41, h08⟩
      have hi' := hi.congr h41 h08
      cases ok with
      | true => exact observes_readWithin requests t' now hi'
      | false => exact observes_done.2 hi'
    unfold readWithin
    split
    · exact observes_done.2 hi
    by_cases he : r.extended = true
    · rw [if_pos he]
      refine (observes_readExtended ⟨?_, fun h => ?_⟩).bind (hnext _)
      · exact .of_offered (lowByte_toUInt16 r.drive) service_readExtended hlast (hextended.1 he)
      · exact absurd (service_readExtended.symm.trans h) (by decide)
    · rw [if_neg he]
      dsimp only
      split
      · exact observes_done.2 hi
      rename_i hcylinder
      obtain ⟨answer, shape, hshape, hdescribes, hg⟩ := hi.shape (by simpa using he)
      refine (observes_readChs ⟨?_, fun _ => ?_⟩).bind (hnext _)
      · exact .of_not_offered drive_chsRegisters service_chsRegisters hlast
          fun ho => he (hextended.2 ho)
      · rw [hg.eq_geometry, UInt16.not_le, UInt16.lt_iff_toNat_lt, shape.toNat_cylinders,
          (shape.toNat_locate t.lba).1, shape.lt_capacity_iff] at hcylinder
        rw [drive_chsRegisters, hg.eq_geometry]
        exact ⟨answer, shape, hshape, hdescribes, _, _, _, _, reads_chsRegisters hcylinder _ _ _⟩

theorem observes_serve {drive : UInt8} : ∀ (tasks : List Task) (usable : Bool) (r : Reader)
    (past : List (Exchange Bios)), r.drive = drive → (usable = true → r.Informed past) →
      (serve usable r tasks).Observes (readerRule drive) past fun now x =>
        x.2.drive = drive ∧ (x.1 = true → x.2.Informed now)
  | [], _, _, _, hd, hi => observes_done.2 ⟨hd, hi⟩
  | .init :: rest, _, r, past, hd, _ => by
    subst hd
    refine (observes_init r past).bind ?_
    rintro now ⟨usable, r'⟩ ⟨hd, hi⟩
    exact observes_serve rest usable r' now hd hi
  | .read .. :: rest, false, r, past, hd, hi => observes_serve rest false r past hd hi
  | .read lba count target :: rest, true, r, past, hd, hi => by
    subst hd
    refine (observes_readWithin _ _ past (hi rfl)).bind ?_
    rintro now _ hi'
    exact observes_serve rest true r now rfl fun _ => hi'

end Reader

section Stages

variable {drive : UInt8} {past : List (Exchange Bios)}

theorem observes_readStage2 (config : BuildConfig) :
    (readStage2 config drive).Observes (diskRule (Allowed drive)) past fun _ _ => True := by
  refine (observes_probeExtensions ?_).bind ?_
  · exact .of_service (lowByte_toUInt16 drive) (service_probe.trans_ne (by decide))
      (service_probe.trans_ne (by decide))
  rintro now found ⟨answer, hlast, hfound⟩
  cases found with
  | true =>
    rw [if_pos rfl]
    refine (observes_readExtended ?_).mono fun _ _ _ => trivial
    exact .of_offered (lowByte_toUInt16 drive) service_readExtended hlast (hfound.1 rfl)
  | false =>
    rw [if_neg (by simp)]
    refine (observes_of_offDisk (offDisk_print _)).bind ?_
    rintro now' _ hsame
    refine (observes_readChs ?_).mono fun _ _ _ => trivial
    refine .of_not_offered drive_chsRegisters service_chsRegisters ?_ (by simpa using hfound)
    unfold lastProbe? at hlast ⊢
    rwa [hsame]

theorem observes_stage1 (config : BuildConfig) :
    (stage1 config drive).Observes (diskRule (Allowed drive)) past fun _ _ => True := by
  refine (observes_of_offDisk (offDisk_print _)).bind fun _ _ _ => ?_
  refine (observes_readStage2 config).bind fun _ ok _ => ?_
  cases ok with
  | true => exact observes_done.2 trivial
  | false =>
    rw [if_neg (by simp)]
    exact (observes_of_offDisk (offDisk_print _)).bind fun _ _ _ => observes_done.2 trivial

theorem offDisk_reportFailure (message : String) : OffDisk (reportFailure message) :=
  (offDisk_print message).bind fun _ => offDisk_print _

theorem offDisk_enterProtectedMode (shared : Shared) (target : UInt32) :
    OffDisk (enterProtectedMode shared target) :=
  ⟨id, fun _ => ⟨id, fun _ => trivial⟩⟩

theorem observes_loadCore (config : BuildConfig) {shared : Shared} (hd : shared.bootDrive = drive)
    (target : UInt32) :
    (loadCore config shared target).Observes (readerRule drive) past fun _ _ => True := by
  subst hd
  refine (observes_of_offDisk (offDisk_print _)).bind fun now _ _ => ?_
  refine (Reader.observes_init { drive := shared.bootDrive } now).bind ?_
  rintro now' ⟨usable, reader⟩ ⟨hdrive, hi⟩
  dsimp only
  cases usable with
  | false =>
    rw [if_neg (by simp)]
    exact (observes_of_offDisk (offDisk_reportFailure _)).bind fun _ _ _ => observes_done.2 trivial
  | true =>
    rw [if_pos rfl, ← show reader.drive = shared.bootDrive from hdrive]
    refine (Reader.observes_readWithin _ _ now' (hi rfl)).bind fun _ ok _ => ?_
    cases ok with
    | true =>
      rw [if_pos rfl]
      refine (observes_of_offDisk (offDisk_print _)).bind fun _ _ _ => ?_
      exact (observes_of_offDisk (offDisk_enterProtectedMode _ _)).mono fun _ _ _ => trivial
    | false =>
      rw [if_neg (by simp)]
      exact (observes_of_offDisk (offDisk_reportFailure _)).bind fun _ _ _ =>
        observes_done.2 trivial

theorem observes_stage2 (config : BuildConfig) (target : UInt32) :
    (stage2 config drive target).Observes (readerRule drive) past fun _ _ => True := by
  refine (observes_of_offDisk (offDisk_print _)).bind fun _ _ _ => ?_
  refine (observes_of_offDisk A20.offDisk_enable).bind fun _ method _ => ?_
  by_cases hm : method = .failed
  · rw [if_pos hm]
    exact (observes_of_offDisk (offDisk_reportFailure _)).bind fun _ _ _ => observes_done.2 trivial
  · rw [if_neg hm]
    have hd : ({ bootDrive := drive } : Shared).bootDrive = drive := rfl
    refine (observes_of_offDisk (offDisk_print _)).bind fun _ _ _ => ?_
    exact observes_loadCore config hd target

end Stages

/-- Neither of the first two stages, nor a reader that is used in any way, makes a call of the disk
service that is not for its drive, or a read that the last probe does not allow; a reader that may
be used is always informed by the last answers. -/
theorem probed_of_runs (config : BuildConfig) (drive : UInt8) :
    (∀ es o, Runs (stage1 config drive) es o → (diskRule (Allowed drive)).KeptBy es) ∧
      (∀ target es o, Runs (stage2 config drive target) es o → (readerRule drive).KeptBy es) ∧
      ∀ tasks es o, Runs (Reader.serve false { drive } tasks) es o →
        (readerRule drive).KeptBy es ∧ ∃ usable r, o = some (usable, r) ∧
          (usable = true → r.Informed es) := by
  refine ⟨fun es o h => ?_, fun target es o h => ?_, fun tasks es o h => ?_⟩
  · exact ((observes_stage1 config).of_runs h).1
  · exact ((observes_stage2 config target).of_runs h).1
  · obtain ⟨hkept, ⟨usable, r⟩, rfl, -, hi⟩ :=
      (Reader.observes_serve tasks false { drive } [] rfl (by simp)).of_runs h
    exact ⟨hkept, usable, r, rfl, hi⟩

/-- A BIOS that offers the extensions only the first time. -/
def fickleBios : (q : Bios.Call) → (asked : Bool) → q.Reply × Bool
  | .disk r, asked =>
    if r.service = 0x41 then ({ bx := 0xAA55, cx := 1, carry := asked }, true)
    else if r.service = 0x08 then ({ cx := 0x4F12, dx := 0x0100, carry := false }, asked)
    else ({ carry := false }, asked)
  | .teletype _, asked => ((), asked)
  | .readPort _, asked => (0, asked)
  | .writePort .., asked => ((), asked)
  | .delay, asked => ((), asked)
  | .wrapTest, asked => (true, asked)
  | .codeSegment, asked => (0, asked)
  | .tableOffset, asked => (0, asked)

/-- A reader that reads one way, and after a second look at the drive the other way. -/
theorem probed_fickle : ∃ es r,
    Runs (Reader.serve false { drive := 0 } [.init, .read 5 40 0x10000, .init, .read 5 40 0x10000])
      es (some (true, r)) ∧ (answers 0x42 es).length = 1 ∧ (answers 0x02 es).length = 3 ∧
        (readerRule 0).KeptBy es ∧ r.Informed es := by
  have hr := runs_exchanges fickleBios
    (Reader.serve false { drive := 0 } [.init, .read 5 40 0x10000, .init, .read 5 40 0x10000]) false
  have ho : ((Reader.serve false { drive := 0 }
      [.init, .read 5 40 0x10000, .init, .read 5 40 0x10000]).run fickleBios false).1 =
        some (true, floppyReader) := by decide +kernel
  rw [ho] at hr
  obtain ⟨-, -, hserve⟩ := probed_of_runs .default 0
  obtain ⟨hkept, usable, r, hsome, hi⟩ := hserve _ _ _ hr
  cases hsome
  exact ⟨_, _, hr, by decide +kernel, by decide +kernel, hkept, hi rfl⟩

end Bootloader.Legacy
