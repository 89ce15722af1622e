import Bootloader.Proofs.FileSystem
import Bootloader.Proofs.ImageBounds

/-!
# What the image tool does to files

A run of the tool is one of a few kinds (`ToolRun`): it reads its inputs, and goes on to write only
when an image of them was made.  So a run that fails before that has changed no file, and one that
comes to 0 has left the image of what its inputs were before it, even where the image was written
over one of them.  `atomic_run` shows this on any file system, whatever fails in it.
-/

namespace Bootloader

open Program

namespace ImageTool

variable {α : Type} {es : List (Exchange Files)} {name bootSector stage2 core image tool : String}
variable {arguments : List String}

/-- The parts of an image, read one after the other. -/
def partsRead (bootSector stage2 core : String) (bootBytes stage2Bytes coreBytes : List UInt8) :
    List (Exchange Files) :=
  [⟨.read core, .ok coreBytes⟩, ⟨.read stage2, .ok stage2Bytes⟩, ⟨.read bootSector, .ok bootBytes⟩]

/-- The parts could be read, and an image was made of them. -/
structure Accepted (bootSector stage2 core : String) (es : List (Exchange Files))
    (bootBytes stage2Bytes coreBytes : List UInt8) (disk : Buffer) : Prop where
  read : partsRead bootSector stage2 core bootBytes stage2Bytes coreBytes <+: es
  assembled : DiskImage.assemble bootBytes stage2Bytes coreBytes .default = .ok disk

inductive CheckRun (name : String) (check : List UInt8 → Except ImageError Unit) :
    List (Exchange Files) → Except ToolError Unit → Prop where
  | unread (failure : ReadFailure) :
    CheckRun name check [⟨.read name, .error failure⟩] (.error (.read name failure))
  | read (bytes : List UInt8) :
    CheckRun name check [⟨.read name, .ok bytes⟩] ((check bytes).mapError .image)

inductive MakeRun (bootSector stage2 core image : String) :
    List (Exchange Files) → Except ToolError Unit → Prop where
  | unread (before : List (Exchange Files)) (name : String) (failure : ReadFailure)
      (h : ∀ e ∈ before, e.1.written? = none) :
    MakeRun bootSector stage2 core image (before ++ [⟨.read name, .error failure⟩])
      (.error (.read name failure))
  | refused {bootBytes stage2Bytes coreBytes : List UInt8} {error : ImageError}
      (h : DiskImage.assemble bootBytes stage2Bytes coreBytes .default = .error error) :
    MakeRun bootSector stage2 core image
      (partsRead bootSector stage2 core bootBytes stage2Bytes coreBytes) (.error (.image error))
  | unwritten {bootBytes stage2Bytes coreBytes : List UInt8} {disk : Buffer}
      (failure : WriteFailure)
      (h : DiskImage.assemble bootBytes stage2Bytes coreBytes .default = .ok disk) :
    MakeRun bootSector stage2 core image
      (partsRead bootSector stage2 core bootBytes stage2Bytes coreBytes ++
        [⟨.write image disk, .error failure⟩]) (.error (.write image failure))
  | made {bootBytes stage2Bytes coreBytes : List UInt8} {disk : Buffer}
      (h : DiskImage.assemble bootBytes stage2Bytes coreBytes .default = .ok disk) :
    MakeRun bootSector stage2 core image
      (partsRead bootSector stage2 core bootBytes stage2Bytes coreBytes ++
        [⟨.write image disk, .ok ()⟩, ⟨.printOut (summary image .default disk), ()⟩]) (.ok ())

def FormRun : Form → List (Exchange Files) → Except ToolError Unit → Prop
  | .checkBootSector name => CheckRun name DiskImage.checkBootSector
  | .checkStage2 name =>
    CheckRun name (DiskImage.checkFits · DiskLayout.default.stage2Sectors "stage 2")
  | .make bootSector stage2 core image => MakeRun bootSector stage2 core image

def Form.words : Form → List String
  | .checkBootSector name => ["--check-bootsect", name]
  | .checkStage2 name => ["--check-stage2", name]
  | .make bootSector stage2 core image => [bootSector, stage2, core, image]

/-- What the user is told of an error. -/
def report (tool : String) (e : ToolError) : Exchange Files :=
  ⟨.printError (tool ++ ": " ++ e.message ++ "\n"), ()⟩

/-- The runs of the tool, and the status of each. -/
inductive ToolRun (tool : String) (arguments : List String) :
    List (Exchange Files) → Nat → Prop where
  | usage (h : Form.parse? arguments = none) :
    ToolRun tool arguments [⟨.printError (usage tool), ()⟩] 2
  | done {form : Form} {es : List (Exchange Files)} (h : Form.parse? arguments = some form)
      (run : FormRun form es (.ok ())) : ToolRun tool arguments es 0
  | failed {form : Form} {es : List (Exchange Files)} {e : ToolError}
      (h : Form.parse? arguments = some form) (run : FormRun form es (.error e)) :
    ToolRun tool arguments (es ++ [report tool e]) 1

section Steps

theorem runs_read_bind {f : List UInt8 → Step α} {o : Option (Except ToolError α)}
    (h : Runs (read name >>= f).run es o) :
    (∃ failure, es = [⟨.read name, .error failure⟩] ∧ o = some (.error (.read name failure))) ∨
      ∃ bytes es', es = ⟨.read name, .ok bytes⟩ :: es' ∧ Runs (f bytes).run es' o := by
  obtain ⟨r, es', rfl, h'⟩ := runs_ask_iff.1 h
  rcases r with failure | bytes
  · obtain ⟨rfl, rfl⟩ := runs_done_iff.1 h'
    exact .inl ⟨failure, rfl, rfl⟩
  · exact .inr ⟨bytes, es', rfl, h'⟩

theorem runs_write_bind {content : Buffer} {f : Unit → Step α} {o : Option (Except ToolError α)}
    (h : Runs (write name content >>= f).run es o) :
    (∃ failure, es = [⟨.write name content, .error failure⟩] ∧
        o = some (.error (.write name failure))) ∨
      ∃ es', es = ⟨.write name content, .ok ()⟩ :: es' ∧ Runs (f ()).run es' o := by
  obtain ⟨r, es', rfl, h'⟩ := runs_ask_iff.1 h
  rcases r with failure | ⟨⟩
  · obtain ⟨rfl, rfl⟩ := runs_done_iff.1 h'
    exact .inl ⟨failure, rfl, rfl⟩
  · exact .inr ⟨es', rfl, h'⟩

theorem checkRun_of_runs {check : List UInt8 → Except ImageError Unit}
    {o : Option (Except ToolError Unit)}
    (h : Runs (read name >>= fun bytes => accept (check bytes)).run es o) :
    ∃ x, o = some x ∧ CheckRun name check es x := by
  rcases runs_read_bind h with ⟨failure, rfl, rfl⟩ | ⟨bytes, es', rfl, h'⟩
  · exact ⟨_, rfl, .unread failure⟩
  · obtain ⟨rfl, rfl⟩ := runs_done_iff.1 h'
    exact ⟨_, rfl, .read bytes⟩

theorem makeRun_of_runs {o : Option (Except ToolError Unit)}
    (h : Runs (make .default bootSector stage2 core image).run es o) :
    ∃ x, o = some x ∧ MakeRun bootSector stage2 core image es x := by
  rcases runs_read_bind h with ⟨failure, rfl, rfl⟩ | ⟨coreBytes, es₁, rfl, h₁⟩
  · exact ⟨_, rfl, .unread [] _ failure (by simp)⟩
  rcases runs_read_bind h₁ with ⟨failure, rfl, rfl⟩ | ⟨stage2Bytes, es₂, rfl, h₂⟩
  · exact ⟨_, rfl, .unread [_] _ failure (by simp [Files.Call.written?])⟩
  rcases runs_read_bind h₂ with ⟨failure, rfl, rfl⟩ | ⟨bootBytes, es₃, rfl, h₃⟩
  · exact ⟨_, rfl, .unread [_, _] _ failure (by simp [Files.Call.written?])⟩
  rcases hdisk : DiskImage.assemble bootBytes stage2Bytes coreBytes .default with error | disk
  · rw [hdisk] at h₃
    obtain ⟨rfl, rfl⟩ := runs_done_iff.1 h₃
    exact ⟨_, rfl, .refused hdisk⟩
  · rw [hdisk] at h₃
    rcases runs_write_bind h₃ with ⟨failure, rfl, rfl⟩ | ⟨es₄, rfl, h₄⟩
    · exact ⟨_, rfl, .unwritten failure hdisk⟩
    · obtain ⟨_, es₅, rfl, h₅⟩ := runs_ask_iff.1 h₄
      obtain ⟨rfl, rfl⟩ := runs_done_iff.1 h₅
      exact ⟨_, rfl, .made hdisk⟩

theorem formRun_of_runs {form : Form} {o : Option (Except ToolError Unit)}
    (h : Runs (form.step .default).run es o) : ∃ x, o = some x ∧ FormRun form es x := by
  cases form with
  | checkBootSector name => exact checkRun_of_runs h
  | checkStage2 name => exact checkRun_of_runs h
  | make bootSector stage2 core image => exact makeRun_of_runs h

theorem toolRun_of_runs {o : Option Nat} (h : Runs (run tool arguments) es o) :
    ∃ status, o = some status ∧ ToolRun tool arguments es status := by
  unfold run at h
  split at h
  · rename_i form hform
    rcases runs_bind_iff.1 h with ⟨h₁, -⟩ | ⟨x, es₁, es₂, rfl, h₁, h₂⟩
    · obtain ⟨_, hx, -⟩ := formRun_of_runs h₁
      cases hx
    obtain ⟨_, hx, hrun⟩ := formRun_of_runs h₁
    cases hx
    rcases x with e | ⟨⟩
    · obtain ⟨_, es₃, rfl, h₃⟩ := runs_ask_iff.1 h₂
      obtain ⟨rfl, rfl⟩ := runs_done_iff.1 h₃
      exact ⟨1, rfl, .failed hform hrun⟩
    · obtain ⟨rfl, rfl⟩ := runs_done_iff.1 h₂
      rw [List.append_nil]
      exact ⟨0, rfl, .done hform hrun⟩
  · obtain ⟨_, es', rfl, h'⟩ := runs_ask_iff.1 h
    obtain ⟨rfl, rfl⟩ := runs_done_iff.1 h'
    exact ⟨2, rfl, .usage ‹_›⟩

end Steps

theorem parse?_words (form : Form) : Form.parse? form.words = some form := by
  cases form <;> simp [Form.words, Form.parse?]

theorem words_of_parse? {form : Form} (h : Form.parse? arguments = some form) :
    arguments = form.words := by
  unfold Form.parse? at h
  split at h
  · split_ifs at h with h₁ h₂
    · cases h
      rw [h₁, Form.words]
    · cases h
      rw [h₂, Form.words]
  · cases h
    rfl
  · cases h

theorem parse?_eq_none_iff :
    Form.parse? arguments = none ↔ ∀ form : Form, arguments ≠ form.words := by
  constructor
  · rintro h form rfl
    rw [parse?_words] at h
    cases h
  · intro h
    rcases hparse : Form.parse? arguments with _ | form
    · rfl
    · exact absurd (words_of_parse? hparse) (h form)

section Runs

variable {form : Form} {status : Nat} {x : Except ToolError Unit}

/-- A command line that has a form is carried out, and an error in that is reported. -/
theorem ToolRun.of_words (form : Form) (h : ToolRun tool form.words es status) :
    (status = 0 ∧ FormRun form es (.ok ())) ∨
      ∃ e es', status = 1 ∧ es = es' ++ [report tool e] ∧ FormRun form es' (.error e) := by
  generalize hwords : form.words = arguments at h
  cases h with
  | usage h => exact absurd hwords.symm (parse?_eq_none_iff.1 h form)
  | done h run =>
    rw [← hwords, parse?_words] at h
    cases h
    exact .inl ⟨rfl, run⟩
  | failed h run =>
    rw [← hwords, parse?_words] at h
    cases h
    exact .inr ⟨_, _, rfl, rfl, run⟩

theorem written?_of_mem_partsRead {bootBytes stage2Bytes coreBytes : List UInt8} :
    ∀ e ∈ partsRead bootSector stage2 core bootBytes stage2Bytes coreBytes,
      e.1.written? = none := by
  simp [partsRead, Files.Call.written?]

theorem CheckRun.written?_eq_none {check : List UInt8 → Except ImageError Unit}
    (h : CheckRun name check es x) : ∀ e ∈ es, e.1.written? = none := by
  cases h <;> simp [Files.Call.written?]

theorem CheckRun.of_ok {check : List UInt8 → Except ImageError Unit}
    (h : CheckRun name check es (.ok ())) :
    ∃ bytes, es = [⟨.read name, .ok bytes⟩] ∧ check bytes = .ok () := by
  generalize hx : Except.ok () = x at h
  cases h with
  | unread failure => cases hx
  | read bytes =>
    rcases hcheck : check bytes with error | ⟨⟩
    · rw [hcheck] at hx
      cases hx
    · exact ⟨bytes, rfl, hcheck⟩

theorem CheckRun.of_error {check : List UInt8 → Except ImageError Unit} {e : ToolError}
    (h : CheckRun name check es (.error e)) :
    ∃ r, es = [⟨.read name, r⟩] ∧ ∀ bytes, r = .ok bytes → check bytes ≠ .ok () := by
  generalize hx : Except.error e = x at h
  cases h with
  | unread failure => exact ⟨_, rfl, by simp⟩
  | read bytes =>
    refine ⟨_, rfl, ?_⟩
    rintro _ ⟨⟩ hcheck
    rw [hcheck] at hx
    cases hx

/-- Nothing is written but an image of parts that were accepted. -/
theorem MakeRun.of_written (h : MakeRun bootSector stage2 core image es x) {e : Exchange Files}
    (he : e ∈ es) (hname : e.1.written? = some name) :
    name = image ∧ ∃ bootBytes stage2Bytes coreBytes disk,
      Accepted bootSector stage2 core es bootBytes stage2Bytes coreBytes disk := by
  cases h with
  | unread before name' failure h =>
    rcases List.mem_append.1 he with he | he
    · simp [h e he] at hname
    · simp [List.mem_singleton.1 he, Files.Call.written?] at hname
  | refused h => simp [written?_of_mem_partsRead e he] at hname
  | unwritten failure h =>
    refine ⟨?_, _, _, _, _, List.prefix_append .., h⟩
    rcases List.mem_append.1 he with he | he
    · simp [written?_of_mem_partsRead e he] at hname
    · rw [List.mem_singleton.1 he] at hname
      exact (Option.some.inj hname).symm
  | made h =>
    refine ⟨?_, _, _, _, _, List.prefix_append .., h⟩
    rcases List.mem_append.1 he with he | he
    · simp [written?_of_mem_partsRead e he] at hname
    · rcases List.mem_cons.1 he with rfl | he
      · exact (Option.some.inj hname).symm
      · simp [List.mem_singleton.1 he, Files.Call.written?] at hname

theorem ToolRun.of_written (h : ToolRun tool arguments es status) {e : Exchange Files}
    (he : e ∈ es) (hname : e.1.written? = some name) :
    ∃ bootSector stage2 core bootBytes stage2Bytes coreBytes disk,
      arguments = [bootSector, stage2, core, name] ∧
        Accepted bootSector stage2 core es bootBytes stage2Bytes coreBytes disk := by
  have hform : ∃ form es' x, arguments = form.words ∧ es' <+: es ∧ FormRun form es' x ∧ e ∈ es' := by
    cases h with
    | usage h => simp [List.mem_singleton.1 he, Files.Call.written?] at hname
    | done h run => exact ⟨_, _, _, words_of_parse? h, List.prefix_rfl, run, he⟩
    | failed h run =>
      refine ⟨_, _, _, words_of_parse? h, List.prefix_append .., run, ?_⟩
      refine (List.mem_append.1 he).resolve_right fun he => ?_
      simp [List.mem_singleton.1 he, report, Files.Call.written?] at hname
  obtain ⟨form, es', x, rfl, hprefix, run, he⟩ := hform
  cases form with
  | checkBootSector name => simp [run.written?_eq_none e he] at hname
  | checkStage2 name => simp [run.written?_eq_none e he] at hname
  | make bootSector stage2 core image =>
    obtain ⟨rfl, bootBytes, stage2Bytes, coreBytes, disk, hread, hdisk⟩ := run.of_written he hname
    exact ⟨bootSector, stage2, core, bootBytes, stage2Bytes, coreBytes, disk, rfl,
      hread.trans hprefix, hdisk⟩

theorem MakeRun.of_ok (h : MakeRun bootSector stage2 core image es (.ok ())) :
    ∃ bootBytes stage2Bytes coreBytes disk,
      Accepted bootSector stage2 core es bootBytes stage2Bytes coreBytes disk ∧
        es = partsRead bootSector stage2 core bootBytes stage2Bytes coreBytes ++
          [⟨.write image disk, .ok ()⟩, ⟨.printOut (summary image .default disk), ()⟩] := by
  cases h with
  | made h => exact ⟨_, _, _, _, ⟨List.prefix_append .., h⟩, rfl⟩

theorem MakeRun.not_mem_of_error {e : ToolError} {disk : Buffer}
    (h : MakeRun bootSector stage2 core image es (.error e)) :
    (⟨.write image disk, .ok ()⟩ : Exchange Files) ∉ es := by
  cases h with
  | unread before name failure h =>
    intro hmem
    rcases List.mem_append.1 hmem with hmem | hmem
    · cases h _ hmem
    · cases List.mem_singleton.1 hmem
  | refused h =>
    intro hmem
    cases written?_of_mem_partsRead _ hmem
  | unwritten failure h =>
    intro hmem
    rcases List.mem_append.1 hmem with hmem | hmem
    · cases written?_of_mem_partsRead _ hmem
    · cases List.mem_singleton.1 hmem

end Runs

section Answered

variable {σ : Type} {answer : (q : Files.Call) → σ → q.Reply × σ} {s s' s₁ s₂ s₃ s₄ : σ}

theorem run_read_bind {bytes : List UInt8} (h : answer (.read name) s = (.ok bytes, s'))
    (f : List UInt8 → Step α) :
    (read name >>= f).run.run answer s = (f bytes).run.run answer s' := by
  change Program.run answer (Program.ask (I := Files) (.read name) _) s = _
  rw [run_ask, h]
  rfl

theorem run_write_bind {content : Buffer} (h : answer (.write name content) s = (.ok (), s'))
    (f : Unit → Step α) :
    (write name content >>= f).run.run answer s = (f ()).run.run answer s' := by
  change Program.run answer (Program.ask (I := Files) (.write name content) _) s = _
  rw [run_ask, h]
  rfl

/-- An image whose parts can be read and are accepted, and that can be written, is made. -/
theorem run_eq_zero_of_make {bootBytes stage2Bytes coreBytes : List UInt8} {disk : Buffer}
    (hcore : answer (.read core) s = (.ok coreBytes, s₁))
    (hstage2 : answer (.read stage2) s₁ = (.ok stage2Bytes, s₂))
    (hboot : answer (.read bootSector) s₂ = (.ok bootBytes, s₃))
    (hdisk : DiskImage.assemble bootBytes stage2Bytes coreBytes .default = .ok disk)
    (hwrite : answer (.write image disk) s₃ = (.ok (), s₄)) :
    ((run tool [bootSector, stage2, core, image]).run answer s).1 = some 0 := by
  have hmake : ∃ s₅, (make .default bootSector stage2 core image).run.run answer s =
      (some (.ok ()), s₅) := by
    rw [make, run_read_bind hcore, run_read_bind hstage2, run_read_bind hboot, hdisk]
    exact ⟨_, run_write_bind hwrite _⟩
  obtain ⟨s₅, hmake⟩ := hmake
  change (Program.run answer (finish tool (make .default bootSector stage2 core image)) s).1 = _
  rw [finish, run_bind_of_eq hmake]
  rfl

end Answered

section Files

variable {σ File : Type} (fs : FileSystem σ File)

/-- The bytes are those that the file had, if the name is that of a file. -/
def Held (s : σ) (name : String) (bytes : List UInt8) : Prop :=
  ∀ file, fs.fileOf name = some file → fs.content s file = some bytes

/-- A file can be read, and what it has passes a check. -/
def Passes (s : σ) (name : String) (check : List UInt8 → Except ImageError Unit) : Prop :=
  ∃ bytes, (fs.answer (.read name) s).1 = .ok bytes ∧ Held fs s name bytes ∧ check bytes = .ok ()

/-- The image is made of what the parts had. -/
def MadeOf (s : σ) (es : List (Exchange Files)) (bootSector stage2 core : String)
    (disk : Buffer) : Prop :=
  ∃ bootBytes stage2Bytes coreBytes,
    Accepted bootSector stage2 core es bootBytes stage2Bytes coreBytes disk ∧
      Held fs s bootSector bootBytes ∧ Held fs s stage2 stage2Bytes ∧ Held fs s core coreBytes

/-- What a run of the tool from `s` to `s'` does to files, and what its status says. -/
structure Atomic (tool : String) (arguments : List String) (s : σ) (es : List (Exchange Files))
    (status : Option Nat) (s' : σ) : Prop where
  changed : ∀ file, fs.content s' file ≠ fs.content s file →
    ∃ bootSector stage2 core image disk, arguments = [bootSector, stage2, core, image] ∧
      fs.fileOf image = some file ∧ MadeOf fs s es bootSector stage2 core disk
  made : ∀ bootSector stage2 core image, arguments = [bootSector, stage2, core, image] →
    (status = some 0 ↔ ∃ disk, MadeOf fs s es bootSector stage2 core disk ∧
      ⟨.write image disk, .ok ()⟩ ∈ es)
  image : ∀ bootSector stage2 core image, arguments = [bootSector, stage2, core, image] →
    status = some 0 → ∀ file, fs.fileOf image = some file →
      ∃ disk, MadeOf fs s es bootSector stage2 core disk ∧
        fs.content s' file = some disk.bytes.toList
  bootSector : ∀ name, arguments = ["--check-bootsect", name] →
    (status = some 0 ↔ Passes fs s name DiskImage.checkBootSector)
  stage2 : ∀ name, arguments = ["--check-stage2", name] →
    (status = some 0 ↔
      Passes fs s name (DiskImage.checkFits · DiskLayout.default.stage2Sectors "stage 2"))
  usage : status = some 2 ↔ ∀ form : Form, arguments ≠ form.words
  reported : status ≠ some 2 → (status = some 1 ↔ ∃ e : ToolError, report tool e ∈ es)
  ends : status = some 0 ∨ status = some 1 ∨ status = some 2

variable {fs} {p : Program Files α} {s : σ} {status : Nat}

theorem held_of_read (pre : List (Exchange Files)) {post : List (Exchange Files)}
    {bytes : List UInt8} (hes : p.exchanges fs.answer s = pre ++ ⟨.read name, .ok bytes⟩ :: post)
    (hpre : ∀ e ∈ pre, e.1.written? = none) : Held fs s name bytes :=
  fun _ hfile => FileSystem.content_of_read hes (FileSystem.spared_of_written? hpre) hfile

theorem Accepted.madeOf {bootBytes stage2Bytes coreBytes : List UInt8} {disk : Buffer}
    (h : Accepted bootSector stage2 core (p.exchanges fs.answer s) bootBytes stage2Bytes coreBytes
      disk) : MadeOf fs s (p.exchanges fs.answer s) bootSector stage2 core disk := by
  obtain ⟨rest, hes⟩ := h.read
  have hcore := held_of_read [] hes.symm (by simp)
  have hstage2 := held_of_read [⟨.read core, .ok coreBytes⟩] hes.symm
    (by simp [Files.Call.written?])
  have hboot := held_of_read [⟨.read core, .ok coreBytes⟩, ⟨.read stage2, .ok stage2Bytes⟩] hes.symm
    (by simp [Files.Call.written?])
  exact ⟨_, _, _, h, hboot, hstage2, hcore⟩

theorem status_eq_zero_iff_of_check (form : Form)
    {check : List UInt8 → Except ImageError Unit} (hform : FormRun form = CheckRun name check)
    (h : ToolRun tool form.words (p.exchanges fs.answer s) status) :
    status = 0 ↔ Passes fs s name check := by
  have hreply {r : Except ReadFailure (List UInt8)} {post : List (Exchange Files)}
      (hes : p.exchanges fs.answer s = ⟨.read name, r⟩ :: post) :
      (fs.answer (.read name) s).1 = r := by
    rw [← List.nil_append (_ :: post)] at hes
    exact (reply_of_exchanges (I := Files) fs.answer hes).symm
  rcases ToolRun.of_words form h with ⟨rfl, hrun⟩ | ⟨e, es', rfl, hes, hrun⟩
  · rw [hform] at hrun
    obtain ⟨bytes, hes, hcheck⟩ := hrun.of_ok
    exact iff_of_true rfl ⟨bytes, hreply hes, held_of_read [] hes (by simp), hcheck⟩
  · rw [hform] at hrun
    obtain ⟨r, rfl, hrefused⟩ := hrun.of_error
    refine iff_of_false (by simp) ?_
    rintro ⟨bytes, hbytes, -, hcheck⟩
    exact hrefused bytes ((hreply hes).symm.trans hbytes) hcheck

theorem status_eq_zero_iff_of_make
    (h : ToolRun tool [bootSector, stage2, core, image] (p.exchanges fs.answer s) status) :
    status = 0 ↔ ∃ disk, MadeOf fs s (p.exchanges fs.answer s) bootSector stage2 core disk ∧
      ⟨.write image disk, .ok ()⟩ ∈ p.exchanges fs.answer s := by
  rcases ToolRun.of_words (.make bootSector stage2 core image) h with
    ⟨rfl, hrun⟩ | ⟨e, es', rfl, hes, hrun⟩
  · obtain ⟨_, _, _, disk, haccepted, hes⟩ := MakeRun.of_ok hrun
    exact iff_of_true rfl ⟨disk, haccepted.madeOf, by simp [hes]⟩
  · refine iff_of_false (by simp) ?_
    rintro ⟨disk, -, hmem⟩
    rw [hes] at hmem
    rcases List.mem_append.1 hmem with hmem | hmem
    · exact MakeRun.not_mem_of_error hrun hmem
    · cases List.mem_singleton.1 hmem

/-- An image that was made is what its file has at the end. -/
theorem content_image
    (h : ToolRun tool [bootSector, stage2, core, image] (p.exchanges fs.answer s) 0) {file : File}
    (hfile : fs.fileOf image = some file) :
    ∃ disk, MadeOf fs s (p.exchanges fs.answer s) bootSector stage2 core disk ∧
      fs.content (p.run fs.answer s).2 file = some disk.bytes.toList := by
  rcases ToolRun.of_words (.make bootSector stage2 core image) h with
    ⟨-, hrun⟩ | ⟨e, es', h, -⟩
  · obtain ⟨_, _, _, disk, haccepted, hes⟩ := MakeRun.of_ok hrun
    refine ⟨disk, haccepted.madeOf, FileSystem.content_of_written hes ?_ hfile⟩
    exact FileSystem.spared_of_written? (by simp [Files.Call.written?])
  · cases h

/-- A file that has changed was written to, as the image of parts that were accepted. -/
theorem changed_of_toolRun (h : ToolRun tool arguments (p.exchanges fs.answer s) status)
    {file : File} (hne : fs.content (p.run fs.answer s).2 file ≠ fs.content s file) :
    ∃ bootSector stage2 core image disk, arguments = [bootSector, stage2, core, image] ∧
      fs.fileOf image = some file ∧
        MadeOf fs s (p.exchanges fs.answer s) bootSector stage2 core disk := by
  have hwritten : ∃ e ∈ p.exchanges fs.answer s, e.1.written?.bind fs.fileOf = some file := by
    by_contra hno
    exact hne (FileSystem.content_eq_of_exchanges fun e he hfile => hno ⟨e, he, hfile⟩)
  obtain ⟨e, he, hfile⟩ := hwritten
  obtain ⟨image, hname, hfile⟩ := Option.bind_eq_some_iff.1 hfile
  obtain ⟨bootSector, stage2, core, _, _, _, disk, harguments, haccepted⟩ := h.of_written he hname
  exact ⟨bootSector, stage2, core, image, disk, harguments, hfile, haccepted.madeOf⟩

theorem ToolRun.status_eq (h : ToolRun tool arguments es status) :
    status = 0 ∨ status = 1 ∨ status = 2 := by
  cases h <;> simp

theorem status_eq_two_iff (h : ToolRun tool arguments es status) :
    status = 2 ↔ ∀ form : Form, arguments ≠ form.words := by
  rw [← parse?_eq_none_iff]
  cases h with
  | usage h => simp [h]
  | done h run => simp [h]
  | failed h run => simp [h]

theorem FormRun.report_not_mem {form : Form} (h : FormRun form es (.ok ())) (e : ToolError) :
    report tool e ∉ es := by
  cases form with
  | checkBootSector name =>
    obtain ⟨bytes, rfl, -⟩ := CheckRun.of_ok h
    simp [report]
  | checkStage2 name =>
    obtain ⟨bytes, rfl, -⟩ := CheckRun.of_ok h
    simp [report]
  | make bootSector stage2 core image =>
    obtain ⟨_, _, _, disk, -, rfl⟩ := MakeRun.of_ok h
    simp [report, partsRead]

theorem status_eq_one_iff (h : ToolRun tool arguments es status) (hne : status ≠ 2) :
    status = 1 ↔ ∃ e : ToolError, report tool e ∈ es := by
  cases h with
  | usage h => exact absurd rfl hne
  | done h run => simp [run.report_not_mem]
  | @failed form es e h run => exact iff_of_true rfl ⟨e, by simp⟩

theorem atomic_run (fs : FileSystem σ File) (tool : String) (arguments : List String) (s : σ) :
    Atomic fs tool arguments s ((run tool arguments).exchanges fs.answer s)
      ((run tool arguments).run fs.answer s).1 ((run tool arguments).run fs.answer s).2 := by
  obtain ⟨status, hstatus, h⟩ := toolRun_of_runs (runs_exchanges fs.answer (run tool arguments) s)
  rw [hstatus]
  constructor
  case changed => exact fun file hne => changed_of_toolRun h hne
  case made =>
    rintro bootSector stage2 core image rfl
    rw [Option.some.injEq]
    exact status_eq_zero_iff_of_make h
  case image =>
    rintro bootSector stage2 core image rfl ⟨⟩ file hfile
    exact content_image h hfile
  case bootSector =>
    rintro name rfl
    rw [Option.some.injEq]
    exact status_eq_zero_iff_of_check (.checkBootSector name) rfl h
  case stage2 =>
    rintro name rfl
    rw [Option.some.injEq]
    exact status_eq_zero_iff_of_check (.checkStage2 name) rfl h
  case usage =>
    rw [Option.some.injEq]
    exact status_eq_two_iff h
  case reported =>
    rw [Ne, Option.some.injEq, Option.some.injEq]
    exact status_eq_one_iff h
  case ends =>
    simp only [Option.some.injEq]
    exact h.status_eq

end Files

section Overwritten

open Scripted

/-- A store with one file, which may be each part of an image. -/
def onlyFile : FileStore := { files := [((.working, "b"), DiskImage.emptyBootSector)] }

theorem ofPath_name : Place.ofPath "b" = .file .working "b" := by
  have hsplit : "b".splitOn "/" = ["b"] := by
    rw [String.splitOn, if_neg (by decide), String.splitOnAux, if_neg (by decide +kernel),
      if_neg (by decide +kernel), String.splitOnAux, if_pos (by decide +kernel)]
    decide +kernel
  have hzero : upToZero "b" = "b" := by decide +kernel
  rw [Place.ofPath, hzero, hsplit]
  decide +kernel

theorem ofPath_other_name : Place.ofPath "./b" = .file .working "b" := by
  have hsplit : "./b".splitOn "/" = [".", "b"] := by
    rw [String.splitOn, if_neg (by decide), String.splitOnAux, if_neg (by decide +kernel),
      if_neg (by decide +kernel), String.splitOnAux, if_neg (by decide +kernel),
      if_pos (by decide +kernel)]
    dsimp only
    rw [if_pos (by decide +kernel), String.splitOnAux, if_neg (by decide +kernel),
      if_neg (by decide +kernel), String.splitOnAux, if_pos (by decide +kernel)]
    decide +kernel
  have hzero : upToZero "./b" = "./b" := by decide +kernel
  rw [Place.ofPath, hzero, hsplit]
  decide +kernel

/-- An image that is written over the file of its parts, by another name, is made of what the file
had. -/
theorem atomic_onlyFile :
    ∃ disk, DiskImage.assemble DiskImage.emptyBootSector DiskImage.emptyBootSector
        DiskImage.emptyBootSector .default = .ok disk ∧
      ((run "lbl-mkimage" ["b", "b", "b", "./b"]).run FileStore.answer onlyFile).2.files.lookup
        (.working, "b") = some disk.bytes.toList := by
  have hassemble : DiskImage.assemble DiskImage.emptyBootSector DiskImage.emptyBootSector
      DiskImage.emptyBootSector .default = .ok _ :=
    DiskImage.assemble_eq_ok_iff.2 ⟨DiskImage.checkLayout_eq_ok_iff.2 (by decide),
      DiskImage.checkBootSector_eq_ok_iff.2 (by decide +kernel),
      DiskImage.checkFits_eq_ok_iff.2 (by decide +kernel),
      DiskImage.checkFits_eq_ok_iff.2 (by decide +kernel), rfl⟩
  have hread : FileStore.answer (.read "b") onlyFile =
      (.ok DiskImage.emptyBootSector, onlyFile) := by
    rw [FileStore.answer, FileStore.read, ofPath_name]
    rfl
  have hwrite : ∀ content : Buffer, FileStore.answer (.write "./b" content) onlyFile =
      (.ok (), onlyFile.put .working "b" content.bytes.toList) := by
    intro content
    rw [FileStore.answer, FileStore.write, ofPath_other_name]
  have hstatus : ((run "lbl-mkimage" ["b", "b", "b", "./b"]).run FileStore.answer onlyFile).1 =
      some 0 := run_eq_zero_of_make hread hread hread hassemble (hwrite _)
  have hatomic := atomic_run FileStore.fileSystem "lbl-mkimage" ["b", "b", "b", "./b"] onlyFile
  have hname : FileStore.fileOf "b" = some (.working, "b") := by
    rw [FileStore.fileOf, ofPath_name]
  have hother : FileStore.fileOf "./b" = some (.working, "b") := by
    rw [FileStore.fileOf, ofPath_other_name]
  obtain ⟨disk, ⟨_, _, _, ⟨-, hdisk⟩, hboot, hstage2, hcore⟩, hcontent⟩ :=
    hatomic.image "b" "b" "b" "./b" rfl hstatus (.working, "b") hother
  have hheld : ∀ bytes, Held FileStore.fileSystem onlyFile "b" bytes →
      bytes = DiskImage.emptyBootSector :=
    fun bytes hbytes => (Option.some.inj (hbytes (.working, "b") hname)).symm
  rw [hheld _ hboot, hheld _ hstage2, hheld _ hcore] at hdisk
  exact ⟨disk, hdisk, hcontent⟩

end Overwritten

end ImageTool

end Bootloader
