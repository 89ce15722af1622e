import Bootloader.Proofs.Uefi.Ledger

/-!
# The load of a file

All that the load of a file from a device can be (`FileLoaded`): the firmware has no file system
there, or does not open the volume or the file, or the file is open and its size is found out
(`Sized`), pages are asked for and the file is read into them (`OpenFileLoaded`).  A load comes to
the bytes of the file just if every step passes (`FileLoaded.pass_iff`).

A file is read at most once, into the pages that were granted for it (`ReadOnce`).  They hold it
unless its size is so large that the sum wraps from which their number is computed
(`Services.hasRoom_loadFile`).
-/

namespace Bootloader.Uefi

open Program

/-- The answer is an object: no error came with it, and it is there. -/
def Answer.IsObject (got : Answer UInt64) : Prop := got.status.isError = false ∧ got.value ≠ 0

theorem Answer.isObject_iff (got : Answer UInt64) :
    got.IsObject ↔ ¬(got.status.isError || got.value == 0) = true := by
  simp [IsObject]

/-- The exchange belongs to a query for the record of a file, and did not answer it. -/
def Fruitless : Exchange Firmware → Prop
  | ⟨.fileInfo .., got⟩ => got.status ≠ .success
  | ⟨.allocatePool .., _⟩ | ⟨.freePool _, _⟩ => True
  | _ => False

/-- The exchanges that find out the size of an open file, and what they come to.  The size of the
file is the second of the three 64-bit sizes a record begins with. -/
inductive Sized (file : UInt64) : List (Exchange Firmware) → Option UInt64 → Prop where
  | unknown {es : List (Exchange Firmware)} (h : ∀ e ∈ es, Fruitless e) : Sized file es none
  | known {es : List (Exchange Firmware)} {room record size : UInt64} {got : Answer UInt64}
      {status : Status} (h : ∀ e ∈ es, Fruitless e) (h0 : record ≠ 0)
      (hs : got.status = .success) :
    Sized file (es ++ [⟨.fileInfo file .fileInfo room record, got⟩,
      ⟨.load (record + 8), size⟩, ⟨.freePool record, status⟩]) (some size)

/-- What a read of a whole file comes to. -/
def readResult (size : UInt64) (got : Answer UInt64) : Except LoadFailure UInt64 :=
  if got.status.isError then .error (.readFailed got.status)
  else if got.value = size then .ok size
  else .error .shortRead

/-- The exchanges that load an open file, and what they come to; `pages` is what the caller's run
was before. -/
inductive OpenFileLoaded (file : UInt64) (pages : PageRun) :
    List (Exchange Firmware) → Except LoadFailure UInt64 × PageRun → Prop where
  | cannotGetSize {sizing : List (Exchange Firmware)} (hs : Sized file sizing none) :
    OpenFileLoaded file pages sizing (.error .cannotGetSize, pages)
  | emptyFile {sizing : List (Exchange Firmware)} (hs : Sized file sizing (some 0)) :
    OpenFileLoaded file pages sizing (.error .emptyFile, pages)
  | outOfMemory {sizing : List (Exchange Firmware)} {size : UInt64} {granted : Answer UInt64}
      (hs : Sized file sizing (some size)) (h0 : size ≠ 0)
      (hg : granted.status.isError = true) :
    OpenFileLoaded file pages
      (sizing ++ [⟨.allocatePages anyPages loaderCode (pagesForBytes size), granted⟩])
      (.error .outOfMemory, pages)
  | read {sizing dropped : List (Exchange Firmware)} {size : UInt64} {granted got : Answer UInt64}
      (hs : Sized file sizing (some size)) (h0 : size ≠ 0)
      (hg : granted.status.isError = false) (hd : dropped.map (·.1) = pages.dropCalls) :
    OpenFileLoaded file pages
      (sizing ++ ⟨.allocatePages anyPages loaderCode (pagesForBytes size), granted⟩ ::
        (dropped ++ [⟨.fileRead file size granted.value, got⟩]))
      (readResult size got, ⟨granted.value, pagesForBytes size⟩)

/-- The exchanges that load a file from a device, and what they come to. -/
inductive FileLoaded (device : UInt64) (path : String) (pages : PageRun) :
    List (Exchange Firmware) → Except LoadFailure UInt64 × PageRun → Prop where
  | noFileSystem {fileSystem : Answer UInt64} (h : ¬fileSystem.IsObject) :
    FileLoaded device path pages [⟨.handleProtocol device .simpleFileSystem, fileSystem⟩]
      (.error (.noFileSystem fileSystem.status), pages)
  | cannotOpenVolume {fileSystem root : Answer UInt64} (hf : fileSystem.IsObject)
      (h : ¬root.IsObject) :
    FileLoaded device path pages
      [⟨.handleProtocol device .simpleFileSystem, fileSystem⟩, ⟨.openVolume fileSystem.value, root⟩]
      (.error (.cannotOpenVolume root.status), pages)
  | cannotOpenFile {fileSystem root file : Answer UInt64} (hf : fileSystem.IsObject)
      (hr : root.IsObject) (h : ¬file.IsObject) :
    FileLoaded device path pages
      [⟨.handleProtocol device .simpleFileSystem, fileSystem⟩,
        ⟨.openVolume fileSystem.value, root⟩, ⟨.openFile root.value path readMode 0, file⟩,
        ⟨.closeFile root.value, ()⟩]
      (.error (.cannotOpenFile file.status), pages)
  | opened {fileSystem root file : Answer UInt64} {es : List (Exchange Firmware)}
      {x : Except LoadFailure UInt64 × PageRun} (hf : fileSystem.IsObject) (hr : root.IsObject)
      (ho : file.IsObject) (h : OpenFileLoaded file.value pages es x) :
    FileLoaded device path pages
      (⟨.handleProtocol device .simpleFileSystem, fileSystem⟩ ::
        ⟨.openVolume fileSystem.value, root⟩ :: ⟨.openFile root.value path readMode 0, file⟩ ::
          (es ++ [⟨.closeFile file.value, ()⟩, ⟨.closeFile root.value, ()⟩])) x

/-- The call works on an open file, or handles memory for that. -/
def Call.IsFilling : Call → Prop
  | fileInfo .. | load _ | allocatePool .. | freePool _ => True
  | allocatePages .. | freePages .. | fileRead .. => True
  | _ => False

theorem Call.IsSizing.isFilling {q : Call} (h : q.IsSizing) : q.IsFilling := by
  cases q <;> trivial

/-- The call is a step that the load of an open file comes through only if it passes. -/
def Call.IsFileStep : Call → Prop
  | fileInfo .. | load _ | allocatePages .. | fileRead .. => True
  | _ => False

/-- The call is such a step of the load from a device. -/
def Call.IsStep : Call → Prop
  | handleProtocol .. | openVolume _ | openFile .. => True
  | q => q.IsFileStep

theorem Call.IsFileStep.isStep {q : Call} (h : q.IsFileStep) : q.IsStep := by
  cases q <;> trivial

/-- What the firmware answers to the steps that load an open file. -/
structure FileSteps where
  room : UInt64
  record : UInt64
  info : Answer UInt64
  size : UInt64
  granted : Answer UInt64
  got : Answer UInt64

/-- What it answers to the steps of a load from a device. -/
structure LoadSteps extends FileSteps where
  fileSystem : Answer UInt64
  root : Answer UInt64
  file : Answer UInt64

namespace FileSteps

variable (s : FileSteps)

/-- What has been loaded in the end. -/
def image : CoreImage := ⟨⟨s.granted.value, pagesForBytes s.size⟩, s.size⟩

/-- The steps were taken on an open file, and passed. -/
structure Pass (file : UInt64) (es : List (Exchange Firmware)) : Prop where
  info : ⟨.fileInfo file .fileInfo s.room s.record, s.info⟩ ∈ es
  info_ok : s.info.status = .success
  size : ⟨.load (s.record + 8), s.size⟩ ∈ es
  size_ne : s.size ≠ 0
  pages : ⟨.allocatePages anyPages loaderCode (pagesForBytes s.size), s.granted⟩ ∈ es
  pages_ok : s.granted.status.isError = false
  read : ⟨.fileRead file s.size s.granted.value, s.got⟩ ∈ es
  read_ok : s.got.status.isError = false
  read_all : s.got.value = s.size

variable {s} {file : UInt64} {es es' : List (Exchange Firmware)}

/-- Whether the steps pass is seen from them alone. -/
theorem Pass.mono (h : s.Pass file es) (hes : ∀ e ∈ es, e.1.IsFileStep → e ∈ es') :
    s.Pass file es' where
  info := hes _ h.info trivial
  info_ok := h.info_ok
  size := hes _ h.size trivial
  size_ne := h.size_ne
  pages := hes _ h.pages trivial
  pages_ok := h.pages_ok
  read := hes _ h.read trivial
  read_ok := h.read_ok
  read_all := h.read_all

end FileSteps

/-- The steps were taken on a device, and passed. -/
structure LoadSteps.Pass (s : LoadSteps) (device : UInt64) (path : String)
    (es : List (Exchange Firmware)) : Prop where
  fileSystem : ⟨.handleProtocol device .simpleFileSystem, s.fileSystem⟩ ∈ es
  fileSystem_ok : s.fileSystem.IsObject
  root : ⟨.openVolume s.fileSystem.value, s.root⟩ ∈ es
  root_ok : s.root.IsObject
  file : ⟨.openFile s.root.value path readMode 0, s.file⟩ ∈ es
  file_ok : s.file.IsObject
  opened : s.toFileSteps.Pass s.file.value es

theorem LoadSteps.Pass.mono {s : LoadSteps} {device : UInt64} {path : String}
    {es es' : List (Exchange Firmware)} (h : s.Pass device path es)
    (hes : ∀ e ∈ es, e.1.IsStep → e ∈ es') : s.Pass device path es' where
  fileSystem := hes _ h.fileSystem trivial
  fileSystem_ok := h.fileSystem_ok
  root := hes _ h.root trivial
  root_ok := h.root_ok
  file := hes _ h.file trivial
  file_ok := h.file_ok
  opened := h.opened.mono fun e he hstep => hes e he hstep.isStep

namespace Sized

variable {file size : UInt64} {es : List (Exchange Firmware)} {known : Option UInt64}

theorem isSizing (h : Sized file es known) : ∀ e ∈ es, e.1.IsSizing := by
  have hfruitless : ∀ e : Exchange Firmware, Fruitless e → e.1.IsSizing := by
    rintro ⟨q, r⟩ he
    cases q <;> trivial
  cases h with
  | unknown h => exact fun e he => hfruitless e (h e he)
  | known h h0 hs =>
    refine List.forall_mem_append.2 ⟨fun e he => hfruitless e (h e he), ?_⟩
    simp [Call.IsSizing]

theorem eq_of_load_mem (h : Sized file es known) {address : UInt64}
    (hmem : ⟨.load address, size⟩ ∈ es) : known = some size := by
  cases h with
  | unknown h => exact (h _ hmem).elim
  | @known es room record size' got status h h0 hs =>
    rcases List.mem_append.1 hmem with hmem | hmem
    · exact (h _ hmem).elim
    · simp at hmem
      rw [hmem.2]

end Sized

theorem PageRun.exists_of_mem_dropped {run : PageRun} {dropped : List (Exchange Firmware)}
    (hd : dropped.map (·.1) = run.dropCalls) {e : Exchange Firmware} (he : e ∈ dropped) :
    e.1 = .freePages run.address run.pages := by
  have hmem : e.1 ∈ run.dropCalls := hd ▸ List.mem_map_of_mem he
  unfold dropCalls at hmem
  split at hmem
  · exact List.mem_singleton.1 hmem
  · cases hmem

namespace OpenFileLoaded

variable {file : UInt64} {pages : PageRun} {es : List (Exchange Firmware)}
variable {x : Except LoadFailure UInt64 × PageRun}

theorem isFilling (h : OpenFileLoaded file pages es x) : ∀ e ∈ es, e.1.IsFilling := by
  have hsizing : ∀ {es known}, Sized file es known → ∀ e ∈ es, e.1.IsFilling :=
    fun hs e he => (hs.isSizing e he).isFilling
  cases h with
  | cannotGetSize hs => exact hsizing hs
  | emptyFile hs => exact hsizing hs
  | outOfMemory hs h0 hg =>
    exact List.forall_mem_append.2 ⟨hsizing hs, by simp [Call.IsFilling]⟩
  | read hs h0 hg hd =>
    refine List.forall_mem_append.2 ⟨hsizing hs, List.forall_mem_cons.2 ⟨trivial, ?_⟩⟩
    refine List.forall_mem_append.2 ⟨fun e he => ?_, by simp [Call.IsFilling]⟩
    rw [PageRun.exists_of_mem_dropped hd he]
    trivial

/-- A load of an open file comes to its bytes if all steps pass. -/
theorem eq_of_pass (h : OpenFileLoaded file pages es x) {s : FileSteps}
    (hs : s.Pass file es) : x = (.ok s.size, s.image.pages) := by
  cases h with
  | cannotGetSize hsized =>
    cases hsized with
    | unknown h => exact absurd hs.info_ok (h _ hs.info)
  | emptyFile hsized =>
    have hsize := hsized.eq_of_load_mem hs.size
    exact absurd (Option.some.inj hsize).symm hs.size_ne
  | @outOfMemory sizing size granted hsized h0 hg =>
    rcases List.mem_append.1 hs.pages with hmem | hmem
    · exact (hsized.isSizing _ hmem).elim
    · simp at hmem
      rw [← hmem.2, hs.pages_ok] at hg
      cases hg
  | @read sizing dropped size granted got hsized h0 hg hd =>
    have hfreed : ∀ e ∈ dropped, e.1 = .freePages pages.address pages.pages := fun _ =>
      PageRun.exists_of_mem_dropped hd
    have hsize : size = s.size := by
      rcases List.mem_append.1 hs.size with hmem | hmem
      · exact Option.some.inj (hsized.eq_of_load_mem hmem)
      · simp at hmem
        cases hfreed _ hmem
    have hgranted : s.granted = granted := by
      rcases List.mem_append.1 hs.pages with hmem | hmem
      · exact (hsized.isSizing _ hmem).elim
      · simp at hmem
        rcases hmem with hmem | hmem
        · exact hmem.2
        · cases hfreed _ hmem
    have hgot : s.got = got := by
      rcases List.mem_append.1 hs.read with hmem | hmem
      · exact (hsized.isSizing _ hmem).elim
      · simp at hmem
        rcases hmem with hmem | hmem
        · cases hfreed _ hmem
        · exact hmem.2
    have hok : readResult size got = .ok s.size := by
      rw [readResult, ← hgot, hs.read_ok, if_neg (by simp), hs.read_all, hsize, if_pos rfl]
    rw [hok, FileSteps.image, hgranted, hsize]

/-- And only then. -/
theorem exists_pass (h : OpenFileLoaded file pages es x) {size : UInt64} {run : PageRun}
    (hx : x = (.ok size, run)) : ∃ s : FileSteps, s.Pass file es ∧ s.image = ⟨run, size⟩ := by
  cases h with
  | @read sizing dropped size' granted got hsized h0 hg hd =>
    cases hsized with
    | @known es room record _ info status h hr hs =>
    simp only [readResult, Prod.mk.injEq] at hx
    obtain ⟨hx, rfl⟩ := hx
    split at hx
    · cases hx
    rename_i hread
    split at hx
    · rename_i hall
      cases hx
      refine ⟨⟨room, record, info, size, granted, got⟩, ?_, rfl⟩
      exact ⟨by simp, hs, by simp, h0, by simp, hg, by simp, by simpa using hread, hall⟩
    · cases hx
  | _ => cases hx

end OpenFileLoaded

namespace FileLoaded

variable {device : UInt64} {path : String} {pages : PageRun} {es : List (Exchange Firmware)}
variable {x : Except LoadFailure UInt64 × PageRun}

/-- A load comes to the bytes of the file just if all steps pass. -/
theorem pass_iff (h : FileLoaded device path pages es x) (image : CoreImage) :
    (∃ s : LoadSteps, s.Pass device path es ∧ s.image = image) ↔
      x = (.ok image.size, image.pages) := by
  constructor
  · rintro ⟨s, hs, rfl⟩
    cases h with
    | noFileSystem h =>
      have hmem := hs.fileSystem
      simp at hmem
      exact absurd (hmem ▸ hs.fileSystem_ok) h
    | cannotOpenVolume hf h =>
      have hmem := hs.root
      simp at hmem
      exact absurd (hmem.2 ▸ hs.root_ok) h
    | cannotOpenFile hf hr h =>
      have hmem := hs.file
      simp at hmem
      exact absurd (hmem.2 ▸ hs.file_ok) h
    | @opened fileSystem root file es x hf hr ho h =>
      have hfile : s.file = file := by
        have hmem := hs.file
        simp at hmem
        rcases hmem with hmem | hmem
        · exact hmem.2
        · exact (h.isFilling _ hmem).elim
      refine h.eq_of_pass ((hfile ▸ hs.opened).mono fun e he hstep => ?_)
      simp only [List.mem_cons, List.mem_append, List.not_mem_nil, or_false] at he
      rcases he with rfl | rfl | rfl | he | rfl | rfl <;> first | exact he | exact hstep.elim
  · rintro rfl
    cases h with
    | opened hf hr ho h =>
      obtain ⟨s, hs, hi⟩ := h.exists_pass rfl
      exact ⟨⟨s, _, _, _⟩, ⟨.head _, hf, .tail _ (.head _), hr, .tail _ (.tail _ (.head _)), ho,
        hs.mono fun e he _ => by simp [he]⟩, hi⟩

end FileLoaded

namespace Services

variable {efi : Services} {A : Exchange Firmware → Prop}

/-- The query for the record of a file, carried out by one call. -/
def InfoQueried (file size buffer : UInt64) (_ : Unit) (es : List (Exchange Firmware))
    (x : Answer UInt64 × Unit) : Prop :=
  es = [⟨.fileInfo file .fileInfo size buffer, x.1⟩]

theorem fruitless_of_measures {file : UInt64} {q : SizedQuery.Request} {r : q.Reply}
    {es : List (Exchange Firmware)} (hq : SizedQuery.Unanswered ⟨q, r⟩)
    (h : Measures (InfoQueried file) (fun _ => 0) q () es (r, ())) : ∀ e ∈ es, Fruitless e := by
  cases h with
  | allocate size s got => simp [Fruitless]
  | free buffer s status => simp [Fruitless]
  | query h =>
    rw [h]
    intro e he
    rw [List.mem_singleton.1 he]
    exact hq
  | padding s => simp

/-- The record of a file is what the last call has filled. -/
theorem ensures_fileInfo (hl : efi.live = true) (file : UInt64) :
    (efi.fileInfo file).Ensures A fun es record =>
      (record = 0 ∧ ∀ e ∈ es, Fruitless e) ∨
        (record ≠ 0 ∧ ∃ es₀ room got, es = es₀ ++ [⟨.fileInfo file .fileInfo room record, got⟩] ∧
          got.status = .success ∧ ∀ e ∈ es₀, Fruitless e) := by
  have hquery : ∀ (size buffer : UInt64) (s : Unit),
      (do return (← perform (.fileInfo file .fileInfo size buffer), ()) :
        Action (Answer UInt64 × Unit)).Ensures A (InfoQueried file size buffer s) :=
    fun _ _ _ => ensures_request.2 fun _ _ => ensures_done.2 rfl
  have hfruitless : ∀ {es : List (Exchange SizedQuery)} {fs : List (Exchange Firmware)} {u : Unit},
      Carried (Measures (InfoQueried file) fun _ => 0) es () fs u →
        (∀ e ∈ es, SizedQuery.Unanswered e) → ∀ f ∈ fs, Fruitless f := by
    intro es fs u hc h f hf
    obtain ⟨q, r, ⟨⟩, ⟨⟩, fs', hmem, hm, hf'⟩ := hc.exists_of_mem hf
    exact fruitless_of_measures (h _ hmem) hm f hf'
  refine (ensures_via (SizedQuery.ensures_sizedQuery fileInfoRoom)
    (ensures_measured hl hquery) ()).bind ?_
  rintro fs ⟨outcome, ⟨⟩⟩ ⟨es, hq, hc⟩
  cases outcome with
  | filled result =>
    obtain ⟨es₀, rfl, hes₀⟩ := hq.last_of_filled
    obtain ⟨fs₁, ⟨⟩, fs₂, rfl, hc₁, hlast⟩ := hc.of_append
    refine ensures_done.2 (.inr ⟨hq.buffer_ne_zero (by decide), fs₁, result.allocated,
      ⟨.success, result.size⟩, ?_, rfl, hfruitless hc₁ hes₀⟩)
    cases hlast.of_singleton with
    | query h => rw [List.append_nil, h]
  | queryFailed | allocationFailed | stillTooSmall | fetchFailed =>
    refine ensures_done.2 (.inl ⟨rfl, ?_⟩)
    rw [List.append_nil]
    exact hfruitless hc (hq.unanswered (by simp))

theorem ensures_fileSize (hl : efi.live = true) (file : UInt64) :
    (efi.fileSize file).Ensures A (Sized file) := by
  refine (ensures_fileInfo hl file).bind ?_
  rintro es record (⟨rfl, hes⟩ | ⟨h0, es₀, room, got, rfl, hs, hes₀⟩)
  · rw [if_pos rfl]
    refine ensures_done.2 (.unknown ?_)
    rwa [List.append_nil]
  · rw [if_neg h0]
    refine ensures_request.2 fun size _ => ?_
    rw [free, call_eq_of_live hl]
    refine ensures_request.2 fun status _ => ensures_done.2 ?_
    rw [List.append_assoc]
    exact .known hes₀ h0 hs

theorem ensures_openFileLoaded (hl : efi.live = true) (file : UInt64) (pages : PageRun) :
    (efi.loadOpenFile file pages).Ensures A (OpenFileLoaded file pages) := by
  refine (ensures_fileSize hl file).bind fun sizing size hs => ?_
  cases size with
  | none =>
    refine ensures_done.2 ?_
    rw [List.append_nil]
    exact .cannotGetSize hs
  | some size =>
    dsimp only
    by_cases h0 : size = 0
    · rw [if_pos h0]
      refine ensures_done.2 ?_
      rw [List.append_nil]
      rw [h0] at hs
      exact .emptyFile hs
    rw [if_neg h0]
    refine (ensures_replacePages hl pages _).bind ?_
    rintro _ _ ⟨granted, ⟨hg, rfl, rfl⟩ | ⟨hg, rfl, dropped, rfl, hd⟩⟩
    · exact ensures_done.2 (.outOfMemory hs h0 hg)
    · refine ensures_request.2 fun got _ => ?_
      have hread : OpenFileLoaded file pages _ (readResult size got, _) := .read hs h0 hg hd
      unfold readResult at hread
      split at hread
      · rename_i herror
        rw [if_pos herror]
        exact ensures_done.2 hread
      rename_i herror
      rw [if_neg herror]
      split at hread
      · rename_i hall
        rw [if_pos hall]
        exact ensures_done.2 hread
      · rename_i hall
        rw [if_neg hall]
        exact ensures_done.2 hread

theorem ensures_fileLoaded (hl : efi.live = true) (device : UInt64) (path : String)
    (pages : PageRun) : (efi.loadFile device path pages).Ensures A (FileLoaded device path pages) := by
  rw [loadFile, call_eq_of_live hl]
  refine ensures_request.2 fun fileSystem _ => ?_
  split
  · rename_i h
    exact ensures_done.2 (.noFileSystem (mt (Answer.isObject_iff _).1 (not_not.2 h)))
  rename_i hf
  rw [← Answer.isObject_iff] at hf
  refine ensures_request.2 fun root _ => ?_
  split
  · rename_i h
    exact ensures_done.2 (.cannotOpenVolume hf (mt (Answer.isObject_iff _).1 (not_not.2 h)))
  rename_i hr
  rw [← Answer.isObject_iff] at hr
  have hroot : (efi.loadFromRoot root.value path pages).Ensures A fun es x =>
      FileLoaded device path pages (⟨.handleProtocol device .simpleFileSystem, fileSystem⟩ ::
        ⟨.openVolume fileSystem.value, root⟩ :: (es ++ [⟨.closeFile root.value, ()⟩])) x := by
    refine ensures_request.2 fun file _ => ?_
    split
    · rename_i h
      exact ensures_done.2 (.cannotOpenFile hf hr (mt (Answer.isObject_iff _).1 (not_not.2 h)))
    rename_i ho
    rw [← Answer.isObject_iff] at ho
    refine (ensures_openFileLoaded hl file.value pages).bind fun es x hx => ?_
    refine ensures_request.2 fun _ _ => ensures_done.2 ?_
    have hopened : FileLoaded device path pages _ x := .opened hf hr ho hx
    simpa using hopened
  refine hroot.bind fun es x hx => ensures_request.2 fun _ _ => ensures_done.2 hx

end Services

/-- The run of pages that a call was granted. -/
def grantedRun? : Exchange Firmware → Option PageRun
  | ⟨.allocatePages _ _ pages, got⟩ =>
    if got.status.isError then none else some ⟨got.value, pages⟩
  | _ => none

/-- The call reads a file. -/
def Call.IsFileRead : Call → Prop
  | fileRead .. => True
  | _ => False

/-- Pages that hold so many bytes were granted at an address. -/
def HasRoom (es : List (Exchange Firmware)) (address bytes : UInt64) : Prop :=
  ∃ run ∈ es.filterMap grantedRun?, run.address = address ∧
    bytes.toNat ≤ 4096 * run.pages.toNat

/-- Before each read of a file, pages that hold it were granted at its address. -/
def ReadsHaveRoom (es : List (Exchange Firmware)) : Prop :=
  ∀ pre file size address got post, es = pre ++ ⟨.fileRead file size address, got⟩ :: post →
    HasRoom pre address size

theorem toNat_pagesForBytes (bytes : UInt64) :
    (pagesForBytes bytes).toNat = (bytes.toNat + 4095) % 2 ^ 64 / 4096 := by
  have hlt := bytes.toNat_lt
  rw [pagesForBytes, UInt64.toNat_div, UInt64.toNat_sub, UInt64.toNat_add,
    show pageSize.toNat = 4096 from rfl, show (1 : UInt64).toNat = 1 from rfl]
  omega

section Reads

variable {device : UInt64} {path : String} {pages : PageRun} {es pre post : List (Exchange Firmware)}
variable {x : Except LoadFailure UInt64 × PageRun} {file size address : UInt64}
variable {got : Answer UInt64}

/-- The pages asked for hold all of the file unless its size is in the last page there can be; then
none are asked for. -/
theorem hasRoom_iff (h : pre.filterMap grantedRun? = [⟨address, pagesForBytes size⟩]) :
    (HasRoom pre address size ↔ size.toNat + 4096 ≤ 2 ^ 64) ∧
      (2 ^ 64 < size.toNat + 4096 → pagesForBytes size = 0) := by
  have hlt := size.toNat_lt
  have hpages := toNat_pagesForBytes size
  have hroom : HasRoom pre address size ↔ size.toNat ≤ 4096 * (pagesForBytes size).toNat := by
    simp [HasRoom, h]
  rw [hroom, ← UInt64.toNat_inj, UInt64.toNat_zero]
  omega

/-- The exchanges have at most one read of a file, before which a run of pages for its bytes was
granted at its address, and no other. -/
def ReadOnce (es : List (Exchange Firmware)) : Prop :=
  (∀ e ∈ es, ¬e.1.IsFileRead) ∨
    ∃ before after file size address got, es = before ++ ⟨.fileRead file size address, got⟩ :: after ∧
      (∀ e ∈ before, ¬e.1.IsFileRead) ∧ (∀ e ∈ after, ¬e.1.IsFileRead) ∧
        before.filterMap grantedRun? = [⟨address, pagesForBytes size⟩]

theorem OpenFileLoaded.readOnce (h : OpenFileLoaded file pages es x) : ReadOnce es := by
  have hsizing : ∀ {es known}, Sized file es known →
      (∀ e ∈ es, ¬e.1.IsFileRead) ∧ es.filterMap grantedRun? = [] := by
    intro es known hs
    refine ⟨?_, List.filterMap_eq_nil_iff.2 ?_⟩ <;> rintro ⟨q, r⟩ he <;> have hq := hs.isSizing _ he
    · cases q <;> first | exact id | exact hq.elim
    · cases q <;> first | rfl | exact hq.elim
  cases h with
  | cannotGetSize hs => exact .inl (hsizing hs).1
  | emptyFile hs => exact .inl (hsizing hs).1
  | outOfMemory hs h0 hg =>
    exact .inl (List.forall_mem_append.2 ⟨(hsizing hs).1, by simp [Call.IsFileRead]⟩)
  | @read sizing dropped size granted got hs h0 hg hd =>
    have hfreed : ∀ e ∈ dropped, ¬e.1.IsFileRead ∧ grantedRun? e = none := by
      rintro ⟨q, r⟩ he
      cases PageRun.exists_of_mem_dropped hd he
      exact ⟨id, rfl⟩
    obtain ⟨hunread, hungranted⟩ := hsizing hs
    refine .inr ⟨sizing ++ ⟨.allocatePages anyPages loaderCode (pagesForBytes size), granted⟩ ::
      dropped, [], file, size, granted.value, got, by simp, ?_, by simp, ?_⟩
    · exact List.forall_mem_append.2 ⟨hunread, List.forall_mem_cons.2 ⟨id, fun e he =>
        (hfreed e he).1⟩⟩
    · have hrun : grantedRun? ⟨.allocatePages anyPages loaderCode (pagesForBytes size), granted⟩ =
          some ⟨granted.value, pagesForBytes size⟩ := by
        simp [grantedRun?, hg]
      rw [List.filterMap_append, hungranted, List.nil_append, List.filterMap_cons_some hrun,
        List.filterMap_eq_nil_iff.2 fun e he => (hfreed e he).2]

theorem FileLoaded.readOnce (h : FileLoaded device path pages es x) : ReadOnce es := by
  cases h with
  | noFileSystem h => exact .inl (by simp [Call.IsFileRead])
  | cannotOpenVolume hf h => exact .inl (by simp [Call.IsFileRead])
  | cannotOpenFile hf hr h => exact .inl (by simp [Call.IsFileRead])
  | @opened fileSystem root file es x hf hr ho h =>
    rcases h.readOnce with hno | ⟨before, after, file', size, address, got, rfl, hb, ha, hg⟩
    · exact .inl (by simpa [Call.IsFileRead, or_imp, forall_and] using hno)
    · refine .inr ⟨⟨.handleProtocol device .simpleFileSystem, fileSystem⟩ ::
        ⟨.openVolume fileSystem.value, root⟩ :: ⟨.openFile root.value path readMode 0, file⟩ ::
          before, after ++ [⟨.closeFile file.value, ()⟩, ⟨.closeFile root.value, ()⟩], file', size,
        address, got, by simp, ?_, ?_, ?_⟩
      · simpa [Call.IsFileRead] using hb
      · simpa [Call.IsFileRead, or_imp, forall_and] using ha
      · exact hg

theorem ReadOnce.granted (h : ReadOnce es)
    (hes : es = pre ++ ⟨.fileRead file size address, got⟩ :: post) :
    pre.filterMap grantedRun? = [⟨address, pagesForBytes size⟩] := by
  rcases h with hno | ⟨before, after, file', size', address', got', hes', hb, ha, hg⟩
  · exact absurd trivial (hno ⟨.fileRead file size address, got⟩ (by simp [hes]))
  · let read : Exchange Firmware := ⟨.fileRead file size address, got⟩
    obtain ⟨rfl, heq⟩ := eq_of_append_cons (fun hmem => hb read hmem trivial)
      (fun hmem => ha read hmem trivial) (hes' ▸ hes)
    simp [read] at heq
    rw [← heq.1.2.1, ← heq.1.2.2, hg]

end Reads

namespace Services

theorem readOnce_loadFile {efi : Services} {device : UInt64} {path : String} {pages : PageRun}
    {es : List (Exchange Firmware)} {o : Option (Except LoadFailure UInt64 × PageRun)}
    (h : Runs (efi.loadFile device path pages) es o) : ReadOnce es := by
  cases hl : efi.live with
  | true =>
    have hloaded : (efi.loadFile device path pages).Ensures (fun _ => True) _ :=
      ensures_fileLoaded hl device path pages
    obtain ⟨x, -, hx⟩ := hloaded es o h fun _ _ => trivial
    exact hx.readOnce
  | false =>
    rw [loadFile, call, bind_assoc] at h
    obtain ⟨rfl, -⟩ := runs_check_of_not_live hl h
    exact .inl (by simp [Call.IsFileRead])

/-- A file is read into the one run of pages that was granted for it, and that run holds what is
asked of the read just if the size of the file is not in the last page there can be; otherwise the
run has no pages. -/
theorem hasRoom_loadFile {efi : Services} {device : UInt64} {path : String} {pages : PageRun}
    {es pre post : List (Exchange Firmware)} {o : Option (Except LoadFailure UInt64 × PageRun)}
    {file size address : UInt64} {got : Answer UInt64}
    (h : Runs (efi.loadFile device path pages) es o)
    (hes : es = pre ++ ⟨.fileRead file size address, got⟩ :: post) :
    pre.filterMap grantedRun? = [⟨address, pagesForBytes size⟩] ∧
      (HasRoom pre address size ↔ size.toNat + 4096 ≤ 2 ^ 64) ∧
        (2 ^ 64 < size.toNat + 4096 → pagesForBytes size = 0) :=
  have hgranted := (readOnce_loadFile h).granted hes
  ⟨hgranted, hasRoom_iff hgranted⟩

/-- A file of 4096 bytes is read into one page. -/
theorem hasRoom_smallFile : ∃ pre got post,
    Runs (smallServices.loadFile 0x100 corePath {})
        (pre ++ ⟨.fileRead 0x6000 4096 0x200000, got⟩ :: post) (some (.ok 4096, ⟨0x200000, 1⟩)) ∧
      HasRoom pre 0x200000 4096 := by
  have hr : Runs (smallServices.loadFile 0x100 corePath {}) _ (some (.ok 4096, ⟨0x200000, 1⟩)) :=
    runs_exchanges smallFirmware (smallServices.loadFile 0x100 corePath {}) 0
  have hget : ((smallServices.loadFile 0x100 corePath {}).exchanges smallFirmware 0)[8]? =
      some ⟨.fileRead 0x6000 4096 0x200000, ⟨.success, 4096⟩⟩ := rfl
  obtain ⟨pre, post, hes⟩ := List.append_of_mem (List.mem_of_getElem? hget)
  exact ⟨pre, _, post, hes ▸ hr, (hasRoom_loadFile hr hes).2.1.2 (by decide)⟩

/-- A firmware with a volume whose file claims to have all bytes there can be but one. -/
def hugeFirmware : (q : Call) → (exits : Nat) → q.Reply × Nat
  | .load _, n => (0xFFFFFFFFFFFFFFFF, n)
  | q, n => smallFirmware q n

/-- Not every read has room: no pages are asked for such a file. -/
theorem not_readsHaveRoom :
    ¬∀ (efi : Services) (device : UInt64) (path : String) (pages : PageRun)
      (es : List (Exchange Firmware)) (o : Option (Except LoadFailure UInt64 × PageRun)),
      Runs (efi.loadFile device path pages) es o → ReadsHaveRoom es := by
  intro h
  have hr := runs_exchanges hugeFirmware (smallServices.loadFile 0x100 corePath {}) 0
  have hget : ((smallServices.loadFile 0x100 corePath {}).exchanges hugeFirmware 0)[8]? =
      some ⟨.fileRead 0x6000 0xFFFFFFFFFFFFFFFF 0x200000, ⟨.success, 0xFFFFFFFFFFFFFFFF⟩⟩ := rfl
  obtain ⟨pre, post, hes⟩ := List.append_of_mem (List.mem_of_getElem? hget)
  have hroom := h _ _ _ _ _ _ hr pre _ _ _ _ post hes
  have hle := (hasRoom_iff ((readOnce_loadFile hr).granted hes)).1.1 hroom
  exact absurd hle (by decide)

end Services

end Bootloader.Uefi
