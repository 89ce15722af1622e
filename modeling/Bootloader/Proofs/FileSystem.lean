import Bootloader.Proofs.Ensures
import Bootloader.Scripted.FileStore

/-!
# What programs over files rely on

A file system answers the calls of a program from a state, and keeps files in it.  Several names may
lead to one file, and any call may fail, but what is read of a file is what it has, and a file gets
other bytes by nothing but a write to a name that leads to it.

What a program does to the files is read off its exchanges (`content_eq_of_exchanges`,
`content_of_written`).  The store that the tool is tried out on is a file system of this kind
(`FileStore.fileSystem`).
-/

namespace Bootloader

open Program

def Files.Call.written? : Files.Call → Option String
  | write name _ => some name
  | _ => none

/-- A file system: what it answers, which file a name leads to, if it is that of one, and the bytes
of each file that there is. -/
structure FileSystem (σ File : Type) where
  answer : (q : Files.Call) → σ → q.Reply × σ
  fileOf : String → Option File
  content : σ → File → Option (List UInt8)
  /-- A write that fails may leave any bytes in the file that it was to go to. -/
  kept : ∀ q s file, q.written?.bind fileOf ≠ some file →
    content (answer q s).2 file = content s file
  read : ∀ name s bytes file, fileOf name = some file → (answer (.read name) s).1 = .ok bytes →
    content s file = some bytes
  written : ∀ name buffer s file, fileOf name = some file →
    (answer (.write name buffer) s).1 = .ok () →
      content (answer (.write name buffer) s).2 file = some buffer.bytes.toList

namespace FileSystem

variable {σ File α : Type} (fs : FileSystem σ File) {file : File} {s : σ} {p : Program Files α}
variable {es pre post : List (Exchange Files)} {name : String}

/-- None of the exchanges is a write to the file. -/
def Spared (file : File) (es : List (Exchange Files)) : Prop :=
  ∀ e ∈ es, e.1.written?.bind fs.fileOf ≠ some file

variable {fs}

theorem spared_of_written? (h : ∀ e ∈ es, e.1.written? = none) : fs.Spared file es := by
  intro e he
  simp [h e he]

theorem Spared.content_eq (h : fs.Spared file es) (s : σ) :
    fs.content (stateAfter fs.answer es s) file = fs.content s file := by
  induction es generalizing s with
  | nil => rfl
  | cons e es ih =>
    obtain ⟨he, hes⟩ := List.forall_mem_cons.1 h
    exact (ih hes _).trans (fs.kept _ s file he)

theorem content_eq_of_exchanges (h : fs.Spared file (p.exchanges fs.answer s)) :
    fs.content (p.run fs.answer s).2 file = fs.content s file := by
  rw [run_snd_eq_stateAfter]
  exact h.content_eq s

/-- What was read of a file before any write to it is what it had at the beginning. -/
theorem content_of_read {bytes : List UInt8}
    (hes : p.exchanges fs.answer s = pre ++ ⟨.read name, .ok bytes⟩ :: post)
    (hpre : fs.Spared file pre) (hfile : fs.fileOf name = some file) :
    fs.content s file = some bytes := by
  have hreply := reply_of_exchanges (I := Files) fs.answer hes
  rw [← hpre.content_eq s]
  exact fs.read name _ bytes file hfile hreply.symm

/-- What was written to a file, with no write to it after that, is what it has at the end. -/
theorem content_of_written {buffer : Buffer}
    (hes : p.exchanges fs.answer s = pre ++ ⟨.write name buffer, .ok ()⟩ :: post)
    (hpost : fs.Spared file post) (hfile : fs.fileOf name = some file) :
    fs.content (p.run fs.answer s).2 file = some buffer.bytes.toList := by
  have hreply := reply_of_exchanges (I := Files) fs.answer hes
  have hlast : (p.run fs.answer s).2 = stateAfter fs.answer post
      (fs.answer (.write name buffer) (stateAfter fs.answer pre s)).2 := by
    rw [run_snd_eq_stateAfter, hes, stateAfter, List.foldl_append]
    rfl
  rw [hlast, hpost.content_eq]
  exact fs.written name buffer _ file hfile hreply.symm

end FileSystem

namespace Scripted

variable {κ β : Type} [BEq κ] [LawfulBEq κ]

theorem lookup_filter_ne {key other : κ} (h : other ≠ key) : ∀ entries : List (κ × β),
    (entries.filter (·.1 != key)).lookup other = entries.lookup other
  | [] => rfl
  | (key', value) :: entries => by
    by_cases hkey : key' = key
    · subst hkey
      have hne : (other == key') = false := beq_eq_false_iff_ne.2 h
      simp [List.lookup_cons, hne, lookup_filter_ne h entries]
    · simp [hkey, List.lookup_cons, lookup_filter_ne h entries]

namespace FileStore

def fileOf (path : String) : Option (Directory × String) :=
  match Place.ofPath path with
  | .file directory name => some (directory, name)
  | _ => none

theorem lookup_put (s : FileStore) (directory : Directory) (name : String) (content : List UInt8) :
    (s.put directory name content).files.lookup (directory, name) = some content := by
  simp [put]

theorem lookup_put_ne (s : FileStore) {directory : Directory} {name : String}
    {file : Directory × String} (h : file ≠ (directory, name)) (content : List UInt8) :
    (s.put directory name content).files.lookup file = s.files.lookup file := by
  have hne : (file == (directory, name)) = false := beq_eq_false_iff_ne.2 h
  simp only [put, List.lookup_cons, hne]
  exact lookup_filter_ne h s.files

theorem ofPath_of_fileOf {path name : String} {directory : Directory}
    (h : fileOf path = some (directory, name)) : Place.ofPath path = .file directory name := by
  unfold fileOf at h
  split at h
  · cases h
    assumption
  · cases h

/-- The store keeps its files as a file system does. -/
def fileSystem : FileSystem FileStore (Directory × String) where
  answer := answer
  fileOf := fileOf
  content s file := s.files.lookup file
  kept q s file h := by
    cases q with
    | write path content =>
      simp only [Files.Call.written?, Option.bind_some, fileOf] at h
      simp only [answer, write]
      rcases hplace : Place.ofPath path with directory | ⟨directory, name⟩ | device | _
      · rfl
      · rw [hplace] at h
        exact lookup_put_ne s (fun hfile => h (congrArg some hfile.symm)) _
      · cases device <;> rfl
      · rfl
    | _ => rfl
  read path s bytes file hfile hread := by
    obtain ⟨directory, name⟩ := file
    simp only [answer, read, ofPath_of_fileOf hfile] at hread
    split at hread
    · cases hread
      assumption
    · cases hread
  written path buffer s file hfile _ := by
    obtain ⟨directory, name⟩ := file
    simp only [answer, write, ofPath_of_fileOf hfile]
    exact lookup_put s directory name _

end FileStore

end Scripted

end Bootloader
