import Bootloader.Proofs.Uefi.Calls
import Bootloader.Proofs.Uefi.SizedQuery

/-!
# What the core was read from

The search for the core works on files, pages and the console (`onLoading_findCore`).  The image it
finds is in the pages that were allocated for it, and the one read that filled its buffer filled
them with it (`CoreRead`, `ensures_findCore`): no volume before the one that loaded was read in
full, and none after it was tried.
-/

namespace Bootloader.Uefi

open Program

/-- The call works on volumes and files, or handles memory for that. -/
def Call.IsLoading : Call → Prop
  | handleProtocol .. | locateHandleBuffer .. | load _ => True
  | openVolume _ | openFile .. | closeFile _ | fileInfo .. | fileRead .. => True
  | allocatePool .. | freePool _ | allocatePages .. | freePages .. => True
  | _ => False

/-- The call finds out the size of a file. -/
def Call.IsSizing : Call → Prop
  | fileInfo .. | load _ | allocatePool .. | freePool _ => True
  | _ => False

/-- The call works on this open file, or handles memory for that. -/
def Call.IsFillingOf (file : UInt64) : Call → Prop
  | fileInfo f .. | fileRead f .. => f = file
  | load _ | allocatePool .. | freePool _ | allocatePages .. | freePages .. => True
  | _ => False

/-- A read that filled all of the buffer it was given: the address and the number of bytes. -/
def fullRead? : Exchange Firmware → Option (UInt64 × UInt64)
  | ⟨.fileRead _ size address, got⟩ =>
    if got.status.isError = false ∧ got.value = size then some (address, size) else none
  | _ => none

/-- The image fills pages that were allocated for its bytes, and was read into them by the only read
that filled its buffer. -/
structure CoreRead (es : List (Exchange Firmware)) (image : CoreImage) : Prop where
  nonempty : image.size ≠ 0
  pages : image.pages.pages = pagesForBytes image.size
  reads : es.filterMap fullRead? = [(image.pages.address, image.size)]
  granted : ∃ es₁ status file got es₂, status.isError = false ∧
    es = es₁ ++ ⟨.allocatePages anyPages loaderCode (pagesForBytes image.size),
        (⟨status, image.pages.address⟩ : Answer UInt64)⟩ ::
      ⟨.fileRead file image.size image.pages.address, got⟩ :: es₂ ∧
    got.status.isError = false ∧ got.value = image.size

namespace CoreRead

variable {es es' : List (Exchange Firmware)} {image : CoreImage}

theorem append_left (h : CoreRead es image) (h' : es'.filterMap fullRead? = []) :
    CoreRead (es' ++ es) image where
  nonempty := h.nonempty
  pages := h.pages
  reads := by rw [List.filterMap_append, h', h.reads, List.nil_append]
  granted := by
    obtain ⟨es₁, status, file, got, es₂, hs, rfl, hg⟩ := h.granted
    exact ⟨es' ++ es₁, status, file, got, es₂, hs, (List.append_assoc ..).symm, hg⟩

theorem append_right (h : CoreRead es image) (h' : es'.filterMap fullRead? = []) :
    CoreRead (es ++ es') image where
  nonempty := h.nonempty
  pages := h.pages
  reads := by rw [List.filterMap_append, h', h.reads, List.append_nil]
  granted := by
    obtain ⟨es₁, status, file, got, es₂, hs, rfl, hg⟩ := h.granted
    exact ⟨es₁, status, file, got, es₂ ++ es', hs, by simp, hg⟩

end CoreRead

/-- What an attempt to load leaves: an image that was read, or no read in full. -/
def Attempted (es : List (Exchange Firmware)) : Option CoreImage → Prop
  | some image => CoreRead es image
  | none => es.filterMap fullRead? = []

namespace Attempted

variable {es es' : List (Exchange Firmware)} {image : Option CoreImage}

theorem append_left (h : Attempted es image) (h' : es'.filterMap fullRead? = []) :
    Attempted (es' ++ es) image := by
  cases image with
  | none => rw [Attempted, List.filterMap_append, h', h, List.append_nil]
  | some image => exact CoreRead.append_left h h'

theorem append_right (h : Attempted es image) (h' : es'.filterMap fullRead? = []) :
    Attempted (es ++ es') image := by
  cases image with
  | none => rw [Attempted, List.filterMap_append, h', h, List.append_nil]
  | some image => exact CoreRead.append_right h h'

theorem cons {e : Exchange Firmware} (h : Attempted es image) (he : fullRead? e = none) :
    Attempted (e :: es) image := by
  rw [← List.singleton_append]
  exact h.append_left (List.filterMap_cons_none he)

theorem concat {e : Exchange Firmware} (h : Attempted es image) (he : fullRead? e = none) :
    Attempted (es ++ [e]) image :=
  h.append_right (List.filterMap_cons_none he)

end Attempted

/-- An image that was just read into fresh pages. -/
theorem coreRead_of_granted {file size : UInt64} {granted got : Answer UInt64} (h0 : size ≠ 0)
    (hs : granted.status.isError = false) (hg : got.status.isError = false)
    (hv : got.value = size) :
    CoreRead [⟨.allocatePages anyPages loaderCode (pagesForBytes size), granted⟩,
      ⟨.fileRead file size granted.value, got⟩]
        ⟨⟨granted.value, pagesForBytes size⟩, size⟩ where
  nonempty := h0
  pages := rfl
  reads := by
    have hread : fullRead? ⟨.fileRead file size granted.value, got⟩ =
        some (granted.value, size) :=
      if_pos ⟨hg, hv⟩
    rw [List.filterMap_cons_none rfl, List.filterMap_cons_some hread, List.filterMap_nil]
  granted := ⟨[], granted.status, file, got, [], hs, rfl, hg, hv⟩

/-- The action does not read files. -/
abbrev Unread {α : Type} (p : Action α) : Prop :=
  p.Only fun q : Call => ∀ r, fullRead? ⟨q, r⟩ = none

theorem Unread.ensures {α : Type} {p : Action α} {A : Exchange Firmware → Prop} (hp : Unread p) :
    p.Ensures A fun es _ => es.filterMap fullRead? = [] :=
  hp.filterMap_eq_nil fun e he => he e.2

theorem unread_of_onConsole {α : Type} {p : Action α} (hp : OnConsole p) : Unread p :=
  hp.mono fun q hq r => by
    cases q <;> first | rfl | exact hq.elim

namespace Services

variable {efi : Services}

theorem only_fileInfo {P : Call → Prop} (hl : efi.live = true) (file : UInt64)
    (hP : ∀ q : Call, q.IsSizing → q.IsFillingOf file → P q) : (efi.fileInfo file).Only P := by
  have hquery : ∀ (size buffer : UInt64) (s : Unit),
      (do return (← perform (.fileInfo file .fileInfo size buffer), ()) :
        Action (Answer UInt64 × Unit)).Only P :=
    fun size buffer _ =>
      (only_perform (hP (.fileInfo file .fileInfo size buffer) trivial rfl)).bind fun _ => only_done
  have hallocate : ∀ kind size, P (.allocatePool kind size) := fun _ _ => hP _ trivial trivial
  have hfree : ∀ buffer, P (.freePool buffer) := fun _ => hP _ trivial trivial
  refine ((SizedQuery.ensures_sizedQuery fileInfoRoom).only.via
    (fun q s _ => only_measured hl hallocate hfree hquery q s) ()).bind ?_
  rintro ⟨outcome, -⟩
  cases outcome <;> trivial

theorem only_fileSize {P : Call → Prop} (hl : efi.live = true) (file : UInt64)
    (hP : ∀ q : Call, q.IsSizing → q.IsFillingOf file → P q) : (efi.fileSize file).Only P := by
  refine (only_fileInfo hl file hP).bind fun record => ?_
  split
  · trivial
  have hfree : (efi.free record).Only P :=
    (only_call hl (hP (.freePool record) trivial trivial)).bind fun _ => only_done
  exact (only_perform (hP (.load _) trivial trivial)).bind fun size => hfree.bind fun _ => only_done

theorem unread_fileSize (hl : efi.live = true) (file : UInt64) : Unread (efi.fileSize file) :=
  only_fileSize hl file fun q hq _ r => by
    cases q <;> first | rfl | exact hq.elim

variable {A : Exchange Firmware → Prop}

/-- A file that was loaded was read in full, and into pages of its own. -/
theorem ensures_loadOpenFile (hl : efi.live = true) (file : UInt64) :
    (efi.loadOpenFile file {}).Ensures A fun es x =>
      Attempted es (x.1.toOption.map fun size => ⟨x.2, size⟩) := by
  refine (unread_fileSize hl file).ensures.bind fun es size hes => ?_
  cases size with
  | none => exact ensures_done.2 (Attempted.append_left rfl hes)
  | some size =>
    dsimp only
    by_cases h0 : size = 0
    · rw [if_pos h0]
      exact ensures_done.2 (Attempted.append_left rfl hes)
    rw [if_neg h0]
    refine (ensures_replacePages hl {} _).bind ?_
    rintro _ _ ⟨granted, ⟨-, rfl, rfl⟩ | ⟨hgranted, rfl, dropped, rfl, hd⟩⟩
    · exact ensures_done.2 (Attempted.append_left rfl hes)
    obtain rfl : dropped = [] := List.map_eq_nil_iff.1 hd
    refine ensures_request.2 fun got _ => ?_
    by_cases hg : got.status.isError = true
    · rw [if_pos hg]
      refine ensures_done.2 (Attempted.append_left ?_ hes)
      simp [Attempted, Except.toOption, fullRead?, hg]
    rw [if_neg hg]
    by_cases hv : got.value = size
    · rw [if_pos hv]
      exact ensures_done.2 (Attempted.append_left
        (coreRead_of_granted h0 hgranted (by simpa using hg) hv) hes)
    · rw [if_neg hv]
      refine ensures_done.2 (Attempted.append_left ?_ hes)
      simp [Attempted, Except.toOption, fullRead?, hv]

theorem ensures_loadFromRoot (hl : efi.live = true) (root : UInt64) (path : String) :
    (efi.loadFromRoot root path {}).Ensures A fun es x =>
      Attempted es (x.1.toOption.map fun size => ⟨x.2, size⟩) := by
  refine ensures_request.2 fun file _ => ?_
  split
  · exact ensures_done.2 rfl
  refine (ensures_loadOpenFile hl file.value).bind fun es x hx => ?_
  exact ensures_request.2 fun _ _ => ensures_done.2 ((hx.concat rfl).cons rfl)

theorem ensures_loadFile (hl : efi.live = true) (device : UInt64) (path : String) :
    (efi.loadFile device path {}).Ensures A fun es x =>
      Attempted es (x.1.toOption.map fun size => ⟨x.2, size⟩) := by
  rw [loadFile, call_eq_of_live hl]
  refine ensures_request.2 fun fileSystem _ => ?_
  split
  · exact ensures_done.2 rfl
  refine ensures_request.2 fun root _ => ?_
  split
  · exact ensures_done.2 rfl
  refine (ensures_loadFromRoot hl root.value path).bind fun es x hx => ?_
  exact ensures_request.2 fun _ _ => ensures_done.2 (((hx.concat rfl).cons rfl).cons rfl)

theorem only_dropPages {P : Call → Prop} (hl : efi.live = true) {run : PageRun}
    (h : ∀ address pages, P (.freePages address pages)) : (efi.dropPages run).Only P := by
  unfold dropPages
  split
  · exact (only_call hl (h _ _)).bind fun _ => only_done
  · trivial

theorem unread_dropPages (hl : efi.live = true) (run : PageRun) : Unread (efi.dropPages run) :=
  only_dropPages hl fun _ _ _ => rfl

theorem unread_free (hl : efi.live = true) (buffer : UInt64) : Unread (efi.free buffer) :=
  (only_call hl fun _ => rfl).bind fun _ => only_done

theorem ensures_tryVolume (hl : efi.live = true) (handles number : UInt64) (path : String) :
    (efi.tryVolume handles number path).Ensures A Attempted := by
  have hprint : ∀ text, (efi.print text).Ensures A fun es _ => es.filterMap fullRead? = [] :=
    fun text => (unread_of_onConsole (onConsole_print hl text)).ensures
  refine (hprint _).bind fun es₁ _ h₁ => (hprint _).bind fun es₂ _ h₂ => ?_
  refine (hprint _).bind fun es₃ _ h₃ => ensures_request.2 fun device _ => ?_
  refine (ensures_loadFile hl device path).bind fun es₄ ⟨result, run⟩ h₄ => ?_
  have hbefore : ∀ es image, Attempted (es₄ ++ es) image →
      Attempted (es₁ ++ (es₂ ++ (es₃ ++ ⟨.load (handles + 8 * number), device⟩ :: (es₄ ++ es))))
        image :=
    fun es image h => (((h.cons rfl).append_left h₃).append_left h₂).append_left h₁
  cases result with
  | ok size =>
    refine (hprint _).bind fun es₅ _ h₅ => (hprint _).bind fun es₆ _ h₆ => ?_
    refine (hprint _).bind fun es₇ _ h₇ => ensures_done.2 (hbefore _ _ ?_)
    exact h₄.append_right (by simp [h₅, h₆, h₇])
  | error failure =>
    refine (unread_of_onConsole (onConsole_explain hl failure)).ensures.bind fun es₅ _ h₅ => ?_
    refine (hprint _).bind fun es₆ _ h₆ => ?_
    refine (unread_dropPages hl run).ensures.bind fun es₇ _ h₇ => ?_
    refine ensures_done.2 (hbefore _ _ ?_)
    exact h₄.append_right (by simp [h₅, h₆, h₇])

/-- The search stops at the first volume that loads. -/
theorem ensures_tryVolumes (hl : efi.live = true) (handles : UInt64) (path : String) :
    ∀ left number, (efi.tryVolumes handles path left number).Ensures A Attempted
  | 0, _ => ensures_done.2 rfl
  | left + 1, number => by
    refine (ensures_tryVolume hl handles number path).bind fun es image h => ?_
    cases image with
    | some image => exact ensures_done.2 (by rwa [List.append_nil])
    | none =>
      exact (ensures_tryVolumes hl handles path left (number + 1)).mono
        fun es' image' h' => h'.append_left h

theorem isError_notFound : Status.notFound.isError = true := by decide

/-- A core that was found was read in full from the first volume that loaded. -/
theorem ensures_findCore (hl : efi.live = true) (path : String) :
    (efi.findCore path {}).Ensures A fun es x =>
      Attempted es (if x.1.isError then none else some x.2) := by
  rw [findCore, call_eq_of_live hl]
  refine ensures_request.2 fun handles _ => ?_
  split
  · refine (unread_of_onConsole (onConsole_print hl _)).ensures.bind fun es _ h => ?_
    refine ensures_done.2 ?_
    rw [if_pos isError_notFound, List.append_nil]
    exact Attempted.cons h rfl
  refine (ensures_tryVolumes hl handles.value.buffer path _ 0).bind fun es found h => ?_
  cases found with
  | none =>
    refine (unread_free hl _).ensures.bind fun es' _ h' => ensures_done.2 ?_
    rw [if_pos isError_notFound, List.append_nil]
    exact (h.append_right h').cons rfl
  | some found =>
    refine (unread_dropPages hl _).ensures.bind fun es₁ _ h₁ => ?_
    refine (unread_free hl _).ensures.bind fun es₂ _ h₂ => ensures_done.2 ?_
    have hafter : Attempted (es ++ (es₁ ++ (es₂ ++ []))) (some found) :=
      h.append_right (by simp [h₁, h₂])
    rw [if_neg (by simp [Status.isError_success])]
    exact hafter.cons rfl

section Loading

/-- The action looks for a file and does nothing else. -/
abbrev Loads {α : Type} (p : Action α) : Prop := p.Only Call.IsLoading

/-- The action looks for a file, and may show something. -/
abbrev OnLoading {α : Type} (p : Action α) : Prop :=
  p.Only fun q : Call => q.IsLoading ∨ q.IsConsole

theorem onLoading_dropPages (hl : efi.live = true) (run : PageRun) :
    OnLoading (efi.dropPages run) :=
  only_dropPages hl fun _ _ => .inl trivial

theorem loads_free (hl : efi.live = true) (buffer : UInt64) : Loads (efi.free buffer) :=
  (only_call hl trivial).bind fun _ => only_done

theorem only_replacePages {P : Call → Prop} (hl : efi.live = true) (old : PageRun) (pages : UInt64)
    (hallocate : P (.allocatePages anyPages loaderCode pages))
    (hfree : ∀ address pages, P (.freePages address pages)) :
    (efi.replacePages old pages).Only P := by
  have hpages : (efi.allocatePages pages).Only P :=
    (only_call hl hallocate).bind fun _ => only_done
  refine hpages.bind fun run => ?_
  cases run with
  | none => trivial
  | some run => exact (only_dropPages hl hfree).bind fun _ => only_done

/-- A load works on the file it was given and on no other. -/
theorem only_loadOpenFile (hl : efi.live = true) (file : UInt64) (pages : PageRun) :
    (efi.loadOpenFile file pages).Only (Call.IsFillingOf file) := by
  refine (only_fileSize hl file fun _ _ h => h).bind fun size => ?_
  cases size with
  | none => trivial
  | some size =>
    dsimp only
    split
    · trivial
    refine (only_replacePages hl pages _ trivial fun _ _ => trivial).bind fun run => ?_
    cases run with
    | none => trivial
    | some run =>
      have hread : (fileRead file size run.address).Only (Call.IsFillingOf file) := only_perform rfl
      refine hread.bind fun got => ?_
      split
      · trivial
      split <;> trivial

theorem loads_loadOpenFile (hl : efi.live = true) (file : UInt64) (pages : PageRun) :
    Loads (efi.loadOpenFile file pages) :=
  (only_loadOpenFile hl file pages).mono fun q hq => by
    cases q <;> trivial

theorem loads_loadFile (hl : efi.live = true) (device : UInt64) (path : String)
    (pages : PageRun) : Loads (efi.loadFile device path pages) := by
  have hroot : ∀ root, Loads (efi.loadFromRoot root path pages) := by
    refine fun root => (only_perform trivial).bind fun file => ?_
    split
    · trivial
    · exact (loads_loadOpenFile hl _ pages).bind fun _ =>
        (only_perform trivial).bind fun _ => only_done
  refine (only_call hl trivial).bind fun fileSystem => ?_
  split
  · trivial
  refine (only_perform trivial).bind fun root => ?_
  split
  · trivial
  · exact (hroot _).bind fun _ => (only_perform trivial).bind fun _ => only_done

section Search

variable {P : Call → Prop} (hl : efi.live = true) (hload : ∀ q : Call, q.IsLoading → P q)
variable (hshow : ∀ q : Call, q.IsShown → P q)

include hl hload hshow

theorem only_tryVolume (handles number : UInt64) (path : String) :
    (efi.tryVolume handles number path).Only P := by
  have hprint : ∀ text, (efi.print text).Only P := fun text => (shows_print hl text).mono hshow
  refine (hprint _).bind fun _ => (hprint _).bind fun _ => (hprint _).bind fun _ => ?_
  refine (only_perform (hload (.load _) trivial)).bind fun device => ?_
  refine ((loads_loadFile hl device path {}).mono hload).bind fun ⟨result, run⟩ => ?_
  cases result with
  | ok size =>
    exact (hprint _).bind fun _ => (hprint _).bind fun _ => (hprint _).bind fun _ => only_done
  | error failure =>
    exact ((shows_explain hl failure).mono hshow).bind fun _ => (hprint _).bind fun _ =>
      (only_dropPages hl fun _ _ => hload _ trivial).bind fun _ => only_done

theorem only_tryVolumes (handles : UInt64) (path : String) :
    ∀ left number, (efi.tryVolumes handles path left number).Only P
  | 0, _ => only_done
  | left + 1, number => by
    refine (only_tryVolume hl hload hshow handles number path).bind fun image => ?_
    cases image with
    | some image => exact only_done
    | none => exact only_tryVolumes handles path left (number + 1)

theorem only_findCore (path : String) (image : CoreImage) : (efi.findCore path image).Only P := by
  refine (only_call hl (hload (.locateHandleBuffer _ _) trivial)).bind fun handles => ?_
  split
  · exact ((shows_print hl _).mono hshow).bind fun _ => only_done
  refine (only_tryVolumes hl hload hshow _ path _ 0).bind fun found => ?_
  cases found with
  | none => exact ((loads_free hl _).mono hload).bind fun _ => only_done
  | some found =>
    exact (only_dropPages hl fun _ _ => hload _ trivial).bind fun _ =>
      ((loads_free hl _).mono hload).bind fun _ => only_done

end Search

theorem onLoading_findCore (hl : efi.live = true) (path : String) (image : CoreImage) :
    OnLoading (efi.findCore path image) :=
  only_findCore hl (fun _ => .inl) (fun _ h => .inr h.isConsole) path image

end Loading

end Services

end Bootloader.Uefi
