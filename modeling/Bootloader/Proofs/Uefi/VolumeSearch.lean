import Bootloader.Proofs.Uefi.FileLoad

/-!
# The search of the volumes

An attempt announces a volume, loads the file from it and reports on it (`VolumeTried`), and has
found an image just if every step of the load passes (`VolumeTried.passes_iff`).  Whatever comes of
it, the volumes and files that it has opened are closed at its end (`VolumeTried.closed`), and
nothing is held but the pages of the image, if one was found.

A search is a list of attempts on one volume after the other, of which none but the last has found
anything (`Tried`).  So it finds the image on the first volume that passes every step, and nothing
of a volume that did not pass is left when the next attempt begins (`coreSearched_of_runs`).
-/

namespace Bootloader.Uefi

open Program

/-- The volume or the file that was opened, if it was. -/
def objectOf (got : Answer UInt64) : Multiset UInt64 :=
  if got.status.isError || got.value == 0 then 0 else {got.value}

/-- The volumes and files that are opened, and those that are closed. -/
def opening : Lending Firmware UInt64 where
  lent
    | ⟨.openVolume _, got⟩ => objectOf got
    | ⟨.openFile .., got⟩ => objectOf got
    | _ => 0
  returned
    | .closeFile file => {file}
    | _ => 0

theorem Answer.IsObject.objectOf_eq {got : Answer UInt64} (h : got.IsObject) :
    objectOf got = {got.value} := if_neg ((Answer.isObject_iff got).1 h)

theorem objectOf_eq_zero {got : Answer UInt64} (h : ¬got.IsObject) : objectOf got = 0 :=
  if_pos (not_not.1 (mt (Answer.isObject_iff got).2 h))

/-- The call opens or closes a volume or a file. -/
def Call.IsOpening : Call → Prop
  | openVolume _ | openFile .. | closeFile _ => True
  | _ => False

theorem closed_of_not_isOpening {es : List (Exchange Firmware)} {held : Multiset UInt64}
    (h : ∀ e ∈ es, ¬e.1.IsOpening) : Ledger opening held es held := by
  refine Ledger.of_idle ?_
  rintro ⟨q, r⟩ he
  have hq := h _ he
  cases q <;> first | exact ⟨rfl, rfl⟩ | exact (hq trivial).elim

theorem closed_close {es : List (Exchange Firmware)} {held after : Multiset UInt64}
    (h : Ledger opening held es after) (file : UInt64) :
    Ledger opening (held + {file}) (⟨.closeFile file, ()⟩ :: es) after :=
  Ledger.cons_returned (e := (⟨.closeFile file, ()⟩ : Exchange Firmware)) rfl h

/-- A load closes what it has opened. -/
theorem FileLoaded.closed {device : UInt64} {path : String} {pages : PageRun}
    {es : List (Exchange Firmware)} {x : Except LoadFailure UInt64 × PageRun}
    (h : FileLoaded device path pages es x) : Ledger opening 0 es 0 := by
  cases h with
  | noFileSystem h => exact .cons_idle rfl rfl (.nil 0)
  | cannotOpenVolume hf h => exact .cons_idle rfl rfl (.cons_idle (objectOf_eq_zero h) rfl (.nil 0))
  | @cannotOpenFile fileSystem root file hf hr h =>
    refine .cons_idle rfl rfl (.cons_lent rfl ?_)
    rw [show opening.lent ⟨.openVolume fileSystem.value, root⟩ = {root.value} from hr.objectOf_eq]
    exact .cons_idle (objectOf_eq_zero h) rfl (closed_close (.nil 0) _)
  | @opened fileSystem root file es x hf hr ho h =>
    have hfilling : ∀ q : Call, q.IsFilling → ¬q.IsOpening := by
      intro q hq
      cases q <;> first | exact id | exact hq.elim
    have hes : Ledger opening (0 + {root.value} + {file.value}) es (0 + {root.value} + {file.value}) :=
      closed_of_not_isOpening fun e he => hfilling e.1 (h.isFilling e he)
    refine .cons_idle rfl rfl (.cons_lent rfl ?_)
    rw [show opening.lent ⟨.openVolume fileSystem.value, root⟩ = {root.value} from hr.objectOf_eq]
    refine .cons_lent rfl ?_
    rw [show opening.lent ⟨.openFile root.value path readMode 0, file⟩ = {file.value} from
      ho.objectOf_eq]
    exact hes.append (closed_close (closed_close (.nil 0) _) _)

/-- The text on the console. -/
def shown (text : String) : List (Exchange Firmware) := [⟨.outputString text, ()⟩]

theorem isConsole_shown (text : String) : ∀ e ∈ shown text, e.1.IsConsole := by
  intro e he
  rw [List.mem_singleton.1 he]
  trivial

/-- What is said before the attempt on a volume. -/
def announced (number : UInt64) : List (Exchange Firmware) :=
  shown "Volume " ++ (shown (decimal number) ++ shown ": ")

/-- The exchanges of the attempt on a volume of a list of handles, and what it has found. -/
inductive VolumeTried (handles number : UInt64) (path : String) :
    List (Exchange Firmware) → Option CoreImage → Prop where
  | loaded {device size : UInt64} {run : PageRun} {es : List (Exchange Firmware)}
      (h : FileLoaded device path {} es (.ok size, run)) :
    VolumeTried handles number path
      (announced number ++ ⟨.load (handles + 8 * number), device⟩ :: (es ++
        (shown "loaded " ++ (shown (decimal size) ++ shown " bytes\r\n"))))
      (some ⟨run, size⟩)
  | failed {device : UInt64} {failure : LoadFailure} {run : PageRun}
      {es report dropped : List (Exchange Firmware)}
      (h : FileLoaded device path {} es (.error failure, run))
      (hr : ∀ e ∈ report, e.1.IsConsole) (hd : dropped.map (·.1) = run.dropCalls) :
    VolumeTried handles number path
      (announced number ++ ⟨.load (handles + 8 * number), device⟩ :: (es ++ (report ++ dropped)))
      none

/-- Every step of the attempt on a volume passes, and the image is what it has found. -/
def Passes (handles number : UInt64) (path : String) (es : List (Exchange Firmware))
    (image : CoreImage) : Prop :=
  ∃ device rest, es = announced number ++ ⟨.load (handles + 8 * number), device⟩ :: rest ∧
    ∃ s : LoadSteps, s.Pass device path rest ∧ s.image = image

theorem not_isStep_of_isConsole {q : Call} (h : q.IsConsole) : ¬q.IsStep := by
  cases q <;> first | exact id | exact h.elim

namespace VolumeTried

variable {handles number : UInt64} {path : String} {es : List (Exchange Firmware)}
variable {found : Option CoreImage}

theorem closed (h : VolumeTried handles number path es found) : Ledger opening 0 es 0 := by
  have hshown : ∀ text, Ledger opening 0 (shown text) 0 := fun text =>
    .cons_idle rfl rfl (.nil 0)
  have hannounced : Ledger opening 0 (announced number) 0 :=
    (hshown _).append ((hshown _).append (hshown _))
  cases h with
  | loaded h =>
    exact hannounced.append (.cons_idle rfl rfl (h.closed.append
      ((hshown _).append ((hshown _).append (hshown _)))))
  | failed h hr hd =>
    refine hannounced.append (.cons_idle rfl rfl (h.closed.append ?_))
    have hreport : ∀ q : Call, q.IsConsole → ¬q.IsOpening := by
      intro q hq
      cases q <;> first | exact id | exact hq.elim
    refine closed_of_not_isOpening (List.forall_mem_append.2
      ⟨fun e he => hreport e.1 (hr e he), fun e he => ?_⟩)
    rw [PageRun.exists_of_mem_dropped hd he]
    exact id

/-- An attempt has found an image just if all its steps pass. -/
theorem passes_iff (h : VolumeTried handles number path es found) (image : CoreImage) :
    Passes handles number path es image ↔ found = some image := by
  constructor
  · rintro ⟨device, rest, hes, s, hs, rfl⟩
    cases h with
    | loaded h =>
      obtain ⟨hdevice, rfl⟩ := List.cons.inj (List.append_cancel_left hes)
      simp at hdevice
      have hpass : s.Pass device path _ := hs.mono fun e he hstep => by
        simp only [shown, List.mem_append, List.mem_singleton] at he
        rcases he with he | rfl | rfl | rfl <;> first | exact he | exact hstep.elim
      cases (hdevice ▸ h).pass_iff s.image |>.1 ⟨s, hpass, rfl⟩
      rfl
    | failed h hr hd =>
      obtain ⟨hdevice, rfl⟩ := List.cons.inj (List.append_cancel_left hes)
      simp at hdevice
      have hpass : s.Pass device path _ := hs.mono fun e he hstep => by
        simp only [List.mem_append] at he
        rcases he with he | he | he
        · exact he
        · exact (not_isStep_of_isConsole (hr e he) hstep).elim
        · rw [PageRun.exists_of_mem_dropped hd he] at hstep
          exact hstep.elim
      cases (hdevice ▸ h).pass_iff s.image |>.1 ⟨s, hpass, rfl⟩
  · rintro rfl
    cases h with
    | @loaded device size run es h =>
      obtain ⟨s, hs, hi⟩ := (h.pass_iff ⟨run, size⟩).2 rfl
      exact ⟨device, _, rfl, s, hs.mono fun e he _ => by simp [he], hi⟩

end VolumeTried

/-- One attempt of a search: how it goes, and that it leaves nothing but the pages of an image. -/
structure VolumeAttempt (handles number : UInt64) (path : String) (es : List (Exchange Firmware))
    (found : Option CoreImage) : Prop where
  tried : VolumeTried handles number path es found
  owned : Ledger lending 0 es (Services.imageOf found)
  closed : Ledger opening 0 es 0

/-- The attempts on the volumes from `number` on, of which `left` are left. -/
inductive Tried (handles : UInt64) (path : String) :
    (left : Nat) → (number : UInt64) → List (List (Exchange Firmware)) → Option CoreImage → Prop
  | exhausted {number : UInt64} : Tried handles path 0 number [] none
  | found {left : Nat} {number : UInt64} {es : List (Exchange Firmware)} {image : CoreImage}
      (h : VolumeAttempt handles number path es (some image)) :
    Tried handles path (left + 1) number [es] (some image)
  | next {left : Nat} {number : UInt64} {es : List (Exchange Firmware)}
      {attempts : List (List (Exchange Firmware))} {found : Option CoreImage}
      (h : VolumeAttempt handles number path es none)
      (ht : Tried handles path left (number + 1) attempts found) :
    Tried handles path (left + 1) number (es :: attempts) found

namespace Services

variable {efi : Services} {A : Exchange Firmware → Prop}

theorem ensures_print (hl : efi.live = true) (text : String) :
    (efi.print text).Ensures A fun es _ => es = shown text := by
  rw [print, call_eq_of_live hl]
  exact ensures_request.2 fun _ _ => ensures_done.2 rfl

theorem ensures_volumeTried (hl : efi.live = true) (handles number : UInt64) (path : String) :
    (efi.tryVolume handles number path).Ensures A (VolumeTried handles number path) := by
  refine (ensures_print hl _).bind ?_
  rintro _ _ rfl
  refine (ensures_print hl _).bind ?_
  rintro _ _ rfl
  refine (ensures_print hl _).bind ?_
  rintro _ _ rfl
  refine ensures_request.2 fun device _ => ?_
  refine (ensures_fileLoaded hl device path {}).bind fun es ⟨result, run⟩ h => ?_
  cases result with
  | ok size =>
    refine (ensures_print hl _).bind ?_
    rintro _ _ rfl
    refine (ensures_print hl _).bind ?_
    rintro _ _ rfl
    refine (ensures_print hl _).bind ?_
    rintro _ _ rfl
    have htried : VolumeTried handles number path _ _ := .loaded h
    exact ensures_done.2 (by simpa [announced] using htried)
  | error failure =>
    refine (onConsole_explain hl failure).ensures.bind fun report _ hr => ?_
    refine (ensures_print hl _).bind ?_
    rintro _ _ rfl
    refine (ensures_dropPages hl run).bind fun dropped _ hd => ?_
    have hr' : ∀ e ∈ report ++ shown "\r\n", e.1.IsConsole :=
      List.forall_mem_append.2 ⟨hr, isConsole_shown _⟩
    have htried : VolumeTried handles number path _ _ := .failed h hr' hd
    exact ensures_done.2 (by simpa [announced] using htried)

theorem ensures_attempt (hl : efi.live = true) (handles number : UInt64) (path : String) :
    (efi.tryVolume handles number path).Ensures A (VolumeAttempt handles number path) :=
  ((ensures_volumeTried hl handles number path).and
    (balances_tryVolume hl handles number path).ensures).mono
      fun _ _ h => ⟨h.1, h.2, h.1.closed⟩

theorem ensures_tried (hl : efi.live = true) (handles : UInt64) (path : String) :
    ∀ left number, (efi.tryVolumes handles path left number).Ensures A fun es found =>
      ∃ attempts, es = attempts.flatten ∧ Tried handles path left number attempts found
  | 0, _ => ensures_done.2 ⟨[], rfl, .exhausted⟩
  | left + 1, number => by
    refine (ensures_attempt hl handles number path).bind fun es found h => ?_
    cases found with
    | some image => exact ensures_done.2 ⟨[es], by simp, .found h⟩
    | none =>
      refine (ensures_tried hl handles path left (number + 1)).mono ?_
      rintro _ found ⟨attempts, rfl, ht⟩
      exact ⟨es :: attempts, rfl, .next h ht⟩

end Services

namespace Tried

variable {handles number : UInt64} {path : String} {left : Nat}
variable {attempts : List (List (Exchange Firmware))} {found : Option CoreImage}

theorem length_le (h : Tried handles path left number attempts found) :
    attempts.length ≤ left := by
  induction h with
  | exhausted => exact Nat.le_refl 0
  | found h => simp
  | next h ht ih => exact Nat.succ_le_succ ih

theorem length_eq_of_none (h : Tried handles path left number attempts none) :
    attempts.length = left := by
  generalize hf : (none : Option CoreImage) = found at h
  induction h with
  | exhausted => rfl
  | found h => cases hf
  | next h ht ih => exact congrArg (· + 1) (ih hf)

/-- The attempts are on one volume after the other, and only the last one finds anything. -/
theorem attempt (h : Tried handles path left number attempts found) :
    ∀ i (hi : i < attempts.length), VolumeAttempt handles (number + UInt64.ofNat i) path attempts[i]
      (if i + 1 = attempts.length then found else none) := by
  induction h with
  | exhausted => simp
  | found h =>
    intro i hi
    obtain rfl : i = 0 := by simpa using hi
    simpa using h
  | @next left number es attempts found h ht ih =>
    rintro (_ | i) hi
    · have hnone : (if 0 + 1 = (es :: attempts).length then found else none) = none := by
        cases ht <;> simp
      rw [hnone]
      simpa using h
    · have hi' : i < attempts.length := Nat.lt_of_succ_lt_succ hi
      have hnumber : number + UInt64.ofNat (i + 1) = number + 1 + UInt64.ofNat i := by
        rw [UInt64.ofNat_add, UInt64.add_assoc, UInt64.add_comm (UInt64.ofNat i)]
        rfl
      rw [hnumber]
      simpa using ih i hi'

theorem ne_nil_of_some {image : CoreImage}
    (h : Tried handles path left number attempts (some image)) : attempts ≠ [] := by
  cases h <;> simp

end Tried

/-- The call for the volumes, and what it answers. -/
def listed (handles : Answer HandleList) : Exchange Firmware :=
  ⟨.locateHandleBuffer byProtocol .simpleFileSystem, handles⟩

/-- The search of the volumes of a list of handles: its attempts, what it calls after the last of
them, and how it ends. -/
structure VolumesSearched (path : String) (image : CoreImage) (handles : Answer HandleList)
    (attempts : List (List (Exchange Firmware))) (closing : List (Exchange Firmware))
    (status : Status) (final : CoreImage) : Prop where
  within : attempts.length ≤ handles.value.count.toNat
  inOrder : ∀ i (hi : i < attempts.length), ∃ found,
    VolumeTried handles.value.buffer (UInt64.ofNat i) path attempts[i] found
  afterFailures : ∀ i (hi : i + 1 < attempts.length) found,
    ¬Passes handles.value.buffer (UInt64.ofNat i) path attempts[i] found
  success_iff : status = .success ↔ ∃ (i : Nat) (hi : i < attempts.length) (found : CoreImage),
    Passes handles.value.buffer (UInt64.ofNat i) path attempts[i] found
  found : status = .success → ∃ (i : Nat) (hi : i + 1 = attempts.length),
    Passes handles.value.buffer (UInt64.ofNat i) path attempts[i] final
  notFound : status ≠ .success →
    status = .notFound ∧ final = image ∧ attempts.length = handles.value.count.toNat
  closing : closing.map (·.1) =
    (if status = .success then image.pages.dropCalls else []) ++ [.freePool handles.value.buffer]
  clean : ∀ k < attempts.length,
    Ledger lending (pagesOf image.pages) (listed handles :: (attempts.take k).flatten)
        (pagesOf image.pages + bufferOf handles.value.buffer) ∧
      Ledger opening 0 (listed handles :: (attempts.take k).flatten) 0

/-- All that a search for the core can be. -/
inductive CoreSearched (efi : Services) (path : String) (image : CoreImage) :
    List (Exchange Firmware) → Option (Status × CoreImage) → Prop where
  | misused (hl : efi.live = false) :
    CoreSearched efi path image [⟨.debugWrite Services.misuse, ()⟩, ⟨.halt, ()⟩] none
  | noVolumes {handles : Answer HandleList} (hl : efi.live = true)
      (h : handles.status.isError = true ∨ handles.value.buffer = 0) :
    CoreSearched efi path image (listed handles :: shown "No file system volumes found.\r\n")
      (some (.notFound, image))
  | searched {handles : Answer HandleList} {attempts : List (List (Exchange Firmware))}
      {closing : List (Exchange Firmware)} {status : Status} {final : CoreImage}
      (hl : efi.live = true) (hs : handles.status.isError = false)
      (hb : handles.value.buffer ≠ 0)
      (h : VolumesSearched path image handles attempts closing status final) :
    CoreSearched efi path image (listed handles :: (attempts.flatten ++ closing))
      (some (status, final))

section Search

variable {path : String} {image : CoreImage} {handles : Answer HandleList}
variable {attempts : List (List (Exchange Firmware))} {found : Option CoreImage}

/-- Each attempt begins with nothing of those before it. -/
theorem Tried.clean (h : Tried handles.value.buffer path handles.value.count.toNat 0 attempts found)
    (hs : handles.status.isError = false) {k : Nat} (hk : k < attempts.length) :
    Ledger lending (pagesOf image.pages) (listed handles :: (attempts.take k).flatten)
        (pagesOf image.pages + bufferOf handles.value.buffer) ∧
      Ledger opening 0 (listed handles :: (attempts.take k).flatten) 0 := by
  have hbefore : ∀ es ∈ attempts.take k, Ledger lending 0 es 0 ∧ Ledger opening 0 es 0 := by
    intro es hes
    obtain ⟨i, hi, rfl⟩ := List.mem_take_iff_getElem.1 hes
    have hattempt := h.attempt i (by omega)
    rw [if_neg (by omega)] at hattempt
    exact ⟨hattempt.owned, hattempt.closed⟩
  constructor
  · refine .cons_lent rfl ?_
    rw [listed, lent_locateHandleBuffer, hs, if_neg (by simp)]
    exact Ledger.flatten (fun es hes => (hbefore es hes).1) _
  · exact .cons_idle rfl rfl (Ledger.flatten (fun es hes => (hbefore es hes).2) _)

theorem Tried.volumesSearched
    (h : Tried handles.value.buffer path handles.value.count.toNat 0 attempts found)
    (hs : handles.status.isError = false) {closing : List (Exchange Firmware)}
    (hclosing : closing.map (·.1) =
      (if found.isSome then image.pages.dropCalls else []) ++ [.freePool handles.value.buffer]) :
    VolumesSearched path image handles attempts closing
      (if found.isSome then .success else .notFound) (found.getD image) := by
  have hattempt : ∀ i (hi : i < attempts.length),
      VolumeTried handles.value.buffer (UInt64.ofNat i) path attempts[i]
        (if i + 1 = attempts.length then found else none) := by
    intro i hi
    have htried := (h.attempt i hi).tried
    rwa [UInt64.zero_add] at htried
  have hpasses : ∀ i (hi : i < attempts.length) image,
      Passes handles.value.buffer (UInt64.ofNat i) path attempts[i] image ↔
        i + 1 = attempts.length ∧ found = some image := by
    intro i hi image
    rw [(hattempt i hi).passes_iff image]
    split <;> simp [*]
  have hstatus : (if found.isSome then Status.success else .notFound) = .success ↔
      ∃ image, found = some image := by
    cases found with
    | none => simpa using (by decide : Status.notFound ≠ .success)
    | some image => simp
  refine ⟨h.length_le, fun i hi => ⟨_, hattempt i hi⟩, ?_, ?_, ?_, ?_, ?_, fun k hk => h.clean hs hk⟩
  · intro i hi image hpass
    have hlast := ((hpasses i (by omega) image).1 hpass).1
    omega
  · rw [hstatus]
    constructor
    · rintro ⟨image, rfl⟩
      have hpos := List.length_pos_iff.2 h.ne_nil_of_some
      exact ⟨attempts.length - 1, by omega, image, (hpasses _ _ _).2 ⟨by omega, rfl⟩⟩
    · rintro ⟨i, hi, image, hpass⟩
      exact ⟨image, ((hpasses i hi image).1 hpass).2⟩
  · rw [hstatus]
    rintro ⟨image, rfl⟩
    have hpos := List.length_pos_iff.2 h.ne_nil_of_some
    exact ⟨attempts.length - 1, by omega, (hpasses _ _ _).2 ⟨by omega, rfl⟩⟩
  · cases found with
    | none => exact fun _ => ⟨rfl, rfl, h.length_eq_of_none⟩
    | some image => exact fun hne => absurd rfl hne
  · cases found with
    | none => exact hclosing
    | some image => exact hclosing

end Search

namespace Services

variable {efi : Services} {A : Exchange Firmware → Prop}

theorem ensures_coreSearched (hl : efi.live = true) (path : String) (image : CoreImage) :
    (efi.findCore path image).Ensures A fun es x => CoreSearched efi path image es (some x) := by
  rw [findCore, call_eq_of_live hl]
  refine ensures_request.2 fun handles _ => ?_
  split
  · rename_i hnone
    refine (ensures_print hl _).bind ?_
    rintro _ _ rfl
    refine ensures_done.2 ?_
    exact .noVolumes hl (by simpa using hnone)
  rename_i hsome
  simp only [Bool.or_eq_true, beq_iff_eq, not_or, Bool.not_eq_true] at hsome
  refine (ensures_tried hl handles.value.buffer path _ 0).bind ?_
  rintro _ found ⟨attempts, rfl, h⟩
  cases found with
  | none =>
    dsimp only
    rw [free, call_eq_of_live hl]
    refine ensures_request.2 fun status _ => ensures_done.2 ?_
    exact .searched hl hsome.1 hsome.2 (h.volumesSearched hsome.1 rfl)
  | some found =>
    refine (ensures_dropPages hl _).bind fun dropped _ hd => ?_
    rw [free, call_eq_of_live hl]
    refine ensures_request.2 fun status _ => ensures_done.2 ?_
    refine .searched hl hsome.1 hsome.2 (h.volumesSearched hsome.1 ?_)
    simpa using hd

/-- A search tries the volumes one after the other until one passes every step. -/
theorem coreSearched_of_runs {path : String} {image : CoreImage} {es : List (Exchange Firmware)}
    {o : Option (Status × CoreImage)} (h : Runs (efi.findCore path image) es o) :
    CoreSearched efi path image es o := by
  cases hl : efi.live with
  | true =>
    have hsearched : (efi.findCore path image).Ensures (fun _ => True) _ :=
      ensures_coreSearched hl path image
    obtain ⟨x, rfl, hx⟩ := hsearched es o h fun _ _ => trivial
    exact hx
  | false =>
    rw [findCore, call, bind_assoc] at h
    obtain ⟨rfl, rfl⟩ := runs_check_of_not_live hl h
    exact .misused hl

/-- A firmware with two volumes, the first of which has no file system. -/
def twoVolumes : (q : Call) → (exits : Nat) → q.Reply × Nat
  | .locateHandleBuffer .., n => (⟨.success, ⟨2, 0x4000⟩⟩, n)
  | .load address, n => (if address = 0x4008 then 2 else if address = 0x4000 then 1 else 4096, n)
  | .handleProtocol handle _, n => (if handle = 2 then ⟨.success, 0x2000⟩ else ⟨.notFound, 0⟩, n)
  | q, n => smallFirmware q n

/-- The core is found on the second volume. -/
theorem coreSearched_twoVolumes : ∃ es,
    Runs (smallServices.findCore corePath {}) es (some (.success, ⟨⟨0x200000, 1⟩, 4096⟩)) ∧
      CoreSearched smallServices corePath {} es (some (.success, ⟨⟨0x200000, 1⟩, 4096⟩)) := by
  have hr : Runs (smallServices.findCore corePath {}) _
      (some (.success, ⟨⟨0x200000, 1⟩, 4096⟩)) :=
    runs_exchanges twoVolumes (smallServices.findCore corePath {}) 0
  exact ⟨_, hr, coreSearched_of_runs hr⟩

end Services

end Bootloader.Uefi
