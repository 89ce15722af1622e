import Bootloader.Proofs.Uefi.MemoryMap
import Mathlib.Data.List.Chain

/-!
# How the services are ended

`Attempts` lists all that can happen while the services are being ended: a call to end them, and
after a refusal a call for the memory map, and so on, while attempts are left.  Every run is one of
these (`ensures_exitBootServices`), and what follows the last of them is the end of the loader or
the entry of the core (`ensures_handOff`).

Each attempt is made with the key of the call for the map just before it (`Attempts.isChain`), there
are no more of them than are allowed (`Attempts.countP_le`), and each but the last was refused
(`Attempts.pairwise`).
-/

namespace Bootloader.Uefi

open Program

/-- A snapshot after another call for the map into its buffer. -/
def MemoryMap.refreshed (map : MemoryMap) (got : Answer MapOutputs) : MemoryMap :=
  let seen := MapSeen.update {} got.value
  { map with
    size := got.value.size
    key := seen.key
    descriptorSize := seen.descriptorSize
    descriptorVersion := seen.descriptorVersion
    status := got.status }

theorem MemoryMap.takenBy_refreshed {map : MemoryMap} {got : Answer MapOutputs}
    (hw : WritesMap ⟨.getMemoryMap map.bufferSize map.buffer, got⟩)
    (hs : got.status.isError = false) :
    (map.refreshed got).TakenBy ⟨.getMemoryMap map.bufferSize map.buffer, got⟩ :=
  ⟨got.status, hs, by
    rw [refreshed, outputs, ← MapSeen.outputs_update hw hs]⟩

/-- The call that ends the services. -/
def exitCall (image : UInt64) (map : MemoryMap) (status : Status) : Exchange Firmware :=
  ⟨.exitBootServices image map.key, status⟩

/-- The call that refreshes a snapshot. -/
def refreshCall (map : MemoryMap) (got : Answer MapOutputs) : Exchange Firmware :=
  ⟨.getMemoryMap map.bufferSize map.buffer, got⟩

/-- The calls that try to end the services, with the status, the snapshot and the record they leave;
`left` attempts are left after the first. -/
inductive Attempts (image : UInt64) :
    (left : Nat) → MemoryMap → BootInfo → List (Exchange Firmware) →
      Status → MemoryMap → BootInfo → Prop where
  | ended {left : Nat} {map : MemoryMap} {info : BootInfo} {status : Status}
      (h : left = 0 ∨ status.isError = false) :
    Attempts image left map info [exitCall image map status] status map info
  | unread {left : Nat} {map : MemoryMap} {info : BootInfo} {status : Status}
      {got : Answer MapOutputs} (h : status.isError = true) (hg : got.status.isError = true) :
    Attempts image (left + 1) map info [exitCall image map status, refreshCall map got]
      got.status { map with status := got.status } info
  | again {left : Nat} {map map' : MemoryMap} {info info' : BootInfo} {status status' : Status}
      {got : Answer MapOutputs} {es : List (Exchange Firmware)} (h : status.isError = true)
      (hg : got.status.isError = false)
      (rest : Attempts image left (map.refreshed got) (info.withMap (map.refreshed got)) es
        status' map' info') :
    Attempts image (left + 1) map info
      (exitCall image map status :: refreshCall map got :: es) status' map' info'

namespace Services

variable {efi : Services}

variable {A : Exchange Firmware → Prop}

theorem ensures_refreshMap (hl : efi.live = true) (map : MemoryMap) :
    (efi.refreshMap map).Ensures A fun es x => ∃ got, es = [refreshCall map got] ∧
      ((got.status.isError = true ∧ x = (got.status, { map with status := got.status })) ∨
        (got.status.isError = false ∧ x = (.success, map.refreshed got))) := by
  rw [refreshMap, call_eq_of_live hl]
  refine ensures_request.2 fun got _ => ?_
  by_cases hg : got.status.isError = true
  · rw [if_pos hg]
    exact ensures_done.2 ⟨got, rfl, .inl ⟨hg, rfl⟩⟩
  · rw [if_neg hg]
    exact ensures_done.2 ⟨got, rfl, .inr ⟨by simpa using hg, rfl⟩⟩

theorem ensures_exitAgain (hl : efi.live = true) :
    ∀ (left : Nat) (status : Status) (map : MemoryMap) (info : BootInfo),
      (efi.exitAgain left status map info).Ensures A fun es x =>
        Attempts efi.image left map info (exitCall efi.image map status :: es) x.status x.map
            x.info ∧
          x.efi = if x.status = .success then efi.giveUp else efi
  | 0, status, map, info => ensures_done.2 ⟨.ended (.inl rfl), rfl⟩
  | left + 1, status, map, info => by
    rw [exitAgain]
    by_cases h : status.isError = true
    · rw [if_pos h]
      refine (ensures_refreshMap hl map).bind ?_
      rintro es x ⟨got, rfl, ⟨hg, rfl⟩ | ⟨hg, rfl⟩⟩
      · have hne : got.status ≠ .success := fun hs => by simp [hs, Status.isError_success] at hg
        dsimp only
        rw [if_pos hg]
        exact ensures_done.2 ⟨.unread h hg, (if_neg hne).symm⟩
      · dsimp only
        rw [if_neg (by simp [Status.isError_success])]
        refine ensures_request.2 fun status' _ => ?_
        exact (ensures_exitAgain hl left status' (map.refreshed got) _).mono
          fun es x hx => ⟨.again h hg hx.1, hx.2⟩
    · rw [if_neg h]
      exact ensures_done.2 ⟨.ended (.inr (by simpa using h)), rfl⟩

/-- The services are given up if and only if they have ended. -/
theorem ensures_exitBootServices (hl : efi.live = true) (map : MemoryMap)
    (info : BootInfo) :
    (efi.exitBootServices map info).Ensures A fun es x =>
      Attempts efi.image exitRetries map info es x.status x.map x.info ∧
        x.efi = if x.status = .success then efi.giveUp else efi := by
  rw [exitBootServices, call_eq_of_live hl]
  exact ensures_request.2 fun status _ => ensures_exitAgain hl exitRetries status map info

end Services

/-- The calls after the services could not be ended. -/
def abandonCalls (status : Status) (state : Handover) : List Call :=
  [.setColour lightRed, .outputString "\r\nCRITICAL: could not exit boot services (status ",
      .outputString (hexadecimal status.code), .outputString "). System halted.\r\n"] ++
    (if state.core.pages.nonempty then
      [.freePages state.core.pages.address state.core.pages.pages] else []) ++
    (if state.map.buffer ≠ 0 then [.freePool state.map.buffer] else []) ++
    [.debugWrite "LBL: ExitBootServices failed, halting\n", .halt]

/-- The call says something, gives memory back or halts. -/
def Call.IsParting : Call → Prop
  | setColour _ | outputString _ | freePages .. | freePool _ | debugWrite _ | halt => True
  | _ => False

theorem isParting_of_mem_abandonCalls {status : Status} {state : Handover} :
    ∀ q ∈ abandonCalls status state, q.IsParting := by
  unfold abandonCalls
  intro q hq
  rw [List.mem_append, List.mem_append, List.mem_append] at hq
  rcases hq with ((hq | hq) | hq) | hq
  · simp only [List.mem_cons, List.not_mem_nil, or_false] at hq
    rcases hq with rfl | rfl | rfl | rfl <;> trivial
  · split at hq
    · rw [List.mem_singleton.1 hq]
      trivial
    · cases hq
  · split at hq
    · rw [List.mem_singleton.1 hq]
      trivial
    · cases hq
  · simp only [List.mem_cons, List.not_mem_nil, or_false] at hq
    rcases hq with rfl | rfl <;> trivial

theorem isParting_of_abandoned {es : List (Exchange Firmware)} {status : Status} {state : Handover}
    (h : es.map (·.1) = abandonCalls status state) : ∀ e ∈ es, e.1.IsParting := by
  intro e he
  exact isParting_of_mem_abandonCalls e.1 (h ▸ List.mem_map_of_mem he)

/-- What is written before the core is entered. -/
def enteringCall : Exchange Firmware :=
  ⟨.debugWrite "LBL: boot services terminated, entering core\n", ()⟩

/-- The calls after the services have ended. -/
def entered (info : BootInfo) : List (Exchange Firmware) :=
  [enteringCall, ⟨.enterCore info.entry info, ()⟩,
    ⟨.debugWrite "LBL: core returned, halting\n", ()⟩, ⟨.halt, ()⟩]

/-- What the loader has at hand once it owns neither the core nor the snapshot. -/
def Handover.released (state : Handover) : Handover :=
  { state with
    core := { state.core with pages := {} }
    map := { state.map with buffer := 0 } }

/-- All that leaving the firmware can be: attempts to end the services, and then the end of the
loader or the entry of the core. -/
inductive HandedOff (efi : Services) (core : CoreImage) (map : MemoryMap) (info : BootInfo) :
    List (Exchange Firmware) → Handover → Prop where
  | refused {es₁ es₂ : List (Exchange Firmware)} {status : Status} {map' : MemoryMap}
      {info' : BootInfo} (h : Attempts efi.image exitRetries map info es₁ status map' info')
      (hs : status.isError = true)
      (hend : es₂.map (·.1) = abandonCalls status ⟨efi, core, map', info'⟩) :
    HandedOff efi core map info (es₁ ++ es₂) (Handover.released ⟨efi.giveUp, core, map', info'⟩)
  | entered {es : List (Exchange Firmware)} {status : Status} {map' : MemoryMap}
      {info' : BootInfo} (h : Attempts efi.image exitRetries map info es status map' info')
      (hs : status.isError = false) :
    HandedOff efi core map info (es ++ entered info')
      (Handover.released ⟨if status = .success then efi.giveUp else efi, core, map', info'⟩)

namespace Services

variable {efi : Services} {A : Exchange Firmware → Prop}

theorem ensures_dropBuffer (hl : efi.live = true) (buffer : UInt64) :
    (efi.dropBuffer buffer).Ensures A fun es _ =>
      es.map (·.1) = if buffer ≠ 0 then [.freePool buffer] else [] := by
  unfold dropBuffer
  split
  · rw [free, call_eq_of_live hl]
    exact ensures_request.2 fun _ _ => ensures_done.2 rfl
  · exact ensures_done.2 rfl

theorem ensures_abandon {state : Handover} (hl : state.efi.live = true) (status : Status) :
    (abandon status state).Ensures A fun es final =>
      es.map (·.1) = abandonCalls status state ∧
        final = Handover.released { state with efi := state.efi.giveUp } := by
  simp only [abandon, setColour, print, printHexadecimal, call_eq_of_live hl]
  refine ensures_request.2 fun _ _ => ensures_request.2 fun _ _ => ?_
  refine ensures_request.2 fun _ _ => ensures_request.2 fun _ _ => ?_
  refine (ensures_dropPages hl _).bind fun es₁ _ h₁ => ?_
  refine (ensures_dropBuffer hl _).bind fun es₂ _ h₂ => ?_
  refine ensures_request.2 fun _ _ => ensures_request.2 fun _ _ => ensures_done.2 ⟨?_, rfl⟩
  simp only [List.map_cons, List.map_append, h₁, h₂, abandonCalls, PageRun.dropCalls]
  simp

theorem ensures_enter (state : Handover) :
    (enter state).Ensures A fun es final => es = entered state.info ∧ final = state.released :=
  ensures_request.2 fun _ _ => ensures_request.2 fun _ _ => ensures_request.2 fun _ _ =>
    ensures_request.2 fun _ _ => ensures_done.2 ⟨rfl, rfl⟩

theorem ensures_handOff (hl : efi.live = true) (core : CoreImage) (map : MemoryMap)
    (info : BootInfo) :
    (efi.handOff core map info).Ensures A (HandedOff efi core map info) := by
  refine (ensures_exitBootServices hl map info).bind fun es₁ exit hexit => ?_
  obtain ⟨status, efi', map', info'⟩ := exit
  obtain ⟨hattempts, hefi⟩ := hexit
  dsimp only at hattempts hefi ⊢
  cases hs : status.isError with
  | true =>
    have hne : status ≠ .success := fun h => by simp [h, Status.isError_success] at hs
    rw [if_neg hne] at hefi
    rw [hefi]
    refine (ensures_abandon hl status).mono ?_
    rintro es₂ _ ⟨hend, rfl⟩
    exact .refused hattempts hs hend
  | false =>
    refine (ensures_enter _).mono ?_
    rintro es₂ _ ⟨rfl, rfl⟩
    rw [hefi]
    exact .entered hattempts hs

end Services

/-- Whether a call ends the services. -/
def Call.isExit : Call → Bool
  | exitBootServices .. => true
  | _ => false

/-- Whether a call that was made ends the services. -/
def isExit (e : Exchange Firmware) : Bool := e.1.isExit

@[simp] theorem isExit_exitCall (image : UInt64) (map : MemoryMap) (status : Status) :
    isExit (exitCall image map status) = true := rfl

@[simp] theorem isExit_refreshCall (map : MemoryMap) (got : Answer MapOutputs) :
    isExit (refreshCall map got) = false := rfl

/-- If a call ends the services, its key is what the call before it reported. -/
def FollowsMap (e e' : Exchange Firmware) : Prop :=
  ∀ (image key : UInt64) (status : Status), e' = ⟨.exitBootServices image key, status⟩ →
    ∃ (size buffer : UInt64) (got : Answer MapOutputs), e = ⟨.getMemoryMap size buffer, got⟩ ∧
      got.status.isError = false ∧ got.value.key = some key

/-- The call was to end the services, and was refused. -/
def Refused (e : Exchange Firmware) : Prop :=
  ∃ (image key : UInt64) (status : Status), e = ⟨.exitBootServices image key, status⟩ ∧
    status.isError = true

theorem MemoryMap.TakenBy.followsMap {map : MemoryMap} {e : Exchange Firmware}
    (h : map.TakenBy e) (image : UInt64) (status : Status) :
    FollowsMap e (exitCall image map status) := by
  obtain ⟨status', hs, rfl⟩ := h
  intro image' key status'' he
  cases he
  exact ⟨_, _, _, rfl, hs, rfl⟩

theorem followsMap_of_not_isExit {e e' : Exchange Firmware} (h : isExit e' = false) :
    FollowsMap e e' := by
  rintro image key status rfl
  cases h

namespace Attempts

variable {image : UInt64} {left : Nat} {map map' : MemoryMap} {info info' : BootInfo}
variable {es : List (Exchange Firmware)} {status : Status} {e : Exchange Firmware}

/-- Each attempt is made with the key of the snapshot taken just before it. -/
theorem isChain (h : Attempts image left map info es status map' info') (he : map.TakenBy e)
    (hw : ∀ e ∈ es, WritesMap e) : List.IsChain FollowsMap (e :: es) := by
  induction h generalizing e with
  | ended h => simpa using he.followsMap image _
  | unread h hg =>
    simp only [List.isChain_cons_cons]
    exact ⟨he.followsMap image _, followsMap_of_not_isExit rfl, .singleton _⟩
  | again h hg rest ih =>
    simp only [List.forall_mem_cons] at hw
    simp only [List.isChain_cons_cons]
    exact ⟨he.followsMap image _, followsMap_of_not_isExit rfl,
      ih (MemoryMap.takenBy_refreshed hw.2.1 hg) hw.2.2⟩

theorem countP_le (h : Attempts image left map info es status map' info') :
    es.countP isExit ≤ left + 1 := by
  induction h with
  | ended h => simp
  | unread h hg => simp [List.countP_cons]
  | again h hg rest ih =>
    simp only [List.countP_cons, isExit_exitCall, isExit_refreshCall, if_true, Bool.false_eq_true,
      if_false]
    omega

/-- Before another attempt there is a refusal. -/
theorem pairwise (h : Attempts image left map info es status map' info') :
    es.Pairwise fun e e' => isExit e = true → isExit e' = true → Refused e := by
  induction h with
  | ended h => exact List.pairwise_singleton ..
  | unread h hg => simp
  | again h hg rest ih =>
    simp only [List.pairwise_cons]
    exact ⟨fun _ _ _ _ => ⟨_, _, _, rfl, h⟩, by simp, ih⟩

/-- Nothing is called for but the end of the services and the map. -/
theorem quiet (h : Attempts image left map info es status map' info') :
    ∀ e ∈ es, isExit e = true ∨ ∃ size buffer, e.1 = .getMemoryMap size buffer := by
  induction h with
  | ended h => simp
  | unread h hg => simp [refreshCall]
  | again h hg rest ih => simpa [refreshCall] using ih

/-- Every snapshot is in the buffer of the first. -/
theorem buffer_eq (h : Attempts image left map info es status map' info') :
    map'.buffer = map.buffer := by
  induction h with
  | ended h => rfl
  | unread h hg => rfl
  | again h hg rest ih => exact ih

/-- The record says what the snapshot says, before and after. -/
theorem info_eq {base : BootInfo} (h : Attempts image left map info es status map' info')
    (hi : info = base.withMap map) : info' = base.withMap map' := by
  induction h with
  | ended h => exact hi
  | unread h hg => exact hi
  | again h hg rest ih => exact ih (by rw [hi]; rfl)

/-- If the last attempt was not refused, it was made with the key of the snapshot that is left. -/
theorem last (h : Attempts image left map info es status map' info')
    (hs : status.isError = false) (he : map.TakenBy e) (hw : ∀ e ∈ es, WritesMap e) :
    ∃ es₀ e', e :: es = es₀ ++ [e', exitCall image map' status] ∧ map'.TakenBy e' := by
  induction h generalizing e with
  | ended h => exact ⟨[], e, rfl, he⟩
  | unread h hg => simp [hg] at hs
  | @again _ map _ _ _ status₁ _ got es h hg rest ih =>
    simp only [List.forall_mem_cons] at hw
    obtain ⟨es₀, e', hes, he'⟩ := ih hs (MemoryMap.takenBy_refreshed hw.2.1 hg) hw.2.2
    refine ⟨e :: exitCall image map status₁ :: es₀, e', ?_, he'⟩
    rw [List.cons_append, List.cons_append, ← hes]
    rfl

end Attempts

section Split

variable {α : Type} {xs ys pre post : List α} {x : α}

/-- What is not in the first of two lists is in the second. -/
theorem split_right (h : xs ++ ys = pre ++ x :: post) (hx : x ∉ xs) :
    ∃ pre', pre = xs ++ pre' ∧ ys = pre' ++ x :: post := by
  rcases List.append_eq_append_iff.1 h with ⟨as, rfl, h'⟩ | ⟨cs, rfl, h'⟩
  · exact ⟨as, rfl, h'⟩
  · cases cs with
    | nil => exact ⟨[], by simp, by simpa using h'.symm⟩
    | cons c cs =>
      cases h'
      simp at hx

/-- What is not in the second of two lists is in the first. -/
theorem split_left (h : xs ++ ys = pre ++ x :: post) (hx : x ∉ ys) :
    ∃ post', post = post' ++ ys ∧ xs = pre ++ x :: post' := by
  rcases List.append_eq_append_iff.1 h with ⟨as, rfl, h'⟩ | ⟨cs, rfl, h'⟩
  · rw [h'] at hx
    simp at hx
  · cases cs with
    | nil =>
      rw [← List.nil_append ys, ← h'] at hx
      simp at hx
    | cons c cs =>
      cases h'
      exact ⟨cs, rfl, rfl⟩

end Split

/-- Where the core was entered, and with which record. -/
def entryOf? : Exchange Firmware → Option (UInt64 × BootInfo)
  | ⟨.enterCore entry info, _⟩ => some (entry, info)
  | _ => none

section Entry

variable {es pre post : List (Exchange Firmware)} {entry : UInt64} {info info' : BootInfo}

theorem eq_of_entryOf? {e : Exchange Firmware} (h : entryOf? e = some (entry, info)) :
    ∃ r : Unit, e = ⟨.enterCore entry info, r⟩ := by
  obtain ⟨q, r⟩ := e
  cases q <;> cases h
  exact ⟨r, rfl⟩

/-- The core is not entered while the services are being ended. -/
theorem Attempts.entryOf?_eq_none {image : UInt64} {left : Nat} {map map' : MemoryMap}
    {status : Status} (h : Attempts image left map info es status map' info') :
    ∀ e ∈ es, entryOf? e = none := by
  rintro ⟨q, r⟩ he
  rcases h.quiet _ he with h | ⟨_, _, h⟩ <;> cases q <;> first | rfl | cases h

theorem entryOf?_eq_none_of_abandoned {status : Status} {state : Handover}
    (h : es.map (·.1) = abandonCalls status state) : ∀ e ∈ es, entryOf? e = none := by
  rintro ⟨q, r⟩ he
  have hq := isParting_of_abandoned h _ he
  cases q <;> first | rfl | exact hq.elim

/-- If the core is first entered after the services have ended, it is entered where the record
says. -/
theorem eq_of_entered {r : Unit} (h₁ : ∀ e ∈ es, entryOf? e = none)
    (h : es ++ entered info' = pre ++ ⟨.enterCore entry info, r⟩ :: post) :
    pre = es ++ [enteringCall] ∧ entry = info'.entry ∧ info = info' := by
  obtain ⟨mid, rfl, h⟩ := split_right h fun hx => by cases h₁ _ hx
  rcases mid with _ | ⟨e₁, _ | ⟨e₂, _ | ⟨e₃, _ | ⟨e₄, mid⟩⟩⟩⟩ <;>
    simp [entered, enteringCall] at h
  obtain ⟨rfl, ⟨rfl, rfl⟩, -⟩ := h
  exact ⟨rfl, rfl, rfl⟩

end Entry

end Bootloader.Uefi
