import Bootloader.Proofs.Legacy.PortDiscipline

/-!
# When the A20 line is given up

A loader that gives the A20 line up halts the machine.  It should do so only if the line is off: after
the last write that may have turned it on, a test has to have found it off (`FoundOff`).  On a machine
whose test tells the truth the line is off then (`off_of_foundOff`).

The test is not always made.  The fast gate is taken for failed when its port does not read back what
was written, and the keyboard controller when it does not take a byte.  So the line is given up
without a test just if the fast gate was written to, its port reads back as off, and the controller
got no output (`foundOff_iff`).  A machine whose system port cannot be read, and that has no
keyboard controller, is halted with its line on (`gaveUp_mutePort`).
-/

namespace Bootloader.Legacy.A20

open Bios Program

/-- The call writes where the line can be switched. -/
def Switches : Bios.Call → Prop
  | .writePort port _ => port = 0x92 ∨ port = 0x60
  | _ => False

/-- A test found the line off, and nothing was written after it that can switch the line. -/
def FoundOff (es : List (Exchange Bios)) : Prop :=
  ∃ pre post, es = pre ++ ⟨.wrapTest, false⟩ :: post ∧ ∀ e ∈ post, ¬Switches e.1

/-- The fast 0x02 was written to, its port reads back as off, and the controller got no output. -/
def Unjudged (es : List (Exchange Bios)) : Prop :=
  writtenTo 0x92 es ≠ [] ∧
    (∃ value, (readFrom 0x92 es).getLast? = some value ∧ value &&& 0x02 = 0) ∧
      writtenTo 0x60 es = []

/-- The call neither switches the line nor tests it. -/
def Idle (q : Bios.Call) : Prop := ¬Switches q ∧ q ≠ .wrapTest

/-- The exchanges of an attempt by the fast gate that failed, with what its port held before and
after. -/
def fastGateFailure (before after : UInt8) : List (Exchange Bios) :=
  ⟨.readPort fastPort, before⟩ ::
    ((if before &&& gate = 0 then
      [⟨.writePort fastPort ((before ||| gate) &&& ~~~reset), ()⟩] else []) ++
    [⟨.delay, ()⟩, ⟨.readPort fastPort, after⟩] ++
    if after &&& gate = 0 then [] else [⟨.wrapTest, false⟩])

section Attempts

variable {A : Exchange Bios → Prop}

theorem ensures_judgeFastGate : judgeFastGate.Ensures A fun es ok => ok = false →
    ∃ after, es = [⟨.delay, ()⟩, ⟨.readPort fastPort, after⟩] ++
      if after &&& gate = 0 then [] else [⟨.wrapTest, false⟩] := by
  refine ensures_request.2 fun _ _ => ensures_request.2 fun after _ => ?_
  by_cases ha : after &&& gate = 0
  · rw [if_pos ha]
    exact ensures_done.2 fun _ => ⟨after, by rw [if_pos ha]; rfl⟩
  · rw [if_neg ha]
    refine ensures_ask.2 fun enabled _ => ensures_done.2 fun hoff => ⟨after, ?_⟩
    rw [if_neg ha, hoff]
    rfl

theorem ensures_tryFastGate : tryFastGate.Ensures A fun es ok => ok = false →
    ∃ before after, es = fastGateFailure before after := by
  rw [tryFastGate_eq]
  refine ensures_request.2 fun before _ => ?_
  by_cases hb : before &&& gate = 0
  · rw [if_pos hb]
    refine ensures_request.2 fun _ _ => ensures_judgeFastGate.mono fun es ok h hok => ?_
    obtain ⟨after, rfl⟩ := h hok
    exact ⟨before, after, by simp [fastGateFailure, hb]⟩
  · rw [if_neg hb]
    refine ensures_judgeFastGate.mono fun es ok h hok => ?_
    obtain ⟨after, rfl⟩ := h hok
    exact ⟨before, after, by simp [fastGateFailure, hb]⟩

theorem idle_look : Idle (.readPort statusPort) := ⟨id, by simp⟩

theorem idle_command (command : UInt8) : Idle (.writePort statusPort command) := by
  simp [Idle, Switches, statusPort]

/-- Either the controller got an output, or nothing was done to the line. -/
def Sent (es : List (Exchange Bios)) (sent : Bool) : Prop :=
  if sent = true then writtenTo dataPort es ≠ [] else ∀ e ∈ es, Idle e.1

theorem Sent.append_left {es es' : List (Exchange Bios)} {sent : Bool} (h : Sent es' sent)
    (hes : ∀ e ∈ es, Idle e.1) : Sent (es ++ es') sent := by
  cases sent with
  | true =>
    have hsent : writtenTo dataPort es' ≠ [] := h
    show writtenTo dataPort (es ++ es') ≠ []
    simp [hsent]
  | false => exact List.forall_mem_append.2 ⟨hes, h⟩

theorem Sent.cons {es : List (Exchange Bios)} {e : Exchange Bios} {sent : Bool} (h : Sent es sent)
    (he : Idle e.1) : Sent (e :: es) sent := by
  have hone : ∀ e' ∈ [e], Idle e'.1 := by simpa using he
  exact h.append_left hone

theorem Sent.append_right {es es' : List (Exchange Bios)} {sent : Bool} (h : Sent es sent)
    (hes' : ∀ e ∈ es', Idle e.1) : Sent (es ++ es') sent := by
  cases sent with
  | true =>
    have hsent : writtenTo dataPort es ≠ [] := h
    show writtenTo dataPort (es ++ es') ≠ []
    simp [hsent]
  | false => exact List.forall_mem_append.2 ⟨h, hes'⟩

theorem sent_nil : Sent [] false := by simp [Sent]

theorem ensures_writeGate (output : UInt8) : (writeGate output).Ensures A Sent := by
  refine (only_waitInputEmpty idle_look).ensures.bind fun es ready hes => ?_
  cases ready with
  | false => exact ensures_done.2 (sent_nil.append_left hes)
  | true =>
    refine ensures_request.2 fun _ _ => ?_
    refine (only_waitInputEmpty idle_look).ensures.bind fun es' ready hes' => ?_
    cases ready with
    | false =>
      exact ensures_done.2 (((sent_nil.append_left hes').cons (idle_command _)).append_left hes)
    | true =>
      refine ensures_request.2 fun _ _ => ensures_done.2 ?_
      have hsent : Sent [⟨.writePort dataPort (output ||| gate), ()⟩] true := by
        simp [Sent, writtenTo]
      exact ((hsent.append_left hes').cons (idle_command _)).append_left hes

theorem ensures_switchGate : switchGate.Ensures A Sent := by
  refine (only_waitInputEmpty idle_look).ensures.bind fun es ready hes => ?_
  cases ready with
  | false => exact ensures_done.2 (sent_nil.append_left hes)
  | true =>
    refine ensures_request.2 fun _ _ => ?_
    refine (only_waitOutputFull idle_look).ensures.bind fun es' ready hes' => ?_
    cases ready with
    | false =>
      exact ensures_done.2 (((sent_nil.append_left hes').cons (idle_command _)).append_left hes)
    | true =>
      refine ensures_request.2 fun output _ => (ensures_writeGate output).mono fun es'' sent h => ?_
      have hread : Idle (.readPort dataPort) := ⟨id, by simp⟩
      exact (((h.cons hread).append_left hes').cons (idle_command _)).append_left hes

/-- An attempt by the controller that failed has not touched the line, or ends with a test of it. -/
def ControllerFailed (es : List (Exchange Bios)) : Prop :=
  (∀ e ∈ es, Idle e.1) ∨
    ∃ pre, es = pre ++ [⟨.wrapTest, false⟩] ∧ writtenTo dataPort pre ≠ []

theorem ensures_tryKeyboardController :
    tryKeyboardController.Ensures A fun es ok => ok = false → ControllerFailed es := by
  refine (only_waitInputEmpty idle_look).ensures.bind fun es ready hes => ?_
  cases ready with
  | false => exact ensures_done.2 fun _ => .inl (sent_nil.append_left hes)
  | true =>
    refine ensures_request.2 fun _ _ => ensures_switchGate.bind fun es₁ sent hsent => ?_
    refine (only_restoreKeyboard idle_look (idle_command _)).ensures.bind fun es₂ _ hes₂ => ?_
    have hbefore := ((hsent.append_right hes₂).cons
      (e := ⟨.writePort statusPort disableKeyboard, ()⟩) (idle_command _)).append_left hes
    cases sent with
    | false => exact ensures_done.2 fun _ => .inl (by rwa [List.append_nil])
    | true =>
      refine ensures_ask.2 fun enabled _ => ensures_done.2 fun hoff => .inr ⟨_, ?_, hbefore⟩
      simp [hoff]

end Attempts

section Verdict

variable {es controller : List (Exchange Bios)} {before after : UInt8}

/-- What a line that was given up has seen: a test, and an attempt in each of the two ways. -/
theorem exists_of_failed (h : Runs enable es (some .failed)) : ∃ before after controller,
    es = ⟨.wrapTest, false⟩ :: (fastGateFailure before after ++ controller) ∧
      (∀ e ∈ controller, IsControllerCall e.1) ∧ ControllerFailed controller := by
  obtain ⟨-, method, hmethod, -, hattempted, -⟩ := observes_enable.of_runs h
  cases hmethod
  generalize hfailed : Method.failed = method at hattempted
  cases hattempted with
  | none => cases hfailed
  | fastGate hf hfast => cases hfailed
  | @both fast controller ok hf hfast hc hcalls =>
    cases ok with
    | true => cases hfailed
    | false =>
      obtain ⟨before, after, rfl⟩ := ensures_tryFastGate.of_run hf rfl
      exact ⟨before, after, controller, rfl, hcalls,
        ensures_tryKeyboardController.of_run hc rfl⟩

/-- The controller has ports of its own. -/
theorem fastPort_ne : ¬(fastPort = statusPort ∨ fastPort = dataPort) := by decide

theorem writtenTo_of_controllerCalls (h : ∀ e ∈ controller, IsControllerCall e.1) :
    writtenTo fastPort controller = [] := by
  refine List.filterMap_eq_nil_iff.2 fun e he => ?_
  obtain ⟨q, r⟩ := e
  cases q with
  | writePort port value =>
    refine if_neg ?_
    rintro rfl
    exact fastPort_ne (h _ he)
  | _ => rfl

theorem readFrom_of_controllerCalls (h : ∀ e ∈ controller, IsControllerCall e.1) :
    readFrom fastPort controller = [] := by
  refine List.filterMap_eq_nil_iff.2 fun e he => ?_
  obtain ⟨q, r⟩ := e
  cases q with
  | readPort port =>
    refine if_neg ?_
    rintro rfl
    exact fastPort_ne (h _ he)
  | _ => rfl

theorem writtenTo_of_idle (h : ∀ e ∈ es, Idle e.1) : writtenTo dataPort es = [] := by
  refine List.filterMap_eq_nil_iff.2 fun e he => ?_
  obtain ⟨q, r⟩ := e
  cases q with
  | writePort port value => exact if_neg fun hport => (h _ he).1 (.inr hport)
  | _ => rfl

theorem isFastGateCall_fastGateFailure (before after : UInt8) :
    ∀ e ∈ fastGateFailure before after, IsFastGateCall e.1 := by
  rw [fastGateFailure, List.forall_mem_cons, List.forall_mem_append, List.forall_mem_append]
  refine ⟨rfl, ⟨?_, ?_⟩, ?_⟩
  · split
    · exact List.forall_mem_singleton.2 rfl
    · exact List.forall_mem_nil _
  · exact List.forall_mem_cons.2 ⟨trivial, List.forall_mem_singleton.2 rfl⟩
  · split
    · exact List.forall_mem_nil _
    · exact List.forall_mem_singleton.2 trivial

/-- Whether the fast gate was written to shows in what its port held before. -/
theorem writtenTo_fastPort_ne_nil (hcalls : ∀ e ∈ controller, IsControllerCall e.1) :
    writtenTo fastPort (⟨.wrapTest, false⟩ :: (fastGateFailure before after ++ controller)) ≠ [] ↔
      before &&& gate = 0 := by
  have hc := writtenTo_of_controllerCalls hcalls
  unfold writtenTo at hc ⊢
  by_cases hb : before &&& gate = 0 <;> by_cases ha : after &&& gate = 0 <;>
    simp [fastGateFailure, hb, ha, hc]

theorem getLast?_readFrom_fastPort (hcalls : ∀ e ∈ controller, IsControllerCall e.1) :
    (readFrom fastPort
      (⟨.wrapTest, false⟩ :: (fastGateFailure before after ++ controller))).getLast? =
        some after := by
  have hc := readFrom_of_controllerCalls hcalls
  unfold readFrom at hc ⊢
  by_cases hb : before &&& gate = 0 <;> by_cases ha : after &&& gate = 0 <;>
    simp [fastGateFailure, hb, ha, hc]

theorem unjudged_def : Unjudged es ↔ writtenTo fastPort es ≠ [] ∧
    (∃ value, (readFrom fastPort es).getLast? = some value ∧ value &&& gate = 0) ∧
      writtenTo dataPort es = [] := Iff.rfl

theorem unjudged_iff (hcalls : ∀ e ∈ controller, IsControllerCall e.1) :
    Unjudged (⟨.wrapTest, false⟩ :: (fastGateFailure before after ++ controller)) ↔
      before &&& gate = 0 ∧ after &&& gate = 0 ∧ writtenTo dataPort controller = [] := by
  have hne : dataPort ≠ fastPort := by decide
  have hfast : writtenTo dataPort (⟨.wrapTest, false⟩ :: fastGateFailure before after) = [] :=
    writtenTo_of_fastGateCalls hne
      (List.forall_mem_cons.2 ⟨trivial, isFastGateCall_fastGateFailure before after⟩)
  rw [unjudged_def, writtenTo_fastPort_ne_nil hcalls, getLast?_readFrom_fastPort hcalls,
    ← List.cons_append, writtenTo_append, hfast, List.nil_append]
  simp

/-- A gate that was written to, and then neither reads back nor is looked at any more, was not found
off since. -/
theorem not_foundOff (hb : before &&& gate = 0) (ha : after &&& gate = 0)
    (hidle : ∀ e ∈ controller, Idle e.1) :
    ¬FoundOff (⟨.wrapTest, false⟩ :: (fastGateFailure before after ++ controller)) := by
  rintro ⟨pre, post, hes, hpost⟩
  have hfast : fastGateFailure before after = [⟨.readPort fastPort, before⟩,
      ⟨.writePort fastPort ((before ||| gate) &&& ~~~reset), ()⟩, ⟨.delay, ()⟩,
      ⟨.readPort fastPort, after⟩] := by
    simp [fastGateFailure, hb, ha]
  cases pre with
  | nil =>
    obtain ⟨-, rfl⟩ := List.cons.inj hes
    exact hpost ⟨.writePort fastPort ((before ||| gate) &&& ~~~reset), ()⟩ (by simp [hfast])
      (.inl rfl)
  | cons e pre =>
    obtain ⟨-, htail⟩ := List.cons.inj hes
    -- a test that is not the first would be one of either attempt, and neither made one
    have htest : (⟨.wrapTest, false⟩ : Exchange Bios) ∈ fastGateFailure before after ++ controller := by
      simp [htail]
    rcases List.mem_append.1 htest with hmem | hmem
    · simp [hfast] at hmem
    · exact (hidle _ hmem).2 rfl

theorem foundOff_of_failed (hc : ControllerFailed controller)
    (h : ¬(before &&& gate = 0 ∧ after &&& gate = 0 ∧ writtenTo dataPort controller = [])) :
    FoundOff (⟨.wrapTest, false⟩ :: (fastGateFailure before after ++ controller)) := by
  rcases hc with hidle | ⟨pre, rfl, -⟩
  · have hnone := writtenTo_of_idle hidle
    by_cases ha : after &&& gate = 0
    · -- nothing was written to the gate, so the first test still holds
      have hb : ¬before &&& gate = 0 := fun hb => h ⟨hb, ha, hnone⟩
      refine ⟨[], _, rfl, List.forall_mem_append.2 ⟨?_, fun e he => (hidle e he).1⟩⟩
      simp [fastGateFailure, hb, ha, Switches]
    · obtain ⟨tried, htried⟩ : ∃ tried, fastGateFailure before after =
          tried ++ [⟨.wrapTest, false⟩] := by
        rw [fastGateFailure, if_neg ha]
        exact ⟨_, (List.cons_append ..).symm⟩
      exact ⟨⟨.wrapTest, false⟩ :: tried, controller, by simp [htried], fun e he => (hidle e he).1⟩
  · exact ⟨⟨.wrapTest, false⟩ :: (fastGateFailure before after ++ pre), [], by simp, by simp⟩

theorem foundOff_of_runs (h : Runs enable es (some .failed)) (hj : ¬Unjudged es) :
    FoundOff es := by
  obtain ⟨before, after, controller, rfl, hcalls, hc⟩ := exists_of_failed h
  rw [unjudged_iff hcalls] at hj
  exact foundOff_of_failed hc hj

theorem not_foundOff_of_runs (h : Runs enable es (some .failed)) (hj : Unjudged es) :
    ¬FoundOff es := by
  obtain ⟨before, after, controller, rfl, hcalls, hc⟩ := exists_of_failed h
  obtain ⟨hb, ha, hnone⟩ := (unjudged_iff hcalls).1 hj
  rcases hc with hidle | ⟨pre, rfl, hpre⟩
  · exact not_foundOff hb ha hidle
  · simp [hpre] at hnone

/-- The line is given up without a test just if the fast gate was written to and does not read back,
and the controller got no output. -/
theorem foundOff_iff (h : Runs enable es (some .failed)) : FoundOff es ↔ ¬Unjudged es :=
  ⟨fun hfound hj => not_foundOff_of_runs h hj hfound, foundOff_of_runs h⟩

/-- On a machine where nothing switches the line it is given up, and rightly so. -/
theorem foundOff_fixedLine : ∃ es, Runs enable es (some .failed) ∧ ¬Unjudged es ∧
    writtenTo 0x92 es = [0x26] ∧ writtenTo 0x60 es = [0xDF] ∧ FoundOff es := by
  have hr := runs_exchanges (fun q _ => ((fixedGate q false).1, false)) enable false
  have ho : (enable.run (fun q _ => ((fixedGate q false).1, false)) false).1 = some .failed := by
    decide +kernel
  rw [ho] at hr
  have hj : ¬Unjudged (enable.exchanges (fun q _ => ((fixedGate q false).1, false)) false) :=
    fun hj => absurd hj.2.2 (by decide +kernel)
  exact ⟨_, hr, hj, by decide +kernel, by decide +kernel, (foundOff_iff hr).2 hj⟩

end Verdict

section Machine

variable {σ : Type} {answer : (q : Bios.Call) → σ → q.Reply × σ} {on : σ → Bool}

/-- Where the test tells the truth and only writes switch the line, a line found off is off. -/
theorem off_of_foundOff {α : Type} {p : Program Bios α} {s : σ}
    (htest : ∀ s, (answer .wrapTest s).1 = on s)
    (hkeeps : ∀ q s, ¬Switches q → on (answer q s).2 = on s)
    (h : FoundOff (p.exchanges answer s)) : on (p.run answer s).2 = false := by
  obtain ⟨pre, post, hes, hpost⟩ := h
  have hkept : ∀ (es : List (Exchange Bios)) (s : σ), (∀ e ∈ es, ¬Switches e.1) →
      on (stateAfter answer es s) = on s := by
    intro es
    induction es with
    | nil => exact fun s _ => rfl
    | cons e es ih =>
      intro s hes
      rw [List.forall_mem_cons] at hes
      exact (ih _ hes.2).trans (hkeeps e.1 s hes.1)
  have hoff := reply_of_exchanges (I := Bios) answer hes
  have htested : on (stateAfter (I := Bios) answer (⟨.wrapTest, false⟩ :: post)
      (stateAfter (I := Bios) answer pre s)) = on (stateAfter (I := Bios) answer pre s) :=
    hkept _ _ (List.forall_mem_cons.2 ⟨id, hpost⟩)
  rw [run_snd_eq_stateAfter, hes]
  calc on (stateAfter (I := Bios) answer (pre ++ ⟨.wrapTest, false⟩ :: post) s)
      = on (stateAfter (I := Bios) answer pre s) := by
        rw [← htested, stateAfter, List.foldl_append]
        rfl
    _ = false := by rw [← htest, ← hoff]

/-- There a line that is given up is off, unless it was given up without a test. -/
theorem off_of_failed {s : σ} (htest : ∀ s, (answer .wrapTest s).1 = on s)
    (hkeeps : ∀ q s, ¬Switches q → on (answer q s).2 = on s)
    (h : (enable.run answer s).1 = some .failed) (hj : ¬Unjudged (enable.exchanges answer s)) :
    on (enable.run answer s).2 = false :=
  off_of_foundOff htest hkeeps (foundOff_of_runs (h ▸ runs_exchanges answer enable s) hj)

variable {ready : UInt8 → Bool} {status : UInt8} {s : σ}
variable (hs : answer (.readPort statusPort) s = (status, s)) (hr : ready status = false)

include hs hr

/-- A wait for a status that never comes. -/
theorem run_pollStatus : ∀ looks, (pollStatus ready looks).run answer s = (some false, s)
  | 0 => rfl
  | looks + 1 => by
    rw [pollStatus, run_ask, hs]
    simp only [hr]
    exact run_pollStatus looks

theorem exchanges_pollStatus : ∀ looks, (pollStatus ready looks).exchanges answer s =
    List.replicate looks ⟨.readPort statusPort, status⟩
  | 0 => rfl
  | looks + 1 => by
    rw [pollStatus, exchanges, hs]
    simp only [hr]
    rw [List.replicate_succ]
    exact congrArg _ (exchanges_pollStatus looks)

end Machine

/-- A machine whose system port switches the line but cannot be read, and that has no keyboard
controller. -/
def mutePort : (q : Bios.Call) → (lineOn : Bool) → q.Reply × Bool
  | .disk _, lineOn => ({ carry := true }, lineOn)
  | .teletype _, lineOn => ((), lineOn)
  | .readPort port, lineOn => (if port = statusPort then inputFull else 0, lineOn)
  | .writePort port value, lineOn => ((), if port = fastPort then value &&& gate != 0 else lineOn)
  | .delay, lineOn => ((), lineOn)
  | .wrapTest, lineOn => (lineOn, lineOn)
  | .codeSegment, lineOn => (0, lineOn)
  | .tableOffset, lineOn => (0, lineOn)

theorem run_tryKeyboardController_mutePort (lineOn : Bool) :
    tryKeyboardController.run mutePort lineOn = (some false, lineOn) := by
  have hwait : waitInputEmpty.run mutePort lineOn = (some false, lineOn) :=
    run_pollStatus rfl rfl waitLoops
  rw [tryKeyboardController, run_bind_of_eq hwait]
  rfl

theorem exchanges_tryKeyboardController_mutePort (lineOn : Bool) :
    tryKeyboardController.exchanges mutePort lineOn =
      List.replicate waitLoops ⟨.readPort statusPort, inputFull⟩ := by
  have hwait : waitInputEmpty.run mutePort lineOn = (some false, lineOn) :=
    run_pollStatus rfl rfl waitLoops
  rw [tryKeyboardController, exchanges_bind_of_eq _ hwait, waitInputEmpty,
    exchanges_pollStatus rfl rfl]
  exact List.append_nil _

/-- That machine is given up with its line on, and no test has looked at it. -/
theorem gaveUp_mutePort : enable.run mutePort false = (some .failed, true) ∧
    ¬FoundOff (enable.exchanges mutePort false) := by
  have htest : (perform .wrapTest).run mutePort false = (some false, false) := rfl
  have hfast : tryFastGate.run mutePort false = (some false, true) := by decide
  have hcontroller := run_tryKeyboardController_mutePort true
  unfold enable
  constructor
  · rw [run_bind_of_eq htest, if_neg Bool.false_ne_true, run_bind_of_eq hfast,
      if_neg Bool.false_ne_true, run_bind_of_eq hcontroller]
    rfl
  · rw [exchanges_bind_of_eq _ htest, if_neg Bool.false_ne_true, exchanges_bind_of_eq _ hfast,
      if_neg Bool.false_ne_true, exchanges_bind_of_eq _ hcontroller,
      exchanges_tryKeyboardController_mutePort]
    have hfailure : tryFastGate.exchanges mutePort false = fastGateFailure 0 0 := rfl
    rw [hfailure]
    refine not_foundOff rfl rfl fun e he => ?_
    rw [List.eq_of_mem_replicate ((List.mem_append.1 he).resolve_right List.not_mem_nil)]
    exact ⟨id, by simp⟩

end Bootloader.Legacy.A20
