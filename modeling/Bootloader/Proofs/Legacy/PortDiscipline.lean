import Bootloader.Proofs.Legacy.A20
import Bootloader.Proofs.Rule

/-!
# How the ports of the A20 line are used

A byte written to the fast gate can reset the machine, and one that the keyboard controller does not
take, or that it takes for another, can leave the machine without a keyboard.  `portRule` says when
each port may be used and what for, given all that has happened up to then.

Whatever the ports and the wrap-around tests give, turning the line on keeps to the rule, makes one
attempt in each of the two ways at most, and leaves the keyboard off only if the controller takes no
byte any more (`disciplined_of_runs`).  What has passed between the loader and the controller is
carried along as `Conversed`.
-/

namespace Bootloader.Legacy.A20

open Bios Program

/-- What was written to a port. -/
def writtenTo (port : UInt16) (es : List (Exchange Bios)) : List UInt8 :=
  es.filterMap fun
    | ⟨.writePort p value, _⟩ => if p = port then some value else none
    | _ => none

/-- What was read from a port. -/
def readFrom (port : UInt16) (es : List (Exchange Bios)) : List UInt8 :=
  es.filterMap fun
    | ⟨.readPort p, value⟩ => if p = port then some value else none
    | _ => none

/-- The exchange before was a read of a port, and gave a value as `P` has it. -/
def JustRead (port : UInt16) (P : UInt8 → Prop) (past : List (Exchange Bios)) : Prop :=
  ∃ value, past.getLast? = some ⟨.readPort port, value⟩ ∧ P value

/-- The fast gate was tried, after a first test, and did not work. -/
def FastGateFailed (past : List (Exchange Bios)) : Prop :=
  ∃ fast rest, past = ⟨.wrapTest, false⟩ :: (fast ++ rest) ∧ Runs tryFastGate fast (some false)

/-- When a port may be used: 0x92, where bit 1 is for the line and bit 0 would reset the machine, and
0x60 and 0x64 of the keyboard controller, whose status has bit 1 while it takes no byte, and bit 0
while it has one. -/
def portRule : Rule Bios
  | past, .writePort port value =>
    (port = 0x92 → writtenTo 0x92 past = [] ∧ JustRead 0x92 (fun before =>
      before &&& 0x02 = 0 ∧ value = (before ||| 0x02) &&& ~~~0x01) past) ∧
    (port = 0x64 ∨ port = 0x60 →
      FastGateFailed past ∧ JustRead 0x64 (fun status => status &&& 0x02 = 0) past) ∧
    (port = 0x60 → writtenTo 0x60 past = [] ∧ (writtenTo 0x64 past).getLast? = some 0xD1 ∧
      ∃ output, readFrom 0x60 past = [output] ∧ value = output ||| 0x02)
  | past, .readPort port =>
    (port = 0x64 ∨ port = 0x60 → FastGateFailed past) ∧
    (port = 0x60 → readFrom 0x60 past = [] ∧
      JustRead 0x64 (fun status => status &&& 0x01 ≠ 0) past)
  | _, _ => True

/-- The commands by which the line is turned on, the keyboard being off in the meantime. -/
def gateCommands : List UInt8 := [0xAD, 0xD0, 0xD1]

/-- The last looks at the status, as many as a wait takes, found that a byte was still there. -/
def Stuck (es : List (Exchange Bios)) : Prop :=
  ∃ earlier last, readFrom 0x64 es = earlier ++ last ∧ last.length = 100000 ∧
    ∀ status ∈ last, status &&& 0x02 ≠ 0

/-- The controller got no command, or the first ones of those for the line and then, unless it was
stuck, the one that turns the keyboard on again. -/
def Commanded (es : List (Exchange Bios)) : Prop :=
  writtenTo 0x64 es = [] ∨ ∃ first, first ≠ [] ∧ first <+: gateCommands ∧
    (writtenTo 0x64 es = first ++ [0xAE] ∨ writtenTo 0x64 es = first ∧ Stuck es)

/-- The attempts that are made, each by calls of its own. -/
inductive Attempted : List (Exchange Bios) → Method → Prop where
  | none : Attempted [⟨.wrapTest, true⟩] .alreadyEnabled
  | fastGate {fast : List (Exchange Bios)} (hf : Runs tryFastGate fast (some true))
      (hfast : ∀ e ∈ fast, IsFastGateCall e.1) :
    Attempted (⟨.wrapTest, false⟩ :: fast) .fastGate
  | both {fast controller : List (Exchange Bios)} {ok : Bool}
      (hf : Runs tryFastGate fast (some false)) (hfast : ∀ e ∈ fast, IsFastGateCall e.1)
      (hc : Runs tryKeyboardController controller (some ok))
      (hcontroller : ∀ e ∈ controller, IsControllerCall e.1) :
    Attempted (⟨.wrapTest, false⟩ :: (fast ++ controller))
      (if ok = true then .keyboardController else .failed)

/-- What turning the line on keeps to, and what its success means. -/
structure Disciplined (es : List (Exchange Bios)) (method : Method) : Prop where
  ports : portRule.KeptBy es
  commands : Commanded es
  attempts : Attempted es method
  success : method ≠ .failed ↔ es.getLast? = some ⟨.wrapTest, true⟩

section Ports

variable {past es : List (Exchange Bios)} {port : UInt16}

@[simp] theorem writtenTo_append :
    writtenTo port (past ++ es) = writtenTo port past ++ writtenTo port es :=
  List.filterMap_append

@[simp] theorem readFrom_append :
    readFrom port (past ++ es) = readFrom port past ++ readFrom port es :=
  List.filterMap_append

theorem justRead_append {P : UInt8 → Prop} {value : UInt8} (h : P value) :
    JustRead port P (past ++ [⟨.readPort port, value⟩]) :=
  ⟨value, List.getLast?_concat .., h⟩

theorem JustRead.mono {P Q : UInt8 → Prop} (h : JustRead port P past)
    (hPQ : ∀ value, P value → Q value) : JustRead port Q past := by
  obtain ⟨value, hlast, hP⟩ := h
  exact ⟨value, hlast, hPQ value hP⟩

theorem FastGateFailed.append (h : FastGateFailed past) : FastGateFailed (past ++ es) := by
  obtain ⟨fast, rest, rfl, hr⟩ := h
  exact ⟨fast, rest ++ es, by simp, hr⟩

/-- The fast gate is tried by way of its own port. -/
theorem readFrom_of_fastGateCalls (hp : port ≠ fastPort) (h : ∀ e ∈ es, IsFastGateCall e.1) :
    readFrom port es = [] := by
  refine List.filterMap_eq_nil_iff.2 fun e he => ?_
  obtain ⟨q, r⟩ := e
  cases q with
  | readPort p => exact if_neg fun hport => hp (hport.symm.trans (h _ he))
  | _ => rfl

theorem writtenTo_of_fastGateCalls (hp : port ≠ fastPort) (h : ∀ e ∈ es, IsFastGateCall e.1) :
    writtenTo port es = [] := by
  refine List.filterMap_eq_nil_iff.2 fun e he => ?_
  obtain ⟨q, r⟩ := e
  cases q with
  | writePort p value => exact if_neg fun hport => hp (hport.symm.trans (h _ he))
  | _ => rfl

theorem Commanded.test (h : Commanded past) (enabled : Bool) :
    Commanded (past ++ [⟨.wrapTest, enabled⟩]) := by
  simpa [Commanded, Stuck, writtenTo, readFrom] using h

end Ports

section Rule

variable {past : List (Exchange Bios)} {value : UInt8}

theorem portRule_read_fastPort : portRule past (.readPort fastPort) := by
  simp [portRule, fastPort]

theorem portRule_read_statusPort :
    portRule past (.readPort statusPort) ↔ FastGateFailed past := by
  simp [portRule, statusPort]

theorem portRule_read_dataPort : portRule past (.readPort dataPort) ↔ FastGateFailed past ∧
    readFrom dataPort past = [] ∧
      JustRead statusPort (fun status => status &&& outputFull ≠ 0) past := by
  simp [portRule, statusPort, dataPort, outputFull]

theorem portRule_write_fastPort : portRule past (.writePort fastPort value) ↔
    writtenTo fastPort past = [] ∧ JustRead fastPort (fun before =>
      before &&& gate = 0 ∧ value = (before ||| gate) &&& ~~~reset) past := by
  simp [portRule, fastPort, gate, reset]

theorem portRule_write_statusPort : portRule past (.writePort statusPort value) ↔
    FastGateFailed past ∧ JustRead statusPort (fun status => status &&& inputFull = 0) past := by
  simp [portRule, statusPort, inputFull]

theorem portRule_write_dataPort : portRule past (.writePort dataPort value) ↔
    (FastGateFailed past ∧ JustRead statusPort (fun status => status &&& inputFull = 0) past) ∧
      writtenTo dataPort past = [] ∧ (writtenTo statusPort past).getLast? = some writeOutput ∧
        ∃ output, readFrom dataPort past = [output] ∧ value = output ||| gate := by
  simp [portRule, statusPort, dataPort, gate, inputFull, writeOutput]

end Rule

/-- An attempt ends with a test that found the line on, or no test ever did. -/
def Judged (es : List (Exchange Bios)) (ok : Bool) : Prop :=
  if ok = true then es.getLast? = some ⟨.wrapTest, true⟩ else ⟨.wrapTest, true⟩ ∉ es

theorem Judged.iff {es : List (Exchange Bios)} {ok : Bool} (h : Judged es ok) :
    ok = true ↔ es.getLast? = some ⟨.wrapTest, true⟩ := by
  cases ok with
  | true => exact iff_of_true rfl h
  | false => exact iff_of_false Bool.false_ne_true fun hlast => h (List.mem_of_getLast? hlast)

theorem judged_test {past : List (Exchange Bios)} (h : ⟨.wrapTest, true⟩ ∉ past) (enabled : Bool) :
    Judged (past ++ [⟨.wrapTest, enabled⟩]) enabled := by
  cases enabled with
  | true => exact List.getLast?_concat ..
  | false => simpa [Judged] using h

/-- What has passed between the loader and the controller, no test having found the line on. -/
structure Conversed (commands outputs inputs : List UInt8) (past : List (Exchange Bios)) :
    Prop where
  failed : FastGateFailed past
  off : ⟨.wrapTest, true⟩ ∉ past
  commands : writtenTo statusPort past = commands
  outputs : readFrom dataPort past = outputs
  inputs : writtenTo dataPort past = inputs

/-- The controller has got some of the commands for the line. -/
def Begun (past : List (Exchange Bios)) : Prop :=
  ∃ first outputs inputs, first ≠ [] ∧ first <+: gateCommands ∧
    Conversed first outputs inputs past

section Controller

variable {past : List (Exchange Bios)} {commands outputs inputs : List UInt8}

theorem Conversed.append (h : Conversed commands outputs inputs past) (es : List (Exchange Bios))
    (hes : ⟨.wrapTest, true⟩ ∉ es) :
    Conversed (commands ++ writtenTo statusPort es) (outputs ++ readFrom dataPort es)
      (inputs ++ writtenTo dataPort es) (past ++ es) where
  failed := h.failed.append
  off := by simp [h.off, hes]
  commands := by rw [writtenTo_append, h.commands]
  outputs := by rw [readFrom_append, h.outputs]
  inputs := by rw [writtenTo_append, h.inputs]

theorem Conversed.look (h : Conversed commands outputs inputs past) (status : UInt8) :
    Conversed commands outputs inputs (past ++ [⟨.readPort statusPort, status⟩]) := by
  simpa [writtenTo, readFrom, statusPort, dataPort] using
    h.append [⟨.readPort statusPort, status⟩] (by simp)

theorem Conversed.reply (h : Conversed commands outputs inputs past) (output : UInt8) :
    Conversed commands (outputs ++ [output]) inputs (past ++ [⟨.readPort dataPort, output⟩]) := by
  simpa [writtenTo, readFrom] using h.append [⟨.readPort dataPort, output⟩] (by simp)

theorem Conversed.command (h : Conversed commands outputs inputs past) (command : UInt8) :
    Conversed (commands ++ [command]) outputs inputs
      (past ++ [⟨.writePort statusPort command, ()⟩]) := by
  simpa [writtenTo, readFrom, statusPort, dataPort] using
    h.append [⟨.writePort statusPort command, ()⟩] (by simp)

theorem Conversed.input (h : Conversed commands outputs inputs past) (value : UInt8) :
    Conversed commands outputs (inputs ++ [value])
      (past ++ [⟨.writePort dataPort value, ()⟩]) := by
  simpa [writtenTo, readFrom, statusPort, dataPort] using
    h.append [⟨.writePort dataPort value, ()⟩] (by simp)

/-- By induction on the looks: each one is allowed, and the last one or all of them show why the
wait is over. -/
theorem observes_pollStatus (ready : UInt8 → Bool) : ∀ (looks : Nat) (past : List (Exchange Bios)),
    Conversed commands outputs inputs past →
      (pollStatus ready looks).Observes portRule past fun now ok =>
        Conversed commands outputs inputs now ∧
          if ok = true then JustRead statusPort (fun status => ready status = true) now
          else ∃ last, readFrom statusPort now = readFrom statusPort past ++ last ∧
            last.length = looks ∧ ∀ status ∈ last, ready status = false
  | 0, past, h => observes_done.2 ⟨h, [], by simp⟩
  | looks + 1, past, h => by
    refine observes_ask.2 ⟨portRule_read_statusPort.2 h.failed, fun status => ?_⟩
    cases hs : ready status with
    | true => exact observes_done.2 ⟨h.look status, justRead_append hs⟩
    | false =>
      refine (observes_pollStatus ready looks _ (h.look status)).mono ?_
      rintro now ok ⟨h', hok⟩
      refine ⟨h', ?_⟩
      cases ok with
      | true => exact hok
      | false =>
        obtain ⟨last, hread, hlength, hlast⟩ := hok
        refine ⟨status :: last, ?_, by simp [hlength], by simpa [hs] using hlast⟩
        rw [hread, readFrom_append, List.append_assoc]
        rfl

theorem observes_waitInputEmpty (h : Conversed commands outputs inputs past) :
    waitInputEmpty.Observes portRule past fun now ok => Conversed commands outputs inputs now ∧
      if ok = true then JustRead statusPort (fun status => status &&& inputFull = 0) now
      else Stuck now := by
  refine (observes_pollStatus _ waitLoops past h).mono ?_
  rintro now ok ⟨h', hok⟩
  refine ⟨h', ?_⟩
  cases ok with
  | true => exact JustRead.mono hok fun status hs => beq_iff_eq.1 hs
  | false =>
    obtain ⟨last, hread, hlength, hlast⟩ := hok
    exact ⟨_, last, hread, hlength, fun status hs => beq_eq_false_iff_ne.1 (hlast status hs)⟩

theorem observes_waitOutputFull (h : Conversed commands outputs inputs past) :
    waitOutputFull.Observes portRule past fun now ok => Conversed commands outputs inputs now ∧
      (ok = true → JustRead statusPort (fun status => status &&& outputFull ≠ 0) now) := by
  refine (observes_pollStatus _ waitLoops past h).mono ?_
  rintro now ok ⟨h', hok⟩
  refine ⟨h', fun hready => ?_⟩
  rw [if_pos hready] at hok
  exact hok.mono fun status hs => bne_iff_ne.1 hs

theorem observes_command (h : Conversed commands outputs inputs past)
    (hr : JustRead statusPort (fun status => status &&& inputFull = 0) past) (command : UInt8) :
    (perform (.writePort statusPort command)).Observes portRule past fun now _ =>
      Conversed (commands ++ [command]) outputs inputs now := by
  refine observes_ask.2 ⟨portRule_write_statusPort.2 ⟨h.failed, hr⟩, fun _ => ?_⟩
  exact observes_done.2 (h.command command)

theorem Conversed.begun (h : Conversed commands outputs inputs past) (hne : commands ≠ [])
    (hfirst : commands <+: gateCommands) : Begun past :=
  ⟨commands, outputs, inputs, hne, hfirst, h⟩

theorem observes_writeGate {output : UInt8}
    (h : Conversed [disableKeyboard, readOutput] [output] [] past) :
    (writeGate output).Observes portRule past fun now _ => Begun now := by
  refine (observes_waitInputEmpty h).bind ?_
  rintro now ready ⟨h, hready⟩
  cases ready with
  | false => exact observes_done.2 (h.begun (by decide) (by decide))
  | true =>
    refine (observes_command h hready writeOutput).bind fun now _ h => ?_
    refine (observes_waitInputEmpty h).bind ?_
    rintro now ready ⟨h, hready⟩
    cases ready with
    | false => exact observes_done.2 (h.begun (by decide) (by decide))
    | true =>
      have hlast : (writtenTo statusPort now).getLast? = some writeOutput := by
        rw [h.commands]
        rfl
      refine observes_request.2 ⟨portRule_write_dataPort.2 ⟨⟨h.failed, hready⟩, h.inputs, hlast,
        output, h.outputs, rfl⟩, fun _ => ?_⟩
      exact observes_done.2 ((h.input (output ||| gate)).begun (by decide) (by decide))

theorem observes_switchGate (h : Conversed [disableKeyboard] [] [] past) :
    switchGate.Observes portRule past fun now _ => Begun now := by
  refine (observes_waitInputEmpty h).bind ?_
  rintro now ready ⟨h, hready⟩
  cases ready with
  | false => exact observes_done.2 (h.begun (by decide) (by decide))
  | true =>
    refine (observes_command h hready readOutput).bind fun now _ h => ?_
    refine (observes_waitOutputFull h).bind ?_
    rintro now ready ⟨h, hready⟩
    cases ready with
    | false => exact observes_done.2 (h.begun (by decide) (by decide))
    | true =>
      refine observes_request.2 ⟨portRule_read_dataPort.2 ⟨h.failed, h.outputs, hready rfl⟩, ?_⟩
      exact fun output => observes_writeGate (h.reply output)

theorem observes_restoreKeyboard (h : Begun past) :
    restoreKeyboard.Observes portRule past fun now _ => Commanded now ∧ Judged now false := by
  obtain ⟨first, outputs, inputs, hne, hfirst, h⟩ := h
  refine (observes_waitInputEmpty h).bind ?_
  rintro now ready ⟨h, hready⟩
  cases ready with
  | false =>
    -- the keyboard stays off: no look at the status comes after those of this wait
    exact observes_done.2 ⟨.inr ⟨first, hne, hfirst, .inr ⟨h.commands, hready⟩⟩, h.off⟩
  | true =>
    refine (observes_command h hready enableKeyboard).bind fun now _ h => ?_
    refine (observes_waitInputEmpty h).bind ?_
    rintro now ready ⟨h, -⟩
    exact observes_done.2 ⟨.inr ⟨first, hne, hfirst, .inl h.commands⟩, h.off⟩

theorem observes_tryKeyboardController (h : Conversed [] [] [] past) :
    tryKeyboardController.Observes portRule past fun now ok => Commanded now ∧ Judged now ok := by
  refine (observes_waitInputEmpty h).bind ?_
  rintro now ready ⟨h, hready⟩
  cases ready with
  | false => exact observes_done.2 ⟨.inl h.commands, h.off⟩
  | true =>
    refine (observes_command h hready disableKeyboard).bind fun now _ h => ?_
    refine (observes_switchGate h).bind fun now sent hbegun => ?_
    refine (observes_restoreKeyboard hbegun).bind ?_
    rintro now - ⟨hcommands, hoff⟩
    cases sent with
    | false => exact observes_done.2 ⟨hcommands, hoff⟩
    | true =>
      refine observes_ask.2 ⟨trivial, fun enabled => observes_done.2 ?_⟩
      exact ⟨hcommands.test enabled, judged_test hoff enabled⟩

end Controller

section Attempts

variable {past fast : List (Exchange Bios)}

theorem observes_judgeFastGate (hoff : ⟨.wrapTest, true⟩ ∉ past) :
    judgeFastGate.Observes portRule past Judged := by
  refine observes_request.2 ⟨trivial, fun _ => ?_⟩
  refine observes_request.2 ⟨portRule_read_fastPort, fun value => ?_⟩
  have hoff' : ⟨.wrapTest, true⟩ ∉ past ++ [⟨.delay, ()⟩] ++ [⟨.readPort fastPort, value⟩] := by
    simpa using hoff
  split
  · exact observes_done.2 hoff'
  · exact observes_ask.2 ⟨trivial, fun enabled => observes_done.2 (judged_test hoff' enabled)⟩

theorem observes_tryFastGate : tryFastGate.Observes portRule [⟨.wrapTest, false⟩] Judged := by
  rw [tryFastGate_eq]
  refine observes_request.2 ⟨portRule_read_fastPort, fun value => ?_⟩
  split
  · rename_i hvalue
    refine observes_request.2 ⟨portRule_write_fastPort.2 ⟨rfl, ?_⟩, fun _ => ?_⟩
    · exact ⟨value, rfl, hvalue, rfl⟩
    · exact observes_judgeFastGate (by simp)
  · exact observes_judgeFastGate (by simp)

/-- Nothing has passed between the loader and the controller while the fast gate was tried. -/
theorem conversed_nil (hf : Runs tryFastGate fast (some false))
    (hoff : Judged ([⟨.wrapTest, false⟩] ++ fast) false) :
    Conversed [] [] [] ([⟨.wrapTest, false⟩] ++ fast) := by
  have hfast := only_tryFastGate.of_runs hf
  refine ⟨⟨fast, [], by simp, hf⟩, hoff, ?_, ?_, ?_⟩
  · rw [writtenTo_append, writtenTo_of_fastGateCalls (by decide) hfast]
    rfl
  · rw [readFrom_append, readFrom_of_fastGateCalls (by decide) hfast]
    rfl
  · rw [writtenTo_append, writtenTo_of_fastGateCalls (by decide) hfast]
    rfl

theorem observes_enable : enable.Observes portRule [] fun now method =>
    Commanded now ∧ Attempted now method ∧
      (method ≠ .failed ↔ now.getLast? = some ⟨.wrapTest, true⟩) := by
  refine observes_request.2 ⟨trivial, fun enabled => ?_⟩
  cases enabled with
  | true => exact observes_done.2 ⟨.inl rfl, .none, by simp⟩
  | false =>
    refine observes_tryFastGate.runs.bind ?_
    rintro now ok ⟨hok, fast, rfl, hf⟩
    have hfast := only_tryFastGate.of_runs hf
    cases ok with
    | true =>
      refine observes_done.2 ⟨.inl ?_, .fastGate hf hfast, by simpa using hok.iff⟩
      exact writtenTo_of_fastGateCalls (by decide) (List.forall_mem_cons.2 ⟨trivial, hfast⟩)
    | false =>
      refine (observes_tryKeyboardController (conversed_nil hf hok)).runs.bind ?_
      rintro now ok ⟨⟨hcommands, hok⟩, controller, rfl, hc⟩
      have hcontroller := only_tryKeyboardController.of_runs hc
      have hattempted := Attempted.both hf hfast hc hcontroller
      rw [List.append_assoc] at hcommands hok ⊢
      cases ok with
      | true => exact observes_done.2 ⟨hcommands, hattempted, by simpa using hok.iff⟩
      | false => exact observes_done.2 ⟨hcommands, hattempted, by simpa using hok.iff⟩

end Attempts

/-- Turning the line on comes to an end, and is disciplined, whatever the ports and tests give. -/
theorem disciplined_of_runs {es : List (Exchange Bios)} {o : Option Method}
    (h : Runs enable es o) : ∃ method, o = some method ∧ Disciplined es method := by
  obtain ⟨hports, method, rfl, hcommands, hattempts, hsuccess⟩ := observes_enable.of_runs h
  exact ⟨method, rfl, hports, hcommands, hattempts, hsuccess⟩

/-- A machine whose fast gate does nothing, with a controller that is always ready. -/
def fixedGate : (q : Bios.Call) → (lineOn : Bool) → q.Reply × Bool
  | .disk _, lineOn => ({ carry := true }, lineOn)
  | .teletype _, lineOn => ((), lineOn)
  | .readPort port, lineOn =>
    if port = dataPort then (0xDD, lineOn) else if port = fastPort then (0x25, lineOn)
    else (outputFull, lineOn)
  | .writePort port value, lineOn =>
    if port = dataPort then ((), value &&& gate != 0) else ((), lineOn)
  | .delay, lineOn => ((), lineOn)
  | .wrapTest, lineOn => (lineOn, lineOn)
  | .codeSegment, lineOn => (0, lineOn)
  | .tableOffset, lineOn => (0, lineOn)

theorem disciplined_fixedGate : ∃ es, Runs enable es (some .keyboardController) ∧
    writtenTo 0x92 es = [0x26] ∧ writtenTo 0x60 es = [0xDF] ∧
      writtenTo 0x64 es = [0xAD, 0xD0, 0xD1, 0xAE] ∧
        Disciplined es .keyboardController := by
  have hr := runs_exchanges fixedGate enable false
  have ho : (enable.run fixedGate false).1 = some .keyboardController := by decide +kernel
  rw [ho] at hr
  obtain ⟨method, hmethod, hes⟩ := disciplined_of_runs hr
  cases hmethod
  exact ⟨_, hr, by decide +kernel, by decide +kernel, by decide +kernel, hes⟩

end Bootloader.Legacy.A20
