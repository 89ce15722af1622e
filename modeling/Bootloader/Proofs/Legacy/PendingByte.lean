import Bootloader.Proofs.Legacy.PortDiscipline

/-!
# Whose byte is sent back to the output port

The byte that is read after the controller was asked for its output port is sent back with the line
on.  It is the reply only if no other byte was waiting by then, of which the last look at the status
can tell (`replyRule`).

That look is for another bit: the controller is asked as soon as it takes a byte.  So the rule is
kept just if nothing happens to be waiting at that look (`keptBy_replyRule_iff`), and a key pressed
before that goes out to the output port in place of the reply (`outputPort_run`).
-/

namespace Bootloader.Legacy.A20

open Bios Program

/-- The call asks for the output port. -/
def AsksOutput (q : Bios.Call) : Prop := q = .writePort 0x64 0xD0

/-- The output port is asked for only where the last look at the status found no byte waiting. -/
def replyRule : Rule Bios := fun past q => AsksOutput q →
  ∃ status, (readFrom 0x64 past).getLast? = some status ∧ status &&& 0x01 = 0

/-- The controller takes a byte. -/
def takes (status : UInt8) : Bool := status &&& 0x02 == 0

/-- The status at which the output port is asked for, of all that are read: after the one at which
the keyboard is turned off, the first one that shows that a byte is taken, if it comes in time. -/
def askedOver? (statuses : List UInt8) : Option UInt8 :=
  ((statuses.dropWhile (!takes ·)).tail.take 100000).find? takes

/-- A look at the status. -/
abbrev look (status : UInt8) : Exchange Bios := ⟨.readPort 0x64, status⟩

/-- A command to the controller. -/
abbrev command (value : UInt8) : Exchange Bios := ⟨.writePort statusPort value, ()⟩

/-- What a wait has seen, and whether it came to an end in time. -/
inductive Waited (ready : UInt8 → Bool) (looks : Nat) : List UInt8 → Bool → Prop
  | met {before : List UInt8} {status : UInt8} (hbefore : ∀ s ∈ before, ready s = false)
      (hstatus : ready status = true) (hlength : before.length < looks) :
    Waited ready looks (before ++ [status]) true
  | gaveUp {before : List UInt8} (hbefore : ∀ s ∈ before, ready s = false)
      (hlength : before.length = looks) : Waited ready looks before false

/-- The looks of two waits, and the command that turns the keyboard off between them. -/
def opening (first second : List UInt8) : List (Exchange Bios) :=
  first.map look ++ command disableKeyboard :: second.map look

/-- What passes when the keyboard controller is tried: its output port is asked for after two waits
that came to an end in time, and then only. -/
inductive Tried : List (Exchange Bios) → Prop
  | unready {statuses : List UInt8} (h : Waited takes waitLoops statuses false) :
    Tried (statuses.map look)
  | unasked {first second : List UInt8} {rest : List (Exchange Bios)}
      (hfirst : Waited takes waitLoops first true) (hsecond : Waited takes waitLoops second false)
      (hrest : ∀ e ∈ rest, ¬AsksOutput e.1) :
    Tried (opening first second ++ rest)
  | asked {first before : List UInt8} {status : UInt8} {rest : List (Exchange Bios)}
      (hfirst : Waited takes waitLoops first true) (hbefore : ∀ s ∈ before, takes s = false)
      (hstatus : takes status = true) (hlength : before.length < waitLoops)
      (hrest : ∀ e ∈ rest, ¬AsksOutput e.1) :
    Tried (opening first (before ++ [status]) ++ command readOutput :: rest)

section Course

variable {A : Exchange Bios → Prop}

/-- By induction on the looks that are left. -/
theorem ensures_pollStatus (ready : UInt8 → Bool) : ∀ looks : Nat,
    (pollStatus ready looks).Ensures A fun es ok =>
      ∃ statuses, es = statuses.map look ∧ Waited ready looks statuses ok
  | 0 => ensures_done.2 ⟨[], rfl, .gaveUp (List.forall_mem_nil _) rfl⟩
  | looks + 1 => by
    refine ensures_ask.2 fun status _ => ?_
    cases hs : ready status with
    | true =>
      exact ensures_done.2 ⟨[status], rfl, .met (List.forall_mem_nil _) hs (Nat.succ_pos looks)⟩
    | false =>
      refine (ensures_pollStatus ready looks).mono ?_
      rintro es ok ⟨statuses, rfl, hw⟩
      refine ⟨status :: statuses, rfl, ?_⟩
      cases hw with
      | met hbefore hstatus hlength =>
        exact .met (List.forall_mem_cons.2 ⟨hs, hbefore⟩) hstatus (Nat.succ_lt_succ hlength)
      | gaveUp hbefore hlength =>
        exact .gaveUp (List.forall_mem_cons.2 ⟨hs, hbefore⟩) (congrArg Nat.succ hlength)

theorem not_asksOutput_readPort (port : UInt16) : ¬AsksOutput (.readPort port) := by
  simp [AsksOutput]

theorem not_asksOutput_command {value : UInt8} (h : value ≠ readOutput) :
    ¬AsksOutput (.writePort statusPort value) := by
  simpa [AsksOutput, statusPort, readOutput] using h

theorem not_asksOutput_data (value : UInt8) : ¬AsksOutput (.writePort dataPort value) := by
  simp [AsksOutput, dataPort]

/-- What comes after the reply was waited for. -/
def afterReply (ready : Bool) : Program Bios Bool := do
  if !ready then return false
  let output ← perform (.readPort dataPort)
  writeGate output

theorem only_unasking_afterReply (ready : Bool) :
    (afterReply ready).Only fun q => ¬AsksOutput q := by
  cases ready
  · trivial
  · exact ⟨not_asksOutput_readPort _, only_writeGate (not_asksOutput_readPort _)
      (not_asksOutput_command (by decide)) not_asksOutput_data⟩

theorem ensures_switchGate_asks : switchGate.Ensures A fun es _ =>
    (∃ second : List UInt8, es = second.map look ∧ Waited takes waitLoops second false) ∨
      ∃ (before : List UInt8) (status : UInt8) (rest : List (Exchange Bios)),
        es = (before ++ [status]).map look ++ command readOutput :: rest ∧
          (∀ s ∈ before, takes s = false) ∧ takes status = true ∧ before.length < waitLoops ∧
            ∀ e ∈ rest, ¬AsksOutput e.1 := by
  refine (ensures_pollStatus takes waitLoops).bind ?_
  rintro _ ok ⟨statuses, rfl, hw⟩
  cases hw with
  | gaveUp hbefore hlength =>
    exact ensures_done.2 (.inl ⟨statuses, List.append_nil _, .gaveUp hbefore hlength⟩)
  | met hbefore hstatus hlength =>
    have hrest : (waitOutputFull >>= afterReply).Only fun q => ¬AsksOutput q :=
      (only_waitOutputFull (not_asksOutput_readPort _)).bind only_unasking_afterReply
    refine ensures_request.2 fun _ _ => hrest.ensures.mono fun rest _ hrest => ?_
    exact .inr ⟨_, _, rest, rfl, hbefore, hstatus, hlength, hrest⟩

theorem ensures_tried : tryKeyboardController.Ensures A fun es _ => Tried es := by
  refine (ensures_pollStatus takes waitLoops).bind ?_
  rintro _ ok ⟨first, rfl, hfirst⟩
  cases ok with
  | false =>
    refine ensures_done.2 ?_
    rw [List.append_nil]
    exact .unready hfirst
  | true =>
    refine ensures_request.2 fun _ _ => ensures_switchGate_asks.bind fun es sent hes => ?_
    have hend : (restoreKeyboard >>= fun _ =>
        if sent then perform .wrapTest else return false).Only fun q => ¬AsksOutput q := by
      refine (only_restoreKeyboard (not_asksOutput_readPort _)
        (not_asksOutput_command (by decide))).bind fun _ => ?_
      cases sent
      · trivial
      · exact ⟨by simp [AsksOutput], fun _ => trivial⟩
    refine hend.ensures.mono fun last _ hlast => ?_
    rcases hes with ⟨second, rfl, hsecond⟩ | ⟨before, status, rest, rfl, hb, hs, hl, hrest⟩
    · have h := Tried.unasked hfirst hsecond hlast
      rwa [opening, List.append_assoc] at h
    · have h := Tried.asked hfirst hb hs hl (List.forall_mem_append.2 ⟨hrest, hlast⟩)
      rw [opening, List.append_assoc] at h
      rwa [List.append_assoc]

end Course

section Verdict

variable {es rest : List (Exchange Bios)} {first before statuses : List UInt8} {status : UInt8}

@[simp] theorem readFrom_map_look : readFrom 0x64 (statuses.map look) = statuses := by
  rw [readFrom, List.filterMap_map]
  exact List.filterMap_some

theorem keptBy_of_unasking (h : ∀ e ∈ es, ¬AsksOutput e.1) : replyRule.KeptBy es :=
  Rule.keptBy_of_forall fun e he _ hasks => absurd hasks (h e he)

theorem unasking_look : ∀ e ∈ statuses.map look, ¬AsksOutput e.1 := by
  intro e he
  obtain ⟨status, -, rfl⟩ := List.mem_map.1 he
  exact not_asksOutput_readPort _

theorem askedOver?_of_unready (h : ∀ s ∈ statuses, takes s = false) :
    askedOver? statuses = none := by
  have hdrop : (statuses ++ []).dropWhile (!takes ·) = [] :=
    List.dropWhile_append_of_pos fun s hs => by simp [h s hs]
  rw [askedOver?, ← List.append_nil statuses, hdrop]
  rfl

/-- The first wait is over at the first status that shows that a byte is taken. -/
theorem askedOver?_append (h : Waited takes waitLoops first true) :
    askedOver? (first ++ statuses) = (statuses.take waitLoops).find? takes := by
  cases h with
  | @met before status hbefore hstatus _ =>
    have hdrop : (before ++ status :: statuses).dropWhile (!takes ·) = status :: statuses := by
      rw [List.dropWhile_append_of_pos fun s hs => by simp [hbefore s hs], List.dropWhile_cons,
        if_neg (by simp [hstatus])]
    rw [askedOver?, List.append_assoc, List.singleton_append, hdrop, List.tail_cons, waitLoops]

theorem find?_take_eq_none (hbefore : ∀ s ∈ before, takes s = false)
    (hlength : before.length = waitLoops) :
    ((before ++ statuses).take waitLoops).find? takes = none := by
  rw [List.take_left' hlength]
  exact List.find?_eq_none.2 fun s hs => by simp [hbefore s hs]

theorem find?_take_eq_some (hbefore : ∀ s ∈ before, takes s = false) (hstatus : takes status = true)
    (hlength : before.length < waitLoops) :
    ((before ++ status :: statuses).take waitLoops).find? takes = some status := by
  obtain ⟨n, hn⟩ : ∃ n, waitLoops - before.length = n + 1 := ⟨waitLoops - before.length - 1, by omega⟩
  rw [List.take_append, List.take_of_length_le (Nat.le_of_lt hlength), hn, List.take_succ_cons]
  exact List.find?_eq_some_iff_append.2
    ⟨hstatus, before, _, rfl, fun s hs => by simp [hbefore s hs]⟩

/-- The rule is kept where the output port is asked for if it is not asked for anywhere else. -/
theorem keptBy_replyRule_append (hes : ∀ e ∈ es, ¬AsksOutput e.1)
    (hrest : ∀ e ∈ rest, ¬AsksOutput e.1) (hlast : (readFrom 0x64 es).getLast? = some status) :
    replyRule.KeptBy (es ++ command readOutput :: rest) ↔ status &&& outputFull = 0 := by
  constructor
  · intro hkept
    obtain ⟨found, hfound, hclear⟩ := hkept es (command readOutput) rest rfl rfl
    obtain rfl : status = found := Option.some.inj (hlast.symm.trans hfound)
    exact hclear
  · rintro hclear pre ⟨q, r⟩ post hpost hasks
    cases (hasks : q = .writePort statusPort readOutput)
    -- it is asked for once, so there is one place where this can be
    have hasked : AsksOutput (command readOutput).1 := rfl
    obtain ⟨rfl, -⟩ := eq_of_append_cons (fun hmem => hes _ hmem hasked)
      (fun hmem => hrest _ hmem hasked) hpost
    exact ⟨status, hlast, hclear⟩

theorem readFrom_opening : readFrom 0x64 (opening first statuses) = first ++ statuses := by
  have hcommand : readFrom 0x64 [command disableKeyboard] = [] := rfl
  rw [opening, readFrom_append, ← List.singleton_append, readFrom_append, hcommand,
    readFrom_map_look, readFrom_map_look, List.nil_append]

theorem unasking_opening : ∀ e ∈ opening first statuses, ¬AsksOutput e.1 :=
  List.forall_mem_append.2 ⟨unasking_look, List.forall_mem_cons.2
    ⟨not_asksOutput_command (by decide), unasking_look⟩⟩

theorem Tried.keptBy_iff (h : Tried es) : replyRule.KeptBy es ↔
    ∀ status ∈ askedOver? (readFrom 0x64 es), status &&& outputFull = 0 := by
  cases h with
  | @unready statuses h =>
    cases h with
    | gaveUp hbefore _ =>
      rw [readFrom_map_look, askedOver?_of_unready hbefore]
      exact iff_of_true (keptBy_of_unasking unasking_look) (by simp)
  | @unasked first second rest hfirst hsecond hrest =>
    cases hsecond with
    | gaveUp hbefore hlength =>
      rw [readFrom_append, readFrom_opening, List.append_assoc, askedOver?_append hfirst,
        find?_take_eq_none hbefore hlength]
      refine iff_of_true (keptBy_of_unasking ?_) (by simp)
      exact List.forall_mem_append.2 ⟨unasking_opening, hrest⟩
  | @asked first before status rest hfirst hbefore hstatus hlength hrest =>
    have hlast : (readFrom 0x64 (opening first (before ++ [status]))).getLast? =
        some status := by
      rw [readFrom_opening, ← List.append_assoc]
      exact List.getLast?_concat ..
    rw [keptBy_replyRule_append unasking_opening hrest hlast, readFrom_append, readFrom_opening,
      List.append_assoc, List.append_assoc, askedOver?_append hfirst, List.singleton_append,
      find?_take_eq_some hbefore hstatus hlength]
    simp

/-- The output port is asked for in keeping with the rule just if no byte happens to be waiting at the
look that shows that the controller takes the question. -/
theorem keptBy_replyRule_iff {o : Option Bool} (h : Runs tryKeyboardController es o) :
    replyRule.KeptBy es ↔ ∀ status ∈ askedOver? (readFrom 0x64 es), status &&& 0x01 = 0 := by
  obtain ⟨_, -, htried⟩ := ensures_tried.exists_of_run h
  exact htried.keptBy_iff

end Verdict

/-- A controller that takes each byte at once: the bytes that can be read from it, its output port,
and whether the next byte is for that port. -/
structure Controller where
  waiting : List UInt8
  outputPort : UInt8
  expecting : Bool := false

/-- It never keeps the loader waiting. -/
def Controller.status (c : Controller) : UInt8 := if c.waiting = [] then 0 else outputFull

/-- The reply to the question for the output port comes after what is waiting already. -/
def Controller.answer : (q : Bios.Call) → Controller → q.Reply × Controller
  | .disk _, c => ({ carry := true }, c)
  | .teletype _, c => ((), c)
  | .readPort port, c =>
    if port = statusPort then (c.status, c)
    else if port = dataPort then (c.waiting.headD 0, { c with waiting := c.waiting.tail })
    else (0, c)
  | .writePort port value, c =>
    if port = statusPort then
      if value = readOutput then ((), { c with waiting := c.waiting ++ [c.outputPort] })
      else ((), { c with expecting := value == writeOutput })
    else if port = dataPort ∧ c.expecting then ((), { c with outputPort := value, expecting := false })
    else ((), c)
  | .delay, c => ((), c)
  | .wrapTest, c => (c.outputPort &&& gate != 0, c)
  | .codeSegment, c => (0, c)
  | .tableOffset, c => (0, c)

section Device

variable {σ : Type} {answer : (q : Bios.Call) → σ → q.Reply × σ} {ready : UInt8 → Bool}

theorem run_pollStatus_of_ready {status : UInt8} {s : σ}
    (hs : answer (.readPort statusPort) s = (status, s)) (hready : ready status = true)
    (looks : Nat) : (pollStatus ready (looks + 1)).run answer s = (some true, s) := by
  rw [pollStatus, run_ask, hs]
  simp only [hready]
  rfl

variable (c : Controller)

theorem run_waitInputEmpty : waitInputEmpty.run Controller.answer c = (some true, c) := by
  have hlook : Controller.answer (.readPort statusPort) c = (c.status, c) := rfl
  refine run_pollStatus_of_ready hlook ?_ _
  rw [Controller.status]
  split <;> decide

theorem run_waitOutputFull (h : c.waiting ≠ []) :
    waitOutputFull.run Controller.answer c = (some true, c) := by
  have hlook : Controller.answer (.readPort statusPort) c = (c.status, c) := rfl
  refine run_pollStatus_of_ready hlook ?_ _
  rw [Controller.status, if_neg h]
  decide

theorem run_writeGate (output : UInt8) : (writeGate output).run Controller.answer c =
    (some true, ⟨c.waiting, output ||| gate, false⟩) := by
  have hcommand : (perform (.writePort statusPort writeOutput)).run Controller.answer c =
      (some (), { c with expecting := true }) := rfl
  rw [writeGate, run_bind_of_eq (run_waitInputEmpty c), if_neg (by decide),
    run_bind_of_eq hcommand, run_bind_of_eq (run_waitInputEmpty _)]
  rfl

theorem run_switchGate : switchGate.run Controller.answer c =
    (some true, ⟨(c.waiting ++ [c.outputPort]).tail, c.waiting.headD c.outputPort ||| gate,
      false⟩) := by
  have hask : (perform (.writePort statusPort readOutput)).run Controller.answer c =
      (some (), { c with waiting := c.waiting ++ [c.outputPort] }) := rfl
  have hread : (perform (.readPort dataPort)).run Controller.answer
      { c with waiting := c.waiting ++ [c.outputPort] } =
        (some (c.waiting.headD c.outputPort),
          { c with waiting := (c.waiting ++ [c.outputPort]).tail }) := by
    obtain ⟨waiting, outputPort, expecting⟩ := c
    cases waiting <;> rfl
  rw [switchGate, run_bind_of_eq (run_waitInputEmpty c), if_neg (by decide), run_bind_of_eq hask,
    run_bind_of_eq (run_waitOutputFull _ (by simp)), if_neg (by decide), run_bind_of_eq hread,
    run_writeGate]

theorem run_restoreKeyboard : restoreKeyboard.run Controller.answer c =
    (some (), { c with expecting := false }) := by
  have hcommand : (perform (.writePort statusPort enableKeyboard)).run Controller.answer c =
      (some (), { c with expecting := false }) := rfl
  rw [restoreKeyboard, run_bind_of_eq (run_waitInputEmpty c), if_pos rfl,
    run_bind_of_eq hcommand, run_bind_of_eq (run_waitInputEmpty _)]
  rfl

/-- What goes to the output port is the first byte that was waiting, or what was there if none
was. -/
theorem outputPort_run : (tryKeyboardController.run Controller.answer c).2.outputPort =
    c.waiting.headD c.outputPort ||| gate := by
  have hcommand : (perform (.writePort statusPort disableKeyboard)).run Controller.answer c =
      (some (), { c with expecting := false }) := rfl
  rw [tryKeyboardController, run_bind_of_eq (run_waitInputEmpty c), if_neg (by decide),
    run_bind_of_eq hcommand, run_bind_of_eq (run_switchGate _),
    run_bind_of_eq (run_restoreKeyboard _), if_pos rfl]
  rfl

end Device

/-- A controller whose output port has the line off, and the one for the reset up. -/
def lineOff (waiting : List UInt8) : Controller := ⟨waiting, 0xDD, false⟩

/-- The exchanges with that controller. -/
def lineOffCalls (waiting : List UInt8) : List (Exchange Bios) :=
  tryKeyboardController.exchanges Controller.answer (lineOff waiting)

theorem runs_lineOffCalls (waiting : List UInt8) :
    ∃ o, Runs tryKeyboardController (lineOffCalls waiting) o :=
  ⟨_, runs_exchanges _ _ _⟩

/-- With nothing waiting the output port is asked for in keeping with the rule, and gets its own byte
back with the line on. -/
theorem keptBy_replyRule_quiet : ∃ o, Runs tryKeyboardController (lineOffCalls []) o ∧
    askedOver? (readFrom 0x64 (lineOffCalls [])) = some 0 ∧
      writtenTo 0x60 (lineOffCalls []) = [0xDF] ∧ replyRule.KeptBy (lineOffCalls []) := by
  obtain ⟨o, hr⟩ := runs_lineOffCalls []
  have hasked : askedOver? (readFrom 0x64 (lineOffCalls [])) = some 0 := by decide +kernel
  refine ⟨o, hr, hasked, by decide +kernel, (keptBy_replyRule_iff hr).2 fun status h => ?_⟩
  rw [hasked] at h
  cases h
  rfl

/-- With a key waiting (0x1C, Enter) the rule is not kept: the key goes to the output port, and takes
the line for the reset down. -/
theorem not_keptBy_pendingKey : (∃ o, Runs tryKeyboardController (lineOffCalls [0x1C]) o) ∧
    ¬replyRule.KeptBy (lineOffCalls [0x1C]) ∧
      (tryKeyboardController.run Controller.answer (lineOff [0x1C])).2.outputPort = 0x1E := by
  refine ⟨runs_lineOffCalls _, fun hkept => ?_, outputPort_run _⟩
  have hcourse : lineOffCalls [0x1C] =
      opening [outputFull] [outputFull] ++ command readOutput :: (lineOffCalls [0x1C]).drop 4 := rfl
  obtain ⟨status, hlast, hclear⟩ := hkept _ _ _ hcourse rfl
  rw [readFrom_opening] at hlast
  cases hlast
  exact absurd hclear (by decide)

end Bootloader.Legacy.A20
