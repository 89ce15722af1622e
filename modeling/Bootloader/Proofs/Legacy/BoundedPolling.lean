import Bootloader.Proofs.Legacy.PendingByte
import Mathlib.Data.Nat.Bitwise
import Mathlib.Data.Nat.Find
import Mathlib.Order.Bounds.Basic

/-!
# How long turning the A20 line on can take

A wait looks at the status until it is as it should be, but only so often.  What it does is told for
every sequence of values that the status may have: they are read up to the first one that is waited
for, and if that is not among as many as there may be looks, all of these are read
(`pollsFor_pollStatus`).

Nothing else is done over and over.  So turning the line on is over after seven waits, six writes
and three tests at the most, whatever the ports and the tests give (`polling_bounded`).  With a
controller that is late each time it does take as many (`within_slowCalls`).
-/

namespace Bootloader.Legacy.A20

open Bios Program

/-- The looks at the status that get the first `n` values of a sequence. -/
def looksAt (statuses : Nat → UInt8) (n : Nat) : List (Exchange Bios) :=
  ((List.range n).map statuses).map look

/-- What is read from the status is the first values of a sequence, in their order. -/
def Fed (statuses : Nat → UInt8) (es : List (Exchange Bios)) : Prop :=
  ∃ n, readFrom 0x64 es = (List.range n).map statuses

/-- How many values of a sequence are read in search of one of which `P` holds, and whether it is
met: those up to the first such value, if it comes within so many looks, and one for each look if
not. -/
structure Polled (P : UInt8 → Prop) (looks : Nat) (statuses : Nat → UInt8) (n : Nat) (met : Bool) :
    Prop where
  met_iff : met = true ↔ ∃ i < looks, P (statuses i)
  upToFirst : met = true → IsLeast {k | ∃ i < k, P (statuses i)} n
  all : met = false → n = looks

/-- The wait is for a value of which `P` holds: it has one course for the values that the status is
to have, whatever they are. -/
def PollsFor (P : UInt8 → Prop) (looks : Nat) (wait : Program Bios Bool) : Prop :=
  ∀ statuses : Nat → UInt8, ∃ n met, Polled P looks statuses n met ∧
    ∀ es o, Fed statuses es → (Runs wait es o ↔ es = looksAt statuses n ∧ o = some met)

/-- A look at the status. -/
def isLook : Exchange Bios → Bool
  | ⟨.readPort port, _⟩ => port == 0x64
  | _ => false

/-- A write to a port. -/
def isWrite : Exchange Bios → Bool
  | ⟨.writePort .., _⟩ => true
  | _ => false

/-- A wrap-around test. -/
def isTest : Exchange Bios → Bool
  | ⟨.wrapTest, _⟩ => true
  | _ => false

/-- There are no more looks at the status than so many waits may take, and no more writes and tests
than so many. -/
structure Within (waits writes tests : Nat) (es : List (Exchange Bios)) : Prop where
  looks : es.countP isLook ≤ waits * 100000
  writes : es.countP isWrite ≤ writes
  tests : es.countP isTest ≤ tests

/-- Whatever it is replied, the program comes to an end within so many waits, writes and tests. -/
def EndsWithin {α : Type} (p : Program Bios α) (waits writes tests : Nat) : Prop :=
  p.Ensures (fun _ => True) fun es _ => Within waits writes tests es

section Wait

variable {P : UInt8 → Prop} {ready : UInt8 → Bool} {looks n : Nat} {met : Bool}
variable {before statuses : List UInt8} {values : Nat → UInt8} {es : List (Exchange Bios)}
variable {o : Option Bool}

theorem runs_pollStatus_append (hbefore : ∀ s ∈ before, ready s = false)
    (h : Runs (pollStatus ready looks) es o) :
    Runs (pollStatus ready (looks + before.length)) (before.map look ++ es) o := by
  induction before with
  | nil => exact h
  | cons status before ih =>
    rw [List.forall_mem_cons] at hbefore
    refine .ask ?_
    rw [hbefore.1]
    exact ih hbefore.2

theorem Waited.runs (h : Waited ready looks statuses met) :
    Runs (pollStatus ready looks) (statuses.map look) (some met) := by
  cases h with
  | @met before status hbefore hstatus hlength =>
    obtain ⟨left, rfl⟩ : ∃ left, looks = left + 1 + before.length :=
      ⟨looks - 1 - before.length, by omega⟩
    rw [List.map_append]
    refine runs_pollStatus_append hbefore (.ask ?_)
    rw [hstatus]
    exact .done true
  | gaveUp hbefore hlength =>
    rw [← hlength, ← Nat.zero_add statuses.length, ← List.append_nil (statuses.map look)]
    exact runs_pollStatus_append hbefore (.done false)

theorem exists_polled (P : UInt8 → Prop) (looks : Nat) (values : Nat → UInt8) :
    ∃ n met, Polled P looks values n met := by
  classical
  by_cases h : ∃ i < looks, P (values i)
  · have hsome : ∃ i, P (values i) := h.imp fun _ hi => hi.2
    refine ⟨Nat.find hsome + 1, true, iff_of_true rfl h, fun _ => ⟨?_, ?_⟩, nofun⟩
    · exact ⟨Nat.find hsome, Nat.lt_succ_self _, Nat.find_spec hsome⟩
    · rintro k ⟨i, hi, hvalue⟩
      exact Nat.succ_le_of_lt ((Nat.find_min' hsome hvalue).trans_lt hi)
  · exact ⟨looks, false, iff_of_false Bool.false_ne_true h, nofun, fun _ => rfl⟩

/-- The last of the values that are read is the first one that is waited for. -/
theorem Polled.waited (hP : ∀ s, ready s = true ↔ P s) (h : Polled P looks values n met) :
    Waited ready looks ((List.range n).map values) met := by
  have hunready : ∀ k, (∀ i < k, ¬P (values i)) →
      ∀ s ∈ (List.range k).map values, ready s = false := by
    intro k hk s hs
    obtain ⟨i, hi, rfl⟩ := List.mem_map.1 hs
    rw [Bool.eq_false_iff, ne_eq, hP]
    exact hk i (List.mem_range.1 hi)
  cases met with
  | true =>
    obtain ⟨⟨i, hi, hvalue⟩, hleast⟩ := h.upToFirst rfl
    obtain rfl : n = i + 1 := Nat.le_antisymm (hleast ⟨i, Nat.lt_succ_self i, hvalue⟩) hi
    have hfirst : ∀ j < i, ¬P (values j) := by
      intro j hj hvalue'
      have hle := hleast ⟨j, Nat.lt_succ_self j, hvalue'⟩
      omega
    obtain ⟨j, hj, hvalue'⟩ := h.met_iff.1 rfl
    have hij : i ≤ j := Nat.le_of_not_lt fun hlt => hfirst j hlt hvalue'
    rw [List.range_succ, List.map_append]
    exact .met (hunready i hfirst) ((hP _).2 hvalue) (by simpa using hij.trans_lt hj)
  | false =>
    obtain rfl := h.all rfl
    refine .gaveUp (hunready n fun i hi hvalue => ?_) (by simp)
    exact Bool.false_ne_true (h.met_iff.2 ⟨i, hi, hvalue⟩)

theorem looksAt_prefix (values : Nat → UInt8) {k : Nat} (h : k ≤ n) :
    looksAt values k <+: looksAt values n := by
  obtain ⟨d, rfl⟩ := Nat.exists_eq_add_of_le h
  rw [looksAt, looksAt, List.range_add, List.map_append, List.map_append]
  exact List.prefix_append ..

theorem pollsFor_pollStatus (hP : ∀ s, ready s = true ↔ P s) (looks : Nat) :
    PollsFor P looks (pollStatus ready looks) := by
  intro values
  obtain ⟨n, met, hpolled⟩ := exists_polled P looks values
  have hrun : Runs (pollStatus ready looks) (looksAt values n) (some met) :=
    (hpolled.waited hP).runs
  refine ⟨n, met, hpolled, fun es o hfed => ⟨fun h => ?_, ?_⟩⟩
  · obtain ⟨ok, rfl, statuses, rfl, -⟩ := (ensures_pollStatus ready looks).exists_of_run h
    obtain ⟨k, hk⟩ := hfed
    rw [readFrom_map_look] at hk
    subst hk
    -- of two runs on the same values one begins with the other, and so they are the same
    rcases Nat.le_total k n with hle | hle
    · obtain ⟨rest, hrest⟩ := looksAt_prefix values hle
      exact h.eq_of_append hrun (hrest.trans (List.append_nil _).symm)
    · obtain ⟨rest, hrest⟩ := looksAt_prefix values hle
      exact h.eq_of_append hrun ((List.append_nil _).trans hrest.symm)
  · rintro ⟨rfl, rfl⟩
    exact hrun

theorem and_mask_eq_zero_iff {status mask : UInt8} {i : Nat} (hmask : mask.toNat = 2 ^ i) :
    status &&& mask = 0 ↔ status.toNat.testBit i = false := by
  rw [← UInt8.toNat_inj, UInt8.toNat_and, hmask, Nat.and_two_pow]
  cases status.toNat.testBit i <;> simp

end Wait

section Effort

variable {α β : Type} {p : Program Bios α} {f : α → Program Bios β}
variable {es es' : List (Exchange Bios)} {waits writes tests waits' writes' tests' : Nat}

theorem countP_append_le {kind : Exchange Bios → Bool} {m m' : Nat} (h : es.countP kind ≤ m)
    (h' : es'.countP kind ≤ m') : (es ++ es').countP kind ≤ m' + m := by
  rw [List.countP_append, Nat.add_comm]
  exact Nat.add_le_add h' h

theorem Within.append (h : Within waits writes tests es) (h' : Within waits' writes' tests' es') :
    Within (waits' + waits) (writes' + writes) (tests' + tests) (es ++ es') where
  looks := by
    rw [Nat.add_mul]
    exact countP_append_le h.looks h'.looks
  writes := countP_append_le h.writes h'.writes
  tests := countP_append_le h.tests h'.tests

theorem within_nil : Within waits writes tests [] :=
  ⟨Nat.zero_le _, Nat.zero_le _, Nat.zero_le _⟩

theorem endsWithin_done {a : α} : EndsWithin (done a) waits writes tests :=
  ensures_done.2 within_nil

theorem endsWithin_perform {q : Bios.Call} (h : ∀ r, Within waits writes tests [⟨q, r⟩]) :
    EndsWithin (perform q) waits writes tests := ensures_ask.2 fun r _ => ensures_done.2 (h r)

theorem EndsWithin.bind (hp : EndsWithin p waits writes tests)
    (hf : ∀ a, EndsWithin (f a) waits' writes' tests') :
    EndsWithin (p >>= f) (waits' + waits) (writes' + writes) (tests' + tests) :=
  Ensures.bind hp fun _ a h => (hf a).mono fun _ _ h' => h.append h'

theorem EndsWithin.mono_writes (hp : EndsWithin p waits writes tests) (h : writes ≤ writes') :
    EndsWithin p waits writes' tests :=
  Ensures.mono hp fun _ _ hes => ⟨hes.looks, hes.writes.trans h, hes.tests⟩

theorem endsWithin_write (port : UInt16) (value : UInt8) :
    EndsWithin (perform (.writePort port value)) 0 1 0 :=
  endsWithin_perform fun _ => ⟨Nat.zero_le _, Nat.le_refl _, Nat.le_refl _⟩

theorem endsWithin_test : EndsWithin (perform .wrapTest) 0 0 1 :=
  endsWithin_perform fun _ => ⟨Nat.zero_le _, Nat.le_refl _, Nat.le_refl _⟩

theorem endsWithin_delay : EndsWithin (perform .delay) 0 0 0 :=
  endsWithin_perform fun _ => ⟨Nat.zero_le _, Nat.le_refl _, Nat.le_refl _⟩

theorem endsWithin_read {port : UInt16} (h : port ≠ 0x64) :
    EndsWithin (perform (.readPort port)) 0 0 0 :=
  endsWithin_perform fun _ => ⟨by simp [isLook, h], Nat.le_refl _, Nat.le_refl _⟩

theorem Waited.length_le {ready : UInt8 → Bool} {looks : Nat} {statuses : List UInt8} {met : Bool}
    (h : Waited ready looks statuses met) : statuses.length ≤ looks := by
  cases h with
  | met _ _ hlength =>
    rw [List.length_append]
    exact hlength
  | gaveUp _ hlength => exact Nat.le_of_eq hlength

theorem countP_isLook_map_look (statuses : List UInt8) :
    (statuses.map look).countP isLook = statuses.length := by
  rw [List.countP_map]
  exact List.countP_eq_length.2 fun _ _ => rfl

theorem countP_map_look {kind : Exchange Bios → Bool} {statuses : List UInt8}
    (h : ∀ status, kind (look status) = false) : (statuses.map look).countP kind = 0 := by
  rw [List.countP_map, List.countP_eq_zero]
  exact fun status _ hkind => Bool.false_ne_true ((h status).symm.trans hkind)

theorem endsWithin_pollStatus (ready : UInt8 → Bool) :
    EndsWithin (pollStatus ready waitLoops) 1 0 0 := by
  refine (ensures_pollStatus ready waitLoops).mono ?_
  rintro es met ⟨statuses, rfl, hw⟩
  refine ⟨?_, ?_, ?_⟩
  · rw [countP_isLook_map_look, Nat.one_mul]
    exact hw.length_le
  · exact Nat.le_of_eq (countP_map_look fun _ => rfl)
  · exact Nat.le_of_eq (countP_map_look fun _ => rfl)

theorem endsWithin_waitInputEmpty : EndsWithin waitInputEmpty 1 0 0 := endsWithin_pollStatus _

theorem endsWithin_waitOutputFull : EndsWithin waitOutputFull 1 0 0 := endsWithin_pollStatus _

theorem endsWithin_judgeFastGate : EndsWithin judgeFastGate 0 0 1 := by
  refine endsWithin_delay.bind fun _ => (endsWithin_read (by decide)).bind fun value => ?_
  split
  · exact endsWithin_done
  · exact endsWithin_test

theorem endsWithin_tryFastGate : EndsWithin tryFastGate 0 1 1 := by
  rw [tryFastGate_eq]
  refine (endsWithin_read (by decide)).bind fun value => ?_
  split
  · exact (endsWithin_write _ _).bind fun _ => endsWithin_judgeFastGate
  · exact endsWithin_judgeFastGate.mono_writes (Nat.zero_le 1)

theorem endsWithin_writeGate (output : UInt8) : EndsWithin (writeGate output) 2 2 0 := by
  refine endsWithin_waitInputEmpty.bind fun ready => ?_
  cases ready
  · exact endsWithin_done
  refine (endsWithin_write _ _).bind fun _ => endsWithin_waitInputEmpty.bind fun ready => ?_
  cases ready
  · exact endsWithin_done
  · exact (endsWithin_write _ _).bind fun _ => endsWithin_done

theorem endsWithin_switchGate : EndsWithin switchGate 4 3 0 := by
  refine endsWithin_waitInputEmpty.bind fun ready => ?_
  cases ready
  · exact endsWithin_done
  refine (endsWithin_write _ _).bind fun _ => endsWithin_waitOutputFull.bind fun ready => ?_
  cases ready
  · exact endsWithin_done
  · exact (endsWithin_read (by decide)).bind endsWithin_writeGate

theorem endsWithin_restoreKeyboard : EndsWithin restoreKeyboard 2 1 0 := by
  refine endsWithin_waitInputEmpty.bind fun ready => ?_
  cases ready
  · exact endsWithin_done
  · refine (endsWithin_write _ _).bind fun _ => endsWithin_waitInputEmpty.bind fun _ => ?_
    exact endsWithin_done

theorem endsWithin_tryKeyboardController : EndsWithin tryKeyboardController 7 5 1 := by
  refine endsWithin_waitInputEmpty.bind fun ready => ?_
  cases ready
  · exact endsWithin_done
  refine (endsWithin_write _ _).bind fun _ => endsWithin_switchGate.bind fun sent => ?_
  refine endsWithin_restoreKeyboard.bind fun _ => ?_
  cases sent
  · exact endsWithin_done
  · exact endsWithin_test

theorem endsWithin_enable : EndsWithin enable 7 6 3 := by
  refine endsWithin_test.bind fun enabled => ?_
  cases enabled
  · refine endsWithin_tryFastGate.bind fun enabled => ?_
    cases enabled
    · refine endsWithin_tryKeyboardController.bind fun enabled => ?_
      cases enabled <;> exact endsWithin_done
    · exact endsWithin_done
  · exact endsWithin_done

end Effort

/-- Each wait has one course for the values that the status is to have, which ends with the first
one it is for, and turning the line on is over within seven waits, six writes and three tests. -/
theorem polling_bounded :
    PollsFor (fun status => status.toNat.testBit 1 = false) 100000 waitInputEmpty ∧
      PollsFor (fun status => status.toNat.testBit 0 = true) 100000 waitOutputFull ∧
        ∀ es o, Runs enable es o → (∃ method, o = some method) ∧ Within 7 6 3 es := by
  refine ⟨pollsFor_pollStatus (fun status => ?_) waitLoops,
    pollsFor_pollStatus (fun status => ?_) waitLoops, fun es o h => ?_⟩
  · have hmask : inputFull.toNat = 2 ^ 1 := rfl
    rw [beq_iff_eq]
    exact and_mask_eq_zero_iff hmask
  · have hmask : outputFull.toNat = 2 ^ 0 := rfl
    rw [bne_iff_ne, ne_eq, and_mask_eq_zero_iff hmask, Bool.not_eq_false]
  · obtain ⟨method, rfl, hwithin⟩ := endsWithin_enable.exists_of_run h
    exact ⟨⟨method, rfl⟩, hwithin⟩

section Slow

/-- Values of which the last one that may be looked at is the first that is waited for. -/
def late (before last : UInt8) : List UInt8 := List.replicate (waitLoops - 1) before ++ [last]

/-- The looks until a byte is taken, late. -/
def lateInput : List (Exchange Bios) := (late inputFull 0).map look

/-- The looks until there is a byte, late. -/
def lateOutput : List (Exchange Bios) := (late 0 outputFull).map look

/-- The output port is asked for and sent back, with a wait before each step. -/
def slowSwitch : List (Exchange Bios) :=
  lateInput ++ command readOutput :: (lateOutput ++ ⟨.readPort dataPort, 0xDD⟩ ::
    (lateInput ++ command writeOutput :: (lateInput ++ [⟨.writePort dataPort 0xDF, ()⟩])))

/-- The fast gate reads back, but does not work, and the controller is late each time. -/
def slowCalls : List (Exchange Bios) :=
  [⟨.wrapTest, false⟩, ⟨.readPort fastPort, 0⟩, ⟨.writePort fastPort gate, ()⟩, ⟨.delay, ()⟩,
      ⟨.readPort fastPort, gate⟩, ⟨.wrapTest, false⟩] ++
    (lateInput ++ command disableKeyboard ::
      (slowSwitch ++ (lateInput ++ command enableKeyboard :: lateInput ++ [⟨.wrapTest, true⟩])))

theorem waited_late {ready : UInt8 → Bool} {before last : UInt8} (hbefore : ready before = false)
    (hlast : ready last = true) : Waited ready waitLoops (late before last) true := by
  refine .met (fun s hs => ?_) hlast ?_
  · rw [List.eq_of_mem_replicate hs]
    exact hbefore
  · rw [List.length_replicate]
    decide

theorem runs_lateInput : Runs waitInputEmpty lateInput (some true) :=
  (waited_late rfl rfl).runs

theorem runs_lateOutput : Runs waitOutputFull lateOutput (some true) :=
  (waited_late rfl rfl).runs

theorem runs_slowSwitch : Runs switchGate slowSwitch (some true) := by
  refine runs_lateInput.bind (.ask (runs_lateOutput.bind (.ask ?_)))
  exact runs_lateInput.bind (.ask (runs_lateInput.bind (.ask (.done true))))

theorem runs_slowRestore :
    Runs restoreKeyboard (lateInput ++ command enableKeyboard :: lateInput) (some ()) := by
  have hlast : Runs (waitInputEmpty >>= fun _ => done ()) lateInput (some ()) := by
    rw [← List.append_nil lateInput]
    exact runs_lateInput.bind (.done ())
  exact runs_lateInput.bind (.ask hlast)

theorem runs_slowCalls : Runs enable slowCalls (some .keyboardController) := by
  have hcontroller : Runs tryKeyboardController (lateInput ++ command disableKeyboard ::
      (slowSwitch ++ (lateInput ++ command enableKeyboard :: lateInput ++ [⟨.wrapTest, true⟩])))
        (some true) :=
    runs_lateInput.bind (.ask (runs_slowSwitch.bind (runs_slowRestore.bind (.ask (.done true)))))
  refine .ask (.ask (.ask (.ask (.ask (.ask ?_)))))
  rw [← List.append_nil (lateInput ++ _)]
  exact hcontroller.bind (.done Method.keyboardController)

/-- What is done there besides looking at the status. -/
def slowSteps : List (Exchange Bios) :=
  [⟨.wrapTest, false⟩, ⟨.readPort fastPort, 0⟩, ⟨.writePort fastPort gate, ()⟩, ⟨.delay, ()⟩,
    ⟨.readPort fastPort, gate⟩, ⟨.wrapTest, false⟩, command disableKeyboard, command readOutput,
    ⟨.readPort dataPort, 0xDD⟩, command writeOutput, ⟨.writePort dataPort 0xDF, ()⟩,
    command enableKeyboard, ⟨.wrapTest, true⟩]

theorem countP_slowCalls {kind : Exchange Bios → Bool} {n : Nat}
    (hinput : lateInput.countP kind = n) (houtput : lateOutput.countP kind = n) :
    slowCalls.countP kind = 7 * n + slowSteps.countP kind := by
  simp only [slowCalls, slowSwitch, slowSteps, List.countP_append, List.countP_cons,
    List.countP_nil, hinput, houtput]
  omega

theorem countP_isLook_late (before last : UInt8) :
    ((late before last).map look).countP isLook = waitLoops := by
  rw [countP_isLook_map_look, late, List.length_append, List.length_replicate]
  rfl

/-- So slow a controller takes all that there may be. -/
theorem within_slowCalls : Runs enable slowCalls (some .keyboardController) ∧
    slowCalls.countP isLook = 700000 ∧ slowCalls.countP isWrite = 6 ∧
      slowCalls.countP isTest = 3 ∧ Within 7 6 3 slowCalls := by
  refine ⟨runs_slowCalls, ?_, ?_, ?_, (polling_bounded.2.2 _ _ runs_slowCalls).2⟩
  · exact countP_slowCalls (countP_isLook_late _ _) (countP_isLook_late _ _)
  · exact countP_slowCalls (countP_map_look fun _ => rfl) (countP_map_look fun _ => rfl)
  · exact countP_slowCalls (countP_map_look fun _ => rfl) (countP_map_look fun _ => rfl)

end Slow

end Bootloader.Legacy.A20
