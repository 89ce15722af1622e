import Bootloader.Legacy.A20
import Bootloader.Proofs.Ensures

/-!
# What the A20 line is turned on with

Each of the two ways has ports of its own, and both come to an end, since the status is looked at
only so often (`only_tryFastGate`, `only_tryKeyboardController`).  So turning the A20 line on never
takes the disk (`offDisk_enable`).
-/

namespace Bootloader.Legacy

open Bios

/-- A call of the disk service. -/
def Bios.Call.IsDisk : Bios.Call → Prop
  | .disk _ => True
  | _ => False

/-- The program comes to an end without the disk service. -/
abbrev OffDisk {α : Type} (p : Program Bios α) : Prop := p.Only fun q : Bios.Call => ¬q.IsDisk

theorem offDisk_print (text : String) : OffDisk (print text) := by
  unfold print
  induction text.toList with
  | nil => exact Program.only_done
  | cons c rest ih => exact ⟨id, fun _ => ih⟩

namespace A20

/-- A call by which the fast gate is tried. -/
def IsFastGateCall : Bios.Call → Prop
  | .readPort port | .writePort port _ => port = 0x92
  | .delay | .wrapTest => True
  | _ => False

/-- A call by which the keyboard controller is tried. -/
def IsControllerCall : Bios.Call → Prop
  | .readPort port | .writePort port _ => port = 0x64 ∨ port = 0x60
  | .wrapTest => True
  | _ => False

/-- How the fast gate is judged after it was written to. -/
def judgeFastGate : Program Bios Bool := do
  perform .delay
  if (← perform (.readPort fastPort)) &&& gate = 0 then return false
  perform .wrapTest

theorem tryFastGate_eq : tryFastGate = (do
    let value ← perform (.readPort fastPort)
    if value &&& gate = 0 then
      perform (.writePort fastPort ((value ||| gate) &&& ~~~reset)) >>= fun _ => judgeFastGate
    else judgeFastGate) := rfl

theorem only_judgeFastGate : judgeFastGate.Only IsFastGateCall := by
  refine ⟨trivial, fun _ => ⟨rfl, fun value => ?_⟩⟩
  dsimp only [Program.bind]
  split
  · trivial
  · exact ⟨trivial, fun _ => trivial⟩

theorem only_tryFastGate : tryFastGate.Only IsFastGateCall := by
  rw [tryFastGate_eq]
  refine ⟨rfl, fun value => ?_⟩
  dsimp only [Program.bind]
  split
  · exact ⟨rfl, fun _ => only_judgeFastGate⟩
  · exact only_judgeFastGate

section Controller

variable {P : Bios.Call → Prop}

/-- A wait makes no call but the look at the status. -/
theorem only_pollStatus (hlook : P (.readPort statusPort)) (ready : UInt8 → Bool) :
    ∀ looks, (pollStatus ready looks).Only P
  | 0 => trivial
  | looks + 1 => ⟨hlook, fun status => by
      dsimp only
      split
      · trivial
      · exact only_pollStatus hlook ready looks⟩

theorem only_waitInputEmpty (hlook : P (.readPort statusPort)) : waitInputEmpty.Only P :=
  only_pollStatus hlook _ _

theorem only_waitOutputFull (hlook : P (.readPort statusPort)) : waitOutputFull.Only P :=
  only_pollStatus hlook _ _

theorem only_writeGate (hlook : P (.readPort statusPort))
    (hcommand : P (.writePort statusPort writeOutput)) (hdata : ∀ value, P (.writePort dataPort value))
    (output : UInt8) : (writeGate output).Only P := by
  refine (only_waitInputEmpty hlook).bind fun ready => ?_
  cases ready
  · trivial
  refine ⟨hcommand, fun _ => (only_waitInputEmpty hlook).bind fun ready => ?_⟩
  cases ready
  · trivial
  · exact ⟨hdata _, fun _ => trivial⟩

theorem only_restoreKeyboard (hlook : P (.readPort statusPort))
    (hcommand : P (.writePort statusPort enableKeyboard)) : restoreKeyboard.Only P := by
  refine (only_waitInputEmpty hlook).bind fun ready => ?_
  cases ready
  · trivial
  · exact ⟨hcommand, fun _ => (only_waitInputEmpty hlook).bind fun _ => trivial⟩

theorem isControllerCall_look : IsControllerCall (.readPort statusPort) := .inl rfl

theorem only_switchGate : switchGate.Only IsControllerCall := by
  refine (only_waitInputEmpty isControllerCall_look).bind fun ready => ?_
  cases ready
  · trivial
  refine ⟨.inl rfl, fun _ => (only_waitOutputFull isControllerCall_look).bind fun ready => ?_⟩
  cases ready
  · trivial
  · exact ⟨.inr rfl, only_writeGate isControllerCall_look (.inl rfl) fun _ => .inr rfl⟩

theorem only_tryKeyboardController : tryKeyboardController.Only IsControllerCall := by
  refine (only_waitInputEmpty isControllerCall_look).bind fun ready => ?_
  cases ready
  · trivial
  refine ⟨.inl rfl, fun _ => only_switchGate.bind fun sent => ?_⟩
  refine (only_restoreKeyboard isControllerCall_look (.inl rfl)).bind fun _ => ?_
  cases sent
  · trivial
  · exact ⟨trivial, fun _ => trivial⟩

end Controller

theorem IsFastGateCall.not_isDisk {q : Bios.Call} (h : IsFastGateCall q) : ¬q.IsDisk := by
  cases q with
  | disk r => exact h.elim
  | _ => exact id

theorem IsControllerCall.not_isDisk {q : Bios.Call} (h : IsControllerCall q) : ¬q.IsDisk := by
  cases q with
  | disk r => exact h.elim
  | _ => exact id

theorem offDisk_enable : OffDisk enable := by
  refine ⟨id, fun enabled => ?_⟩
  cases enabled
  · refine (only_tryFastGate.mono fun _ => IsFastGateCall.not_isDisk).bind fun enabled => ?_
    cases enabled
    · refine (only_tryKeyboardController.mono fun _ => IsControllerCall.not_isDisk).bind ?_
      intro enabled
      cases enabled <;> trivial
    · trivial
  · trivial

end A20

end Bootloader.Legacy
