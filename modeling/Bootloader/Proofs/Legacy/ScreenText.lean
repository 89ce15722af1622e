import Bootloader.Proofs.Legacy.CoreEntry
import Mathlib.Data.List.Induction
import Mathlib.Data.List.TakeWhile

/-!
# Where text goes on the screen

A console never leaves the screen, whatever is done with it (`Kept`): the position is that of a cell,
and a character changes the two bytes of that cell and nothing else.  So text goes through the cells
in a circle, and the last of it is what is seen (`written_putAll`).

These hold of a console at any time, and so after any operations on it (`kept_of_operations`).
-/

namespace Bootloader.Legacy.Console

/-- A cell as a word, with the colours in its high byte. -/
def cell (c : Console) (memory : Buffer) (k : Nat) : Nat :=
  ofLittleEndian (memory.read (c.base + 2 * k) 2)

/-- What can be done with a console. -/
inductive Operation where
  | setColour (colour : UInt8)
  | put (byte : UInt8)
  | write (bytes : List UInt8)

/-- Carries an operation out; a text ends at its first zero byte. -/
def perform (c : Console) (memory : Buffer) : Operation → Console × Buffer
  | .setColour colour => ({ c with colour }, memory)
  | .put byte => c.put byte memory
  | .write bytes => c.putAll (bytes.takeWhile (· ≠ 0)) memory

/-- Carries some operations out. -/
def performAll (c : Console) (memory : Buffer) : List Operation → Console × Buffer
  | [] => (c, memory)
  | operation :: rest =>
    (c.perform memory operation).1.performAll (c.perform memory operation).2 rest

/-- The colours after some operations, given those before. -/
def lastColour (first : UInt8) : List Operation → UInt8
  | [] => first
  | .setColour colour :: rest => lastColour colour rest
  | _ :: rest => lastColour first rest

/-- The console stands at a cell, and nothing outside the screen is changed. -/
structure Kept (memory : Buffer) (c : Console) (now : Buffer) : Prop where
  position_lt : c.position < 2000
  size_eq : now.size = memory.size
  elsewhere : ∀ i, ¬c.Covers i → now.get i = memory.get i

/-- A character went to the cell at the position, and nowhere else. -/
structure PutAt (c : Console) (memory : Buffer) (byte : UInt8) (after : Console × Buffer) :
    Prop where
  console_eq : after.1 = { c with position := (c.position + 1) % 2000 }
  cell_eq : c.cell after.2 c.position = c.colour.toNat * 256 + byte.toNat
  others : ∀ i, i ≠ c.base + 2 * c.position → i ≠ c.base + 2 * c.position + 1 →
    after.2.get i = memory.get i

/-- Some characters went to the cells from the position on, in a circle; of those that come to the
same cell the last one stays. -/
structure Written (c : Console) (memory : Buffer) (bytes : List UInt8)
    (after : Console × Buffer) : Prop where
  console_eq : after.1 = { c with position := (c.position + bytes.length) % 2000 }
  cell_eq : ∀ i byte, bytes[i]? = some byte → bytes.length ≤ i + 2000 →
    c.cell after.2 ((c.position + i) % 2000) = c.colour.toNat * 256 + byte.toNat
  others : ∀ k < 2000,
    (∀ i < bytes.length, bytes.length ≤ i + 2000 → (c.position + i) % 2000 ≠ k) →
      c.cell after.2 k = c.cell memory k

/-- What each operation that shows something does. -/
structure Draws (c : Console) (memory : Buffer) : Prop where
  put : ∀ byte, byte ≠ 10 → PutAt c memory byte (c.perform memory (.put byte))
  feed : c.perform memory (.put 10) =
    ({ c with position := (c.position / 80 + 1) % 25 * 80 }, memory)
  write : ∀ bytes, 0 ∉ bytes → 10 ∉ bytes →
    Written c memory bytes (c.perform memory (.write bytes))

section Cells

variable {c : Console} {memory now : Buffer} {byte colour : UInt8} {bytes : List UInt8} {k : Nat}

theorem cell_write_self (h : c.base + 2 * k + 2 ≤ memory.size) :
    c.cell (memory.write (c.base + 2 * k) [byte, colour]) k = colour.toNat * 256 + byte.toNat := by
  have hread : (memory.write (c.base + 2 * k) [byte, colour]).read (c.base + 2 * k) 2 =
      [byte, colour] := Buffer.read_write h
  rw [cell, hread]
  simp only [ofLittleEndian]
  omega

theorem put_eq (h : c.position < 2000) (hb : byte ≠ 10) :
    c.put byte memory = ({ c with position := (c.position + 1) % 2000 },
      memory.write (c.base + 2 * c.position) [byte, c.colour]) := by
  have hwrap : wrap (c.position + 1) = (c.position + 1) % 2000 := by
    rw [wrap, cells_eq]
    split <;> omega
  rw [put, lineFeed, if_neg hb, hwrap]

theorem put_lineFeed (h : c.position < 2000) : c.put 10 memory =
    ({ c with position := (c.position / 80 + 1) % 25 * 80 }, memory) := by
  have hwrap : wrap ((c.position / 80 + 1) * 80) = (c.position / 80 + 1) % 25 * 80 := by
    rw [wrap, cells_eq]
    split <;> omega
  rw [put, lineFeed, if_pos rfl, columns, hwrap]

theorem putAt_put (h : c.position < 2000) (hm : c.base + 4000 ≤ memory.size)
    (hb : byte ≠ 10) : PutAt c memory byte (c.put byte memory) := by
  rw [put_eq h hb]
  refine ⟨rfl, cell_write_self (by omega), fun i hi hi' => Buffer.get_write_of_not_mem ?_⟩
  simp only [List.length_cons, List.length_nil]
  omega

theorem putAll_append (c : Console) (xs ys : List UInt8) (memory : Buffer) :
    c.putAll (xs ++ ys) memory =
      (c.putAll xs memory).1.putAll ys (c.putAll xs memory).2 := by
  induction xs generalizing c memory with
  | nil => rfl
  | cons x xs ih => exact ih ..

theorem PutAt.cell_of_ne {after : Console × Buffer} (h : PutAt c memory byte after)
    (hk : k ≠ c.position) : c.cell after.2 k = c.cell memory k :=
  congrArg ofLittleEndian (Buffer.read_congr fun i hi => h.others _ (by omega) (by omega))

theorem mod_cells_ne {p i n : Nat} (hi : i < n) (hn : n < i + 2000) :
    (p + i) % 2000 ≠ (p + n) % 2000 := by
  omega

/-- The character after a text takes its cell from an earlier one, and leaves the others alone. -/
theorem Written.concat {before : Console × Buffer} (h : Written c memory bytes before)
    (hm : c.base + 4000 ≤ before.2.size) (hb : byte ≠ 10) :
    Written c memory (bytes ++ [byte]) (before.1.put byte before.2) := by
  obtain ⟨c', now⟩ := before
  obtain ⟨rfl, hcell, hothers⟩ := h
  have hput : PutAt { c with position := (c.position + bytes.length) % 2000 } now byte
      (put { c with position := (c.position + bytes.length) % 2000 } byte now) :=
    putAt_put (Nat.mod_lt _ (by decide)) hm hb
  refine ⟨?_, fun i byte' hi hlast => ?_, fun k hk hnot => ?_⟩
  · rw [hput.console_eq, Nat.mod_add_mod, List.length_append, List.length_singleton,
      Nat.add_assoc]
  · rw [List.length_append, List.length_singleton] at hlast
    rcases Nat.lt_or_ge i bytes.length with hlt | hge
    · rw [List.getElem?_append_left hlt] at hi
      exact (hput.cell_of_ne (mod_cells_ne hlt (by omega))).trans (hcell i byte' hi (by omega))
    · rw [List.getElem?_append_right hge, List.getElem?_singleton] at hi
      split at hi
      · obtain rfl : byte = byte' := Option.some.inj hi
        rw [show i = bytes.length by omega]
        exact hput.cell_eq
      · cases hi
  · rw [List.length_append, List.length_singleton] at hnot
    have hne : k ≠ (c.position + bytes.length) % 2000 :=
      (hnot bytes.length (by omega) (by omega)).symm
    refine (hput.cell_of_ne hne).trans (hothers k hk fun i hi hlast heq => ?_)
    rcases Nat.lt_or_eq_of_le hlast with hlt | hwhole
    · exact hnot i (by omega) (by omega) heq
    · -- a whole screen ago the text was at the same cell
      rw [hwhole, ← Nat.add_assoc, Nat.add_mod_right, heq] at hne
      exact hne rfl

/-- By induction on the text from its end. -/
theorem written_putAll (h : c.position < 2000) (hm : c.base + 4000 ≤ memory.size)
    (hb : 10 ∉ bytes) : Written c memory bytes (c.putAll bytes memory) := by
  induction bytes using List.reverseRecOn with
  | nil =>
    refine ⟨?_, fun i byte hi => by simp at hi, fun k _ _ => rfl⟩
    rw [List.length_nil, Nat.add_zero, Nat.mod_eq_of_lt h]
    rfl
  | append_singleton bytes last ih =>
    rw [List.mem_append, not_or, List.mem_singleton] at hb
    rw [putAll_append]
    exact (ih hb.1).concat (by rwa [size_putAll]) (Ne.symm hb.2)

theorem draws (h : c.position < 2000) (hm : c.base + 4000 ≤ memory.size) :
    Draws c memory where
  put _ hb := putAt_put h hm hb
  feed := put_lineFeed h
  write bytes h0 hb := by
    have htext : bytes.takeWhile (· ≠ 0) = bytes :=
      List.takeWhile_eq_self_iff.2 fun byte hbyte => by simpa using ne_of_mem_of_not_mem hbyte h0
    rw [perform, htext]
    exact written_putAll h hm hb

end Cells

section Operations

variable {c : Console} {memory now : Buffer} {byte : UInt8} {bytes : List UInt8}
variable {operation : Operation}

theorem colour_put : (c.put byte memory).1.colour = c.colour := by
  unfold put
  split <;> rfl

theorem colour_putAll : (c.putAll bytes memory).1.colour = c.colour := by
  induction bytes generalizing c memory with
  | nil => rfl
  | cons byte rest ih => exact ih.trans colour_put

theorem base_perform : (c.perform memory operation).1.base = c.base := by
  cases operation with
  | setColour colour => rfl
  | put byte => exact base_put
  | write bytes => exact base_putAll

theorem lastColour_perform (rest : List Operation) :
    lastColour (c.perform memory operation).1.colour rest =
      lastColour c.colour (operation :: rest) := by
  cases operation with
  | setColour colour => rfl
  | put byte => exact congrArg (lastColour · rest) colour_put
  | write bytes => exact congrArg (lastColour · rest) colour_putAll

/-- Each operation keeps the console to the screen. -/
theorem Kept.perform (h : Kept memory c now) (operation : Operation) :
    Kept memory (c.perform now operation).1 (c.perform now operation).2 := by
  have hcovers : ∀ i, ¬(c.perform now operation).1.Covers i → ¬c.Covers i := by
    intro i hi
    rwa [Covers, base_perform] at hi
  cases operation with
  | setColour colour => exact ⟨h.position_lt, h.size_eq, h.elsewhere⟩
  | put byte =>
    refine ⟨position_put_lt, size_put.trans h.size_eq, fun i hi => ?_⟩
    exact (get_put_of_not_covers h.position_lt (hcovers i hi)).trans (h.elsewhere i (hcovers i hi))
  | write bytes =>
    refine ⟨position_putAll_lt h.position_lt, size_putAll.trans h.size_eq, fun i hi => ?_⟩
    exact (get_putAll_of_not_covers h.position_lt (hcovers i hi)).trans
      (h.elsewhere i (hcovers i hi))

theorem Kept.performAll (h : Kept memory c now) (operations : List Operation) :
    ∃ c' now', c.performAll now operations = (c', now') ∧ Kept memory c' now' ∧
      c'.base = c.base ∧ c'.colour = lastColour c.colour operations := by
  induction operations generalizing c now with
  | nil => exact ⟨c, now, rfl, h, rfl, rfl⟩
  | cons operation rest ih =>
    obtain ⟨c', now', heq, hkept, hbase, hcolour⟩ := ih (h.perform operation)
    exact ⟨c', now', heq, hkept, hbase.trans base_perform, hcolour.trans (lastColour_perform rest)⟩

/-- After any operations on a new console it stands at a cell, has changed nothing outside the screen,
and draws as it should. -/
theorem kept_of_operations {base : Nat} (hm : base + 4000 ≤ memory.size)
    (operations : List Operation) :
    ∃ c now, performAll { base } memory operations = (c, now) ∧ c.base = base ∧
      c.colour = lastColour 0x07 operations ∧ Kept memory c now ∧ Draws c now := by
  have hnew : Kept memory { base } memory := ⟨(by decide : 0 < 2000), rfl, fun _ _ => rfl⟩
  obtain ⟨c, now, heq, hkept, rfl, hcolour⟩ := hnew.performAll operations
  exact ⟨c, now, heq, rfl, hcolour, hkept, draws hkept.position_lt (hkept.size_eq ▸ hm)⟩

end Operations

/-- A text of 81 characters in the last row, in colours of its own. -/
def lastRow : List Operation :=
  List.replicate 24 (.put 10) ++ [.setColour 0x4F, .write (List.replicate 81 0xE9)]

/-- Its last character comes to the first cell. -/
theorem kept_lastRow : ∃ c now,
    performAll { base := 0 } (Buffer.zeros (4000)) lastRow = (c, now) ∧ c.position = 1 ∧
      c.colour = 0x4F ∧ Kept (Buffer.zeros (4000)) c now ∧ Draws c now := by
  have hm : 0 + 4000 ≤ (Buffer.zeros (4000)).size := by
    rw [Buffer.size_zeros, Nat.zero_add]
  obtain ⟨c, now, heq, -, hcolour, hkept, hdraws⟩ := kept_of_operations hm lastRow
  have hposition : (performAll { base := 0 } (Buffer.zeros (4000)) lastRow).1.position = 1 := by
    decide +kernel
  rw [heq] at hposition
  exact ⟨c, now, heq, hposition, hcolour, hkept, hdraws⟩

end Bootloader.Legacy.Console
