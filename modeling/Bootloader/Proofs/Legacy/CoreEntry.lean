import Bootloader.Legacy.CoreEntry
import Bootloader.Proofs.Buffer

/-!
# The memory that the core finds

The second stage enters the core once, in protected mode, and `entryMemory` is the memory at that
moment (`runs_protectedMode`).  Text on the screen changes none of the bytes outside the screen
(`get_write_of_not_mem`), and the record for the core is far below, so the core is what was read to
the bounce buffer (`read_entryMemory`).
-/

namespace Bootloader.Legacy

namespace Console

/-- The bytes of the screen that a console writes to. -/
def Covers (c : Console) (i : Nat) : Prop := c.base ≤ i ∧ i < c.base + 4000

theorem cells_eq : cells = 2000 := rfl

theorem wrap_lt (position : Nat) : wrap position < 2000 := by
  rw [wrap, cells_eq]
  split <;> omega

section Put

variable {c : Console} {byte : UInt8} {bytes : List UInt8} {text : String} {memory : Buffer}
variable {i : Nat}

@[simp] theorem base_put : (c.put byte memory).1.base = c.base := by
  unfold put
  split <;> rfl

@[simp] theorem size_put : (c.put byte memory).2.size = memory.size := by
  unfold put
  split
  · rfl
  · exact Buffer.size_write ..

theorem position_put_lt : (c.put byte memory).1.position < 2000 := by
  unfold put
  split <;> exact wrap_lt _

theorem get_put_of_not_covers (h : c.position < 2000) (hi : ¬c.Covers i) :
    (c.put byte memory).2.get i = memory.get i := by
  unfold put
  split
  · rfl
  · unfold Covers at hi
    refine Buffer.get_write_of_not_mem ?_
    simp only [List.length_cons, List.length_nil]
    omega

@[simp] theorem base_putAll : (c.putAll bytes memory).1.base = c.base := by
  induction bytes generalizing c memory with
  | nil => rfl
  | cons byte rest ih => simp only [putAll, ih, base_put]

@[simp] theorem size_putAll : (c.putAll bytes memory).2.size = memory.size := by
  induction bytes generalizing c memory with
  | nil => rfl
  | cons byte rest ih => simp only [putAll, ih, size_put]

theorem position_putAll_lt (h : c.position < 2000) :
    (c.putAll bytes memory).1.position < 2000 := by
  induction bytes generalizing c memory with
  | nil => exact h
  | cons byte rest ih => exact ih position_put_lt

theorem get_putAll_of_not_covers (h : c.position < 2000) (hi : ¬c.Covers i) :
    (c.putAll bytes memory).2.get i = memory.get i := by
  induction bytes generalizing c memory with
  | nil => rfl
  | cons byte rest ih =>
    have hi' : ¬(c.put byte memory).1.Covers i := by rwa [Covers, base_put]
    rw [putAll, ih position_put_lt hi', get_put_of_not_covers h hi]

@[simp] theorem base_write : (c.write text memory).1.base = c.base := base_putAll

@[simp] theorem size_write : (c.write text memory).2.size = memory.size := size_putAll

theorem position_write_lt (h : c.position < 2000) : (c.write text memory).1.position < 2000 :=
  position_putAll_lt h

/-- Text changes nothing outside the screen. -/
theorem get_write_of_not_covers (h : c.position < 2000) (hi : ¬c.Covers i) :
    (c.write text memory).2.get i = memory.get i :=
  get_putAll_of_not_covers h hi

end Put

end Console

/-- The memory in which the core is entered. -/
def entryMemory (config : BuildConfig) (drive : UInt8) (memory : Buffer) : Buffer :=
  let (console, memory) := screenConsole.write "LBL stage 2: protected mode\n" memory
  (console.write "Jumping to LBL Core.\n" (placeCore config drive memory)).2

section Entry

variable {config : BuildConfig} {drive : UInt8} {memory : Buffer}

/-- The core is entered once, and then all is over. -/
theorem runs_protectedMode {es : List (Exchange Core)} {o : Option Buffer}
    (h : Program.Runs (protectedMode config drive memory) es o) :
    ∃ left : Buffer,
      es = [⟨⟨coreEntry, handoffAddress, entryMemory config drive memory⟩, left⟩] := by
  obtain ⟨left, es', rfl, hr⟩ := Program.runs_ask_iff.1 h
  change Program.Runs (.done _) es' o at hr
  obtain ⟨rfl, -⟩ := Program.runs_done_iff.1 hr
  exact ⟨left, rfl⟩

/-- Each byte after the core was copied and the record was left. -/
theorem get_placeCore (hb : bounceAddress.toNat + config.coreSize.toNat ≤ coreAddress.toNat)
    (i : Nat) :
    (placeCore config drive memory).get i =
      if handoffAddress.toNat ≤ i ∧ i < handoffAddress.toNat + HandoffRecord.recordSize ∧
          i < memory.size then
        (HandoffRecord.forDrive drive).toBytes.getD (i - handoffAddress.toNat) 0
      else if coreAddress.toNat ≤ i ∧ i < coreAddress.toNat + config.coreSize.toNat ∧
          i < memory.size then
        memory.get (bounceAddress.toNat + (i - coreAddress.toNat))
      else memory.get i := by
  rw [placeCore, HandoffRecord.store, Buffer.get_write, Buffer.size_copy,
    HandoffRecord.length_toBytes, Buffer.get_copy_of_le hb]

/-- Outside the screen, the core finds what it would find if nothing had been written there. -/
theorem get_entryMemory (hb : bounceAddress.toNat + config.coreSize.toNat ≤ screenAddress.toNat)
    {i : Nat} (hi : ¬screenConsole.Covers i) :
    (entryMemory config drive memory).get i = (placeCore config drive memory).get i := by
  have hposition : screenConsole.position < 2000 := by decide
  have hscreen : screenAddress.toNat ≤ coreAddress.toNat := by decide
  have hi' : ¬(screenConsole.write "LBL stage 2: protected mode\n" memory).1.Covers i := by
    rwa [Console.Covers, Console.base_write]
  rw [entryMemory, Console.get_write_of_not_covers (Console.position_write_lt hposition) hi',
    get_placeCore (by omega), get_placeCore (by omega), Console.size_write,
    Console.get_write_of_not_covers hposition hi]
  split
  · rfl
  split
  · refine Console.get_write_of_not_covers hposition ?_
    simp only [Console.Covers, screenConsole]
    omega
  · rfl

/-- The core is what lies in the bounce buffer. -/
theorem read_entryMemory
    (hb : bounceAddress.toNat + config.coreSize.toNat ≤ screenAddress.toNat)
    (hm : coreAddress.toNat + config.coreSize.toNat ≤ memory.size) :
    (entryMemory config drive memory).read coreAddress.toNat config.coreSize.toNat =
      memory.read bounceAddress.toNat config.coreSize.toNat := by
  have hscreen : screenConsole.base + 4000 ≤ coreAddress.toNat := by decide
  have hbase : screenAddress.toNat ≤ coreAddress.toNat := by decide
  have hrecord : handoffAddress.toNat + HandoffRecord.recordSize ≤ coreAddress.toNat := by decide
  refine Buffer.read_congr fun k hk => ?_
  rw [get_entryMemory hb (by simp only [Console.Covers]; omega), get_placeCore (by omega),
    if_neg (by omega), if_pos (by omega), Nat.add_sub_cancel_left]

end Entry

end Bootloader.Legacy
