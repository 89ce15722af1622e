import Bootloader.Proofs.Legacy.Boot

/-!
# What the core is handed

Text, the core and its record all go to one memory.  They do not get into each other's way: the core
finds what was read for it, the record says no more than the drive, and nothing is changed but the
core, the record and the screen (`HandedOver`).  A core that comes back finds the machine halted
with nothing changed but the screen (`handedOver_of_runs`).
-/

namespace Bootloader.Legacy

open Program

/-- The bytes of the core. -/
def BuildConfig.CoreCovers (config : BuildConfig) (i : Nat) : Prop :=
  coreAddress.toNat ≤ i ∧ i < coreAddress.toNat + config.coreSize.toNat

/-- The bytes of the record for the core. -/
def HandoffRecord.Covers (i : Nat) : Prop :=
  handoffAddress.toNat ≤ i ∧ i < handoffAddress.toNat + 40

/-- The core is entered with itself and its record in place, and the rest of memory as it was. -/
structure HandedOver (config : BuildConfig) (drive : UInt8) (memory : Buffer) (call : CoreCall) :
    Prop where
  entry_eq : call.entry = coreEntry
  record_eq : call.record = handoffAddress
  size_eq : call.memory.size = memory.size
  core : call.memory.read coreAddress.toNat config.coreSize.toNat =
    memory.read bounceAddress.toNat config.coreSize.toNat
  record : call.memory.read handoffAddress.toNat 40 =
    [0x42, 0x4C, 0x42, 0x4C, 0x01, 0x00, 0x00, 0x00] ++
      (List.replicate 25 0 ++ [drive] ++ List.replicate 6 0)
  restOfArea : call.memory.read (handoffAddress.toNat + 40) (handoffSize.toNat - 40) =
    memory.read (handoffAddress.toNat + 40) (handoffSize.toNat - 40)
  bounce : call.memory.read bounceAddress.toNat config.coreSize.toNat =
    memory.read bounceAddress.toNat config.coreSize.toNat
  elsewhere : ∀ i, ¬config.CoreCovers i → ¬HandoffRecord.Covers i → ¬screenConsole.Covers i →
    call.memory.get i = memory.get i

/-- Nothing but the screen is changed. -/
structure OnScreen (memory after : Buffer) : Prop where
  size_eq : after.size = memory.size
  elsewhere : ∀ i, ¬screenConsole.Covers i → after.get i = memory.get i

theorem HandoffRecord.toBytes_forDrive (drive : UInt8) :
    (HandoffRecord.forDrive drive).toBytes =
      [0x42, 0x4C, 0x42, 0x4C, 0x01, 0x00, 0x00, 0x00] ++
        (List.replicate 25 0 ++ [drive] ++ List.replicate 6 0) := by
  have hmagic : bytes32 protocolMagic = [0x42, 0x4C, 0x42, 0x4C] := by decide
  have hversion : bytes32 protocolVersion = [0x01, 0x00, 0x00, 0x00] := by decide
  have h32 : bytes32 0 = List.replicate 4 0 := by decide
  have h16 : bytes16 0 = List.replicate 2 0 := by decide
  unfold toBytes forDrive
  rw [hmagic, hversion]
  simp only [h32, h16, List.append_assoc]
  rfl

theorem Console.onScreen_write {c : Console} {text : String} {memory : Buffer}
    (hb : c.base = screenAddress.toNat) (hp : c.position < 2000) :
    OnScreen memory (c.write text memory).2 := by
  refine ⟨size_write, fun i hi => get_write_of_not_covers hp ?_⟩
  unfold Covers at hi ⊢
  rwa [hb]

section Entry

variable {config : BuildConfig} {drive : UInt8} {memory : Buffer}

@[simp] theorem size_placeCore : (placeCore config drive memory).size = memory.size := by
  rw [placeCore, HandoffRecord.store, Buffer.size_write, Buffer.size_copy]

theorem size_entryMemory : (entryMemory config drive memory).size = memory.size := by
  rw [entryMemory, Console.size_write, size_placeCore, Console.size_write]

theorem get_entryMemory_elsewhere
    (hb : bounceAddress.toNat + config.coreSize.toNat ≤ screenAddress.toNat) {i : Nat}
    (hcore : ¬config.CoreCovers i) (hrecord : ¬HandoffRecord.Covers i)
    (hscreen : ¬screenConsole.Covers i) :
    (entryMemory config drive memory).get i = memory.get i := by
  have hs : screenAddress.toNat ≤ coreAddress.toNat := by decide
  have hrecordSize : HandoffRecord.recordSize = 40 := rfl
  unfold BuildConfig.CoreCovers at hcore
  unfold HandoffRecord.Covers at hrecord
  rw [get_entryMemory hb hscreen, get_placeCore (by omega), if_neg (by omega), if_neg (by omega)]

theorem read_entryMemory_elsewhere
    (hb : bounceAddress.toNat + config.coreSize.toNat ≤ screenAddress.toNat) {i n : Nat}
    (hi : handoffAddress.toNat + 40 ≤ i)
    (hn : i + n ≤ screenAddress.toNat) :
    (entryMemory config drive memory).read i n = memory.read i n := by
  have hs : screenAddress.toNat ≤ coreAddress.toNat := by decide
  refine Buffer.read_congr fun k hk => get_entryMemory_elsewhere hb ?_ ?_ ?_
  · unfold BuildConfig.CoreCovers
    omega
  · unfold HandoffRecord.Covers
    omega
  · unfold Console.Covers screenConsole
    dsimp only
    omega

theorem read_entryMemory_record
    (hb : bounceAddress.toNat + config.coreSize.toNat ≤ screenAddress.toNat)
    (hm : handoffAddress.toNat + HandoffRecord.recordSize ≤ memory.size) :
    (entryMemory config drive memory).read handoffAddress.toNat HandoffRecord.recordSize =
      (HandoffRecord.forDrive drive).toBytes := by
  have hs : screenAddress.toNat ≤ coreAddress.toNat := by decide
  have hr : handoffAddress.toNat + HandoffRecord.recordSize ≤ screenAddress.toNat := by decide
  have hl := (HandoffRecord.forDrive drive).length_toBytes
  rw [← hl]
  refine Buffer.read_eq fun k hk => ?_
  have hscreen : ¬screenConsole.Covers (handoffAddress.toNat + k) := by
    unfold Console.Covers screenConsole
    dsimp only
    omega
  rw [get_entryMemory hb hscreen, get_placeCore (by omega), if_pos (by omega),
    Nat.add_sub_cancel_left]

theorem handedOver_entryMemory (hc : config.Sound)
    (hm : coreAddress.toNat + config.coreSize.toNat ≤ memory.size) :
    HandedOver config drive memory
      ⟨coreEntry, handoffAddress, entryMemory config drive memory⟩ := by
  have hbounce := hc.bounce
  rw [← hc.toNat_coreSize] at hbounce
  have hstack : protectedStackBase.toNat ≤ screenAddress.toNat := by decide
  have hrecord : handoffAddress.toNat + HandoffRecord.recordSize ≤ coreAddress.toNat := by decide
  have harea : handoffAddress.toNat + handoffSize.toNat ≤ screenAddress.toNat := by decide
  have hbelow : handoffAddress.toNat + HandoffRecord.recordSize ≤ bounceAddress.toNat := by decide
  have hsize : HandoffRecord.recordSize ≤ handoffSize.toNat := by decide
  have hb : bounceAddress.toNat + config.coreSize.toNat ≤ screenAddress.toNat := by omega
  refine ⟨rfl, rfl, size_entryMemory, read_entryMemory hb hm, ?_, ?_, ?_, ?_⟩
  · exact (read_entryMemory_record hb (by omega)).trans (HandoffRecord.toBytes_forDrive drive)
  · exact read_entryMemory_elsewhere hb (Nat.le_refl _)
      (show handoffAddress.toNat + HandoffRecord.recordSize +
        (handoffSize.toNat - HandoffRecord.recordSize) ≤ _ by omega)
  · exact read_entryMemory_elsewhere hb hbelow hb
  · exact fun i hcore hrecord hscreen => get_entryMemory_elsewhere hb hcore hrecord hscreen

/-- The core is entered once; after it came back only text is written. -/
theorem exists_console_of_runs {es : List (Exchange Core)} {o : Option Buffer}
    (h : Runs (protectedMode config drive memory) es o) :
    ∃ (left : Buffer) (c : Console), c.base = screenAddress.toNat ∧ c.position < 2000 ∧
      es = [⟨⟨coreEntry, handoffAddress, entryMemory config drive memory⟩, left⟩] ∧
        o = some (c.write "LBL Core returned! System halted." left).2 := by
  obtain ⟨left, es', rfl, hr⟩ := runs_ask_iff.1 h
  obtain ⟨rfl, rfl⟩ := runs_done_iff.1 hr
  have hposition : screenConsole.position < 2000 := by decide
  refine ⟨left, _, ?_, ?_, rfl, rfl⟩
  · exact Console.base_write.trans Console.base_write
  · exact Console.position_write_lt (Console.position_write_lt hposition)

/-- In a memory that has room for it, the core is entered once, with all in place; if it comes back,
only the screen is written to before the halt. -/
theorem handedOver_of_runs (hc : config.Sound)
    (hm : coreAddress.toNat + config.coreSize.toNat ≤ memory.size)
    {es : List (Exchange Core)} {o : Option Buffer}
    (h : Runs (protectedMode config drive memory) es o) :
    ∃ call left after, es = [⟨call, left⟩] ∧ o = some after ∧
      HandedOver config drive memory call ∧ OnScreen left after := by
  obtain ⟨left, c, hb, hp, rfl, rfl⟩ := exists_console_of_runs h
  exact ⟨_, left, _, rfl, rfl, handedOver_entryMemory hc hm, Console.onScreen_write hb hp⟩

/-- The largest core, in a memory that ends with it, and the record of its drive byte by byte. -/
theorem handedOver_largest : ∃ call left after,
    Runs (protectedMode .max 0x81 (Buffer.zeros 0x170000)) [⟨call, left⟩] (some after) ∧
      HandedOver .max 0x81 (Buffer.zeros 0x170000) call ∧ OnScreen left after ∧
        call.memory.read handoffAddress.toNat 40 =
          [0x42, 0x4C, 0x42, 0x4C, 0x01, 0x00, 0x00, 0x00, 0x00, 0x00, 0x00, 0x00, 0x00, 0x00,
            0x00, 0x00, 0x00, 0x00, 0x00, 0x00, 0x00, 0x00, 0x00, 0x00, 0x00, 0x00, 0x00, 0x00,
            0x00, 0x00, 0x00, 0x00, 0x00, 0x81, 0x00, 0x00, 0x00, 0x00, 0x00, 0x00] := by
  have hr := runs_exchanges (fun (call : CoreCall) (s : Unit) => (call.memory, s))
    (protectedMode .max 0x81 (Buffer.zeros 0x170000)) ()
  have hc : BuildConfig.max.Sound := ⟨by decide, by decide, by decide⟩
  have hm : coreAddress.toNat + BuildConfig.max.coreSize.toNat ≤ (Buffer.zeros 0x170000).size := by
    rw [Buffer.size_zeros]
    decide
  obtain ⟨call, left, after, hes, ho, hcall, hafter⟩ := handedOver_of_runs hc hm hr
  rw [hes, ho] at hr
  exact ⟨call, left, after, hr, hcall, hafter, hcall.record⟩

end Entry

end Bootloader.Legacy
