import Bootloader.Proofs.Rule
import Bootloader.Serial

/-!
# What goes over the serial line

The port is set up by the first text there is, and never again.  From then on each byte has an
`Attempt` of its own: looks at the line status, and the byte if the last of them found the
transmitter ready (`ensures_send`).  Data goes to 0x3F8; the line status is read at 0x3FD, where bit
5 tells that the transmitter is ready.

So the bytes go out in their order, each line feed behind a carriage return, and one is missing just
if all the looks that there are for a byte were made for it in vain (`transmitted_of_runs`).
-/

namespace Bootloader.Serial

open Program

/-- Writes some texts in turn, the first one to a port that is set up or not. -/
def writeTexts : (isSetUp : Bool) → List (List UInt8) → Program Ports Bool
  | isSetUp, [] => .done isSetUp
  | isSetUp, text :: rest => do
    let isSetUp ← writeBytes isSetUp text
    writeTexts isSetUp rest

/-- A byte of a text, with a carriage return before a line feed. -/
def withReturn (byte : UInt8) : List UInt8 := if byte = 10 then [13, 10] else [byte]

/-- What is to be sent for some texts, each of which ends at its first zero byte. -/
def onWire (texts : List (List UInt8)) : List UInt8 :=
  (texts.flatMap (·.takeWhile (· ≠ 0))).flatMap withReturn

/-- A write to a port. -/
abbrev access (a : UInt16 × UInt8) : Exchange Ports := ⟨.write a.1 a.2, ()⟩

/-- A look at the line status. -/
abbrev look (status : UInt8) : Exchange Ports := ⟨.read 0x3FD, status⟩

/-- What was done for a byte: what each look at the line status found. -/
structure Attempt where
  byte : UInt8
  statuses : List UInt8

namespace Attempt

/-- The transmitter was found ready. -/
def sent (a : Attempt) : Bool := a.statuses.any (· &&& 0x20 != 0)

/-- The looks, and then the byte if it was sent. -/
def exchanges (a : Attempt) : List (Exchange Ports) :=
  a.statuses.map look ++ if a.sent then [access (0x3F8, a.byte)] else []

/-- There were at most so many looks, and fewer only if the byte was sent. -/
structure Within (looks : Nat) (a : Attempt) : Prop where
  bounded : a.statuses.length ≤ looks
  lost : a.sent = false → a.statuses.length = looks

end Attempt

/-- Only data is written, and only where a look has just found the transmitter ready. -/
def dataRule : Rule Ports
  | _, .read port => port = 0x3FD
  | past, .write port _ =>
    port = 0x3F8 ∧ ∃ status, past.getLast? = some (look status) ∧ status &&& 0x20 ≠ 0

/-- What an exchange has written, and to which port. -/
def written? : Exchange Ports → Option (UInt16 × UInt8)
  | ⟨.write port value, _⟩ => some (port, value)
  | _ => none

/-- Of as many looks in a row as there are for a byte, one finds the transmitter ready. -/
def KeepsUp (es : List (Exchange Ports)) : Prop :=
  ∀ statuses : List UInt8, statuses.length = 100000 → statuses.map look <:+: es →
    ∃ status ∈ statuses, status &&& 0x20 ≠ 0

/-- Some bytes were sent in turn, each with an attempt of its own. -/
structure Transmitted (bytes : List UInt8) (attempts : List Attempt) (es : List (Exchange Ports)) :
    Prop where
  course : es = attempts.flatMap Attempt.exchanges
  order : attempts.map (·.byte) = bytes
  bounded : ∀ a ∈ attempts, a.statuses.length ≤ 100000
  missing : ∀ a ∈ attempts, a.sent = false ↔
    a.statuses.length = 100000 ∧ ∀ status ∈ a.statuses, status &&& 0x20 = 0
  ruled : dataRule.KeptBy es
  written : picked written? es = (attempts.filter (·.sent)).map fun a => (0x3F8, a.byte)
  complete : KeepsUp es → picked written? es = bytes.map fun byte => (0x3F8, byte)

section Texts

variable {bytes : List UInt8} {texts : List (List UInt8)}

theorem withReturn_eq (byte : UInt8) :
    withReturn byte = if byte = lineFeed then [carriageReturn, byte] else [byte] := by
  have hfeed : lineFeed = 10 := rfl
  rw [withReturn, hfeed]
  split
  · rename_i h
    rw [h]
    rfl
  · rfl

theorem wire_eq_flatMap : wire bytes = bytes.flatMap withReturn := by
  induction bytes with
  | nil => rfl
  | cons byte rest ih => rw [wire, List.flatMap_cons, ih, withReturn_eq]

theorem sendAll_append (xs ys : List UInt8) :
    sendAll (xs ++ ys) = sendAll xs >>= fun _ => sendAll ys := by
  induction xs with
  | nil => rfl
  | cons x xs ih => rw [List.cons_append, sendAll, sendAll, ih, bind_bind]

theorem onWire_cons (text : List UInt8) :
    onWire (text :: texts) = wire (text.takeWhile (· ≠ 0)) ++ onWire texts := by
  rw [onWire, List.flatMap_cons, List.flatMap_append, wire_eq_flatMap]
  rfl

/-- A port that has been set up only has bytes sent to it. -/
theorem writeTexts_true :
    writeTexts true texts = sendAll (onWire texts) >>= fun _ => .done true := by
  induction texts with
  | nil => rfl
  | cons text rest ih =>
    rw [onWire_cons, sendAll_append, bind_bind, ← ih]
    simp only [writeTexts, writeBytes, Bool.not_true, Bool.false_eq_true, if_false, pure_eq,
      bind_done, bind_bind]

theorem writeTexts_false : writeTexts false texts =
    writeAll (if texts.isEmpty then [] else setup) >>= fun _ =>
      sendAll (onWire texts) >>= fun _ => .done !texts.isEmpty := by
  cases texts with
  | nil => rfl
  | cons text rest =>
    rw [onWire_cons, sendAll_append]
    simp only [writeTexts, writeBytes, Bool.not_false, if_true, pure_eq, bind_done, bind_bind,
      writeTexts_true, List.isEmpty_cons, Bool.false_eq_true, if_false]

theorem setup_eq : setup = [(0x3F9, 0x00), (0x3FB, 0x80), (0x3F8, 0x01), (0x3F9, 0x00),
    (0x3FB, 0x03), (0x3FA, 0xC7)] := rfl

theorem ensures_writeAll {A : Exchange Ports → Prop} : ∀ accesses : List (UInt16 × UInt8),
    (writeAll accesses).Ensures A fun es _ => es = accesses.map access
  | [] => ensures_done.2 rfl
  | _ :: rest => ensures_ask.2 fun _ _ => (ensures_writeAll rest).mono fun _ _ h =>
      congrArg _ h

end Texts

section Bytes

variable {A : Exchange Ports → Prop} {byte : UInt8} {bytes : List UInt8}
variable {a : Attempt} {attempts : List Attempt}

theorem send_succ (looks : Nat) : send byte (looks + 1) = .ask (.read 0x3FD) fun status =>
    if status &&& 0x20 ≠ 0 then .ask (.write 0x3F8 byte) .done else send byte looks := rfl

theorem Attempt.sent_eq_false_iff :
    a.sent = false ↔ ∀ status ∈ a.statuses, status &&& 0x20 = 0 := by
  simp [sent]

theorem Attempt.picked_exchanges :
    picked written? a.exchanges = if a.sent then [(0x3F8, a.byte)] else [] := by
  have hlooks : picked written? (a.statuses.map look) = [] := by
    refine picked_eq_nil fun e he => ?_
    obtain ⟨status, -, rfl⟩ := List.mem_map.1 he
    rfl
  rw [exchanges, picked_append, hlooks]
  split <;> rfl

theorem picked_attempts :
    picked written? (attempts.flatMap Attempt.exchanges) =
      (attempts.filter (·.sent)).map fun a => (0x3F8, a.byte) := by
  induction attempts with
  | nil => rfl
  | cons a rest ih =>
    rw [List.flatMap_cons, picked_append, a.picked_exchanges, ih]
    cases hs : a.sent <;> simp [hs]

/-- By induction on the looks that are left. -/
theorem ensures_send : ∀ looks : Nat, (send byte looks).Ensures A fun es _ =>
    ∃ a : Attempt, a.byte = byte ∧ a.Within looks ∧ es = a.exchanges
  | 0 => ensures_done.2 ⟨⟨byte, []⟩, rfl, ⟨Nat.le_refl 0, fun _ => rfl⟩, rfl⟩
  | looks + 1 => by
    rw [send_succ]
    refine ensures_ask.2 fun status _ => ?_
    split
    · rename_i hs
      have hsent : (⟨byte, [status]⟩ : Attempt).sent = true := by simpa [Attempt.sent] using hs
      refine ensures_ask.2 fun _ _ => ensures_done.2 ⟨⟨byte, [status]⟩, rfl, ⟨by simp, ?_⟩, ?_⟩
      · simp [hsent]
      · rw [Attempt.exchanges, if_pos hsent]
        rfl
    · rename_i hs
      refine (ensures_send looks).mono ?_
      rintro es - ⟨a, rfl, ha, rfl⟩
      have hsent : (⟨a.byte, status :: a.statuses⟩ : Attempt).sent = a.sent := by
        simp [Attempt.sent, Decidable.of_not_not hs]
      refine ⟨⟨a.byte, status :: a.statuses⟩, rfl, ⟨by simpa using ha.bounded, fun h => ?_⟩, ?_⟩
      · simpa using ha.lost (hsent ▸ h)
      · rw [Attempt.exchanges, Attempt.exchanges, hsent]
        rfl

theorem ensures_sendAll : ∀ bytes : List UInt8, (sendAll bytes).Ensures A fun es _ =>
    ∃ attempts : List Attempt, attempts.map (·.byte) = bytes ∧
      (∀ a ∈ attempts, a.Within waitLoops) ∧ es = attempts.flatMap Attempt.exchanges
  | [] => ensures_done.2 ⟨[], rfl, List.forall_mem_nil _, rfl⟩
  | byte :: rest => by
    refine (ensures_send waitLoops).bind ?_
    rintro es - ⟨a, rfl, ha, rfl⟩
    refine (ensures_sendAll rest).mono ?_
    rintro es - ⟨attempts, rfl, hattempts, rfl⟩
    exact ⟨a :: attempts, rfl, List.forall_mem_cons.2 ⟨ha, hattempts⟩, rfl⟩

theorem observes_send : ∀ (looks : Nat) (past : List (Exchange Ports)),
    (send byte looks).Observes dataRule past fun _ _ => True
  | 0, _ => observes_done.2 trivial
  | looks + 1, past => by
    rw [send_succ]
    refine observes_ask.2 ⟨rfl, fun status => ?_⟩
    split
    · rename_i hs
      refine observes_ask.2 ⟨⟨rfl, status, List.getLast?_concat .., hs⟩, fun _ => ?_⟩
      exact observes_done.2 trivial
    · exact observes_send looks _

theorem observes_sendAll : ∀ (bytes : List UInt8) (past : List (Exchange Ports)),
    (sendAll bytes).Observes dataRule past fun _ _ => True
  | [], _ => observes_done.2 trivial
  | _ :: rest, past => (observes_send waitLoops past).bind fun now _ _ => observes_sendAll rest now

/-- A transmitter that keeps up loses nothing. -/
theorem sent_of_keepsUp (hattempts : ∀ a ∈ attempts, a.Within waitLoops)
    (hk : KeepsUp (attempts.flatMap Attempt.exchanges)) (ha : a ∈ attempts) : a.sent = true := by
  cases hs : a.sent with
  | true => rfl
  | false =>
    have hin : a.exchanges <:+: attempts.flatMap Attempt.exchanges :=
      List.infix_of_mem_flatten (List.mem_map_of_mem ha)
    rw [Attempt.exchanges, hs, if_neg Bool.false_ne_true, List.append_nil] at hin
    obtain ⟨status, hmem, hready⟩ := hk a.statuses ((hattempts a ha).lost hs) hin
    exact absurd (Attempt.sent_eq_false_iff.1 hs status hmem) hready

theorem ensures_transmitted : (sendAll bytes).Ensures A fun es _ =>
    ∃ attempts, Transmitted bytes attempts es := by
  intro es o h hA
  obtain ⟨hruled, -⟩ := (observes_sendAll bytes []).of_runs h
  obtain ⟨_, rfl, attempts, rfl, hattempts, rfl⟩ := ensures_sendAll bytes es o h hA
  refine ⟨_, rfl, attempts, rfl, rfl, fun a ha => (hattempts a ha).bounded, fun a ha => ?_, hruled,
    picked_attempts, fun hk => ?_⟩
  · rw [← Attempt.sent_eq_false_iff, iff_and_self]
    exact (hattempts a ha).lost
  · rw [picked_attempts, List.filter_eq_self.2 fun a ha => sent_of_keepsUp hattempts hk ha,
      List.map_map]
    rfl

end Bytes

/-- The port is set up once, by six writes, and then the bytes of the texts are sent in turn. -/
theorem transmitted_of_runs {texts : List (List UInt8)} {es : List (Exchange Ports)}
    {o : Option Bool} (h : Runs (writeTexts false texts) es o) :
    o = some !texts.isEmpty ∧ ∃ sending attempts,
      es = (if texts.isEmpty then [] else
        [(0x3F9, 0x00), (0x3FB, 0x80), (0x3F8, 0x01), (0x3F9, 0x00), (0x3FB, 0x03),
          (0x3FA, 0xC7)]).map access ++ sending ∧
        Transmitted (onWire texts) attempts sending := by
  rw [← setup_eq]
  rw [writeTexts_false] at h
  have hensures : (writeAll (if texts.isEmpty then [] else setup) >>= fun _ =>
      sendAll (onWire texts) >>= fun _ => done !texts.isEmpty).Ensures (fun _ => True)
        fun es isSetUp => isSetUp = !texts.isEmpty ∧ ∃ sending attempts,
          es = (if texts.isEmpty then [] else setup).map access ++ sending ∧
            Transmitted (onWire texts) attempts sending := by
    refine (ensures_writeAll _).bind ?_
    rintro _ - rfl
    refine ensures_transmitted.bind fun sending _ ⟨attempts, hsent⟩ => ensures_done.2 ?_
    exact ⟨rfl, sending, attempts, by rw [List.append_nil], hsent⟩
  obtain ⟨_, rfl, rfl, hsending⟩ := hensures.exists_of_run h
  exact ⟨rfl, hsending⟩

section LostFeed

variable {byte status : UInt8}

theorem runs_send_of_ready (h : status &&& 0x20 ≠ 0) (looks : Nat) :
    Runs (send byte (looks + 1)) [look status, access (0x3F8, byte)] (some ()) := by
  rw [send_succ]
  refine .ask ?_
  rw [if_pos h]
  exact .ask (.done ())

theorem runs_send_of_not_ready (h : status &&& 0x20 = 0) :
    ∀ looks, Runs (send byte looks) (List.replicate looks (look status)) (some ())
  | 0 => .done ()
  | looks + 1 => by
    rw [send_succ]
    refine .ask ?_
    rw [if_neg (not_not_intro h)]
    exact runs_send_of_not_ready h looks

/-- A transmitter that is ready once, then not for as many looks as there are for a byte, and then
again. -/
def lostFeed : List (Exchange Ports) :=
  [look 0x20, access (0x3F8, 13)] ++
    (List.replicate 100000 (look 0) ++ [look 0x20, access (0x3F8, 98)])

/-- The port is set up, and the transmitter then does so. -/
def lostFeedRun : List (Exchange Ports) :=
  [access (0x3F9, 0x00), access (0x3FB, 0x80), access (0x3F8, 0x01), access (0x3F9, 0x00),
    access (0x3FB, 0x03), access (0x3FA, 0xC7)] ++ lostFeed

theorem runs_lostFeed : Runs (writeTexts false [[10], [98]]) lostFeedRun (some true) := by
  have hready : (0x20 : UInt8) &&& 0x20 ≠ 0 := by decide
  have hsetup : Runs (writeAll setup) (setup.map access) (some ()) :=
    .ask (.ask (.ask (.ask (.ask (.ask (.done ()))))))
  have hsend : Runs (sendAll [13, 10, 98]) lostFeed (some ()) := by
    refine (runs_send_of_ready hready _).bind ?_
    refine (runs_send_of_not_ready (by decide) _).bind ?_
    exact (runs_send_of_ready hready _).bind (.done ())
  have hbytes : onWire [[10], [98]] = [13, 10, 98] := by decide
  rw [writeTexts_false, hbytes]
  refine hsetup.bind ?_
  rw [← List.append_nil lostFeed]
  exact hsend.bind (.done true)

/-- There the carriage return is sent and the line feed is missing. -/
theorem transmitted_lostFeed :
    Runs (writeTexts false [[10], [98]]) lostFeedRun (some true) ∧
      (∃ attempts, Transmitted [13, 10, 98] attempts lostFeed) ∧
        picked written? lostFeedRun = [(0x3F9, 0x00), (0x3FB, 0x80), (0x3F8, 0x01), (0x3F9, 0x00),
          (0x3FB, 0x03), (0x3FA, 0xC7), (0x3F8, 13), (0x3F8, 98)] := by
  obtain ⟨-, sending, attempts, hes, hsent⟩ := transmitted_of_runs runs_lostFeed
  obtain rfl : lostFeed = sending := List.append_cancel_left hes
  have hlooks : picked written? (List.replicate 100000 (look 0)) = [] :=
    picked_eq_nil fun e he => by rw [List.eq_of_mem_replicate he]; rfl
  refine ⟨runs_lostFeed, ⟨attempts, hsent⟩, ?_⟩
  rw [lostFeedRun, lostFeed, picked_append, picked_append, picked_append, hlooks]
  rfl

end LostFeed

end Bootloader.Serial
