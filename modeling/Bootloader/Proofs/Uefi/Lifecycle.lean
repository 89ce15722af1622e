import Bootloader.Proofs.Uefi.Silence
import Bootloader.Uefi.Heap

/-!
# The life of a hold on the services

A hold on the services is used in any order by whoever has it: to get at the tables, to call a
service or write on the console, and by compiled code that wants memory or ends abnormally, as long
as the hold is attached for that.  It can be given up, attached and detached at any time.

`History` is any sequence of such uses, whatever each of them gets to see of the firmware.  What one
use does with a hold that was given up is known from the use alone (`over_of_runs`); that a hold
stays given up is an induction along the history (`History.live_iff`).  `lifecycle_of_history` puts
the two together.
-/

namespace Bootloader.Uefi

open Program

/-- A hold on the services, and whether compiled code works with it. -/
structure Holding where
  efi : Services
  attached : Bool

def Holding.attachment (hold : Holding) : Attached := if hold.attached then some hold.efi else none

/-- What is done with a hold: `reach` gets at the tables, for whatever of them is wanted. -/
inductive Use where
  | reach
  | call (q : Call)
  | print (text : String)
  | printDecimal (value : UInt64)
  | printHexadecimal (value : UInt64)
  | setColour (colour : UInt64)
  | allocate (size : UInt64)
  | free (buffer : UInt64)
  | heapAllocate (size : UInt64)
  | heapFree (address : UInt64)
  | abort
  | giveUp
  | attach (attached : Bool)

namespace Use

abbrev Reply : Use → Type
  | reach => SystemTable
  | call q => q.Reply
  | allocate _ => UInt64
  | heapAllocate _ => UInt64
  | _ => Unit

def act : (use : Use) → Holding → Action use.Reply
  | reach, hold => do
    hold.efi.check
    return hold.efi.table
  | call q, hold => hold.efi.call q
  | print text, hold => hold.efi.print text
  | printDecimal value, hold => hold.efi.printDecimal value
  | printHexadecimal value, hold => hold.efi.printHexadecimal value
  | setColour colour, hold => hold.efi.setColour colour
  | allocate size, hold => hold.efi.allocate size
  | free buffer, hold => hold.efi.free buffer
  | heapAllocate size, hold => hold.attachment.allocate size
  | heapFree address, hold => hold.attachment.free address
  | abort, hold => hold.attachment.abort
  | giveUp, _ => .done ()
  | attach _, _ => .done ()

def after : Use → Holding → Holding
  | giveUp, hold => { hold with efi := hold.efi.giveUp }
  | attach attached, hold => { hold with attached }
  | _, hold => hold

/-- The calls of a use that goes through the services, which only some do. -/
def calls? : Use → Option (List Call)
  | reach => some []
  | call q => some [q]
  | print text => some [.outputString text]
  | printDecimal value => some [.outputString (decimal value)]
  | printHexadecimal value => some [.outputString (hexadecimal value)]
  | setColour colour => some [.setColour colour]
  | allocate size => some [.allocatePool loaderData size]
  | free buffer => some [.freePool buffer]
  | _ => none

end Use

/-- A use that was made of a hold: the exchanges in it, and what came of it, if it did not halt. -/
structure Made where
  use : Use
  before : Holding
  exchanges : List (Exchange Firmware)
  result : Option use.Reply

/-- A hold is used some number of times.  A machine that goes on after a halt, as a simulated one
may, goes on with the hold that there was. -/
inductive History : Holding → List Made → Holding → Prop where
  | nil (hold : Holding) : History hold [] hold
  | cons {use : Use} {hold last : Holding} {es : List (Exchange Firmware)} {o : Option use.Reply}
      {made : List Made} (run : Runs (use.act hold) es o)
      (rest : History (use.after hold) made last) : History hold (⟨use, hold, es, o⟩ :: made) last

namespace Made

/-- There is no memory to be had, none is given back, and nobody is told. -/
def NoHeap : Made → Prop
  | ⟨.heapAllocate _, _, es, o⟩ => es = [] ∧ o = some 0
  | ⟨.heapFree _, _, es, o⟩ => es = [] ∧ o = some ()
  | _ => True

def Refused (x : Made) : Prop :=
  x.exchanges = [⟨.debugWrite Services.misuse, ()⟩, ⟨.halt, ()⟩] ∧ x.result = none

structure Over (x : Made) : Prop where
  live : x.before.efi.live = false
  past : ∀ e ∈ x.exchanges, e.1.IsPastFirmware
  refused : x.use.calls?.isSome → x.Refused
  heap : x.NoHeap
  abort : x.use = .abort → x.result = none ∧
    x.exchanges =
      if x.before.attached then [⟨.debugWrite "LBL: aborted\n", ()⟩, ⟨.halt, ()⟩] else []

end Made

/-- A hold may be used until it is given up, and is given up for good. -/
structure Lifecycle (hold : Holding) (made : List Made) (last : Holding) : Prop where
  valid : ∀ pre x post, made = pre ++ x :: post →
    (x.before.efi.live = true ↔ hold.efi.live = true ∧ ∀ y ∈ pre, y.use ≠ .giveUp)
  served : ∀ x ∈ made, x.before.efi.live = true → ∀ calls, x.use.calls? = some calls →
    x.exchanges.map (·.1) = calls ∧ x.result ≠ none
  spent : ∀ pre x post, made = pre ++ x :: post → x.use = .giveUp →
    last.efi.live = false ∧ ∀ y ∈ post, y.Over
  detached : ∀ pre x mid y post, made = pre ++ x :: (mid ++ y :: post) → x.use = .attach false →
    (∀ z ∈ mid, z.use ≠ .attach true) → y.NoHeap

namespace Services

variable {efi : Services} {α : Type}

theorem ensures_call (hl : efi.live = true) (q : Call) :
    (efi.call q).Ensures (fun _ => True) fun es _ => es.map (·.1) = [q] := by
  rw [call_eq_of_live hl]
  exact ensures_ask.2 fun _ _ => ensures_done.2 rfl

theorem ensures_call_bind (hl : efi.live = true) (q : Call) (f : q.Reply → α) :
    (efi.call q >>= fun r => .done (f r)).Ensures (fun _ => True) fun es _ =>
      es.map (·.1) = [q] := by
  refine (ensures_call hl q).bind fun es r hes => ensures_done.2 ?_
  rw [List.append_nil, hes]

end Services

namespace Attached

variable {attached : Attached}

theorem usable?_eq_none {hold : Holding} (h : hold.attached = false ∨ hold.efi.live = false) :
    hold.attachment.usable? = none := by
  rcases h with h | h
  · simp [Holding.attachment, h, usable?]
  · rw [Holding.attachment]
    split
    · simp [usable?, h]
    · rfl

theorem allocate_of_not_usable (h : attached.usable? = none) (size : UInt64) :
    attached.allocate size = .done 0 := by
  rw [allocate, h]

theorem free_of_not_usable (h : attached.usable? = none) (address : UInt64) :
    attached.free address = .done () := by
  rw [free, h]

theorem runs_abort_of_not_live {hold : Holding} {es : List (Exchange Firmware)} {o : Option Unit}
    (hl : hold.efi.live = false) (h : Runs hold.attachment.abort es o) : o = none ∧
      es = if hold.attached then [⟨.debugWrite "LBL: aborted\n", ()⟩, ⟨.halt, ()⟩] else [] := by
  obtain ⟨efi, attached⟩ := hold
  cases attached with
  | false => exact (runs_stop_iff.1 h).symm
  | true =>
    change efi.live = false at hl
    simp only [Holding.attachment, if_true, abort, hl, Bool.false_eq_true, if_false] at h
    obtain ⟨_, es₁, rfl, h₁⟩ := runs_request.1 h
    obtain ⟨_, es₂, rfl, h₂⟩ := runs_request.1 h₁
    obtain ⟨rfl, rfl⟩ := runs_stop_iff.1 h₂
    exact ⟨rfl, rfl⟩

end Attached

namespace Made

variable {x : Made}

theorem noHeap_of_runs (hr : Runs (x.use.act x.before) x.exchanges x.result)
    (h : x.before.attached = false ∨ x.before.efi.live = false) : x.NoHeap := by
  obtain ⟨use, hold, es, o⟩ := x
  have husable := Attached.usable?_eq_none h
  cases use with
  | heapAllocate size =>
    rw [Use.act, Attached.allocate_of_not_usable husable] at hr
    exact runs_done_iff.1 hr
  | heapFree address =>
    rw [Use.act, Attached.free_of_not_usable husable] at hr
    exact runs_done_iff.1 hr
  | _ => trivial

theorem served_of_runs (hr : Runs (x.use.act x.before) x.exchanges x.result)
    (hl : x.before.efi.live = true) {calls : List Call} (h : x.use.calls? = some calls) :
    x.exchanges.map (·.1) = calls ∧ x.result ≠ none := by
  obtain ⟨use, hold, es, o⟩ := x
  have hensures : (use.act hold).Ensures (fun _ => True) fun es _ => es.map (·.1) = calls := by
    cases use <;> cases h
    case reach =>
      rw [Use.act, Services.check_of_live hl]
      exact ensures_done.2 rfl
    case allocate size => exact Services.ensures_call_bind hl _ _
    case free buffer => exact Services.ensures_call_bind hl _ _
    all_goals exact Services.ensures_call hl _
  obtain ⟨r, rfl, hcalls⟩ := hensures es o hr fun _ _ => trivial
  exact ⟨hcalls, by simp⟩

theorem refused_of_runs (hr : Runs (x.use.act x.before) x.exchanges x.result)
    (hl : x.before.efi.live = false) (h : x.use.calls?.isSome) : x.Refused := by
  obtain ⟨use, hold, es, o⟩ := x
  cases use with
  | allocate _ | free _ => exact Services.runs_call_of_not_live hl hr
  | heapAllocate _ | heapFree _ | abort | giveUp | attach _ => cases h
  | _ => exact Services.runs_check_of_not_live hl hr

theorem abort_of_runs (hr : Runs (x.use.act x.before) x.exchanges x.result)
    (hl : x.before.efi.live = false) (h : x.use = .abort) : x.result = none ∧
      x.exchanges =
        if x.before.attached then [⟨.debugWrite "LBL: aborted\n", ()⟩, ⟨.halt, ()⟩] else [] := by
  obtain ⟨use, hold, es, o⟩ := x
  cases h
  exact Attached.runs_abort_of_not_live hl hr

theorem Refused.isPastFirmware (h : x.Refused) : ∀ e ∈ x.exchanges, e.1.IsPastFirmware := by
  rw [h.1]
  simp [Call.IsPastFirmware]

theorem isPastFirmware_of_runs (hr : Runs (x.use.act x.before) x.exchanges x.result)
    (hl : x.before.efi.live = false) : ∀ e ∈ x.exchanges, e.1.IsPastFirmware := by
  by_cases hcalls : x.use.calls?.isSome
  · exact (refused_of_runs hr hl hcalls).isPastFirmware
  have hheap := noHeap_of_runs hr (.inr hl)
  have habort := abort_of_runs hr hl
  obtain ⟨use, hold, es, o⟩ := x
  cases use <;> simp only [Use.calls?, Option.isSome_some, not_true] at hcalls
  case heapAllocate size => simp [hheap.1]
  case heapFree address => simp [hheap.1]
  case abort =>
    rw [(habort rfl).2]
    split <;> simp [Call.IsPastFirmware]
  all_goals
    have hes : es = [] := (runs_done_iff.1 hr).1
    simp [hes]

theorem over_of_runs (hr : Runs (x.use.act x.before) x.exchanges x.result)
    (hl : x.before.efi.live = false) : x.Over where
  live := hl
  past := isPastFirmware_of_runs hr hl
  refused := refused_of_runs hr hl
  heap := noHeap_of_runs hr (.inr hl)
  abort := abort_of_runs hr hl

end Made

theorem Use.live_after (use : Use) (hold : Holding) :
    (use.after hold).efi.live = true ↔ hold.efi.live = true ∧ use ≠ .giveUp := by
  cases use <;> simp [after, Services.giveUp]

theorem Use.attached_after {use : Use} (h : use ≠ .attach true) {hold : Holding}
    (hd : hold.attached = false) : (use.after hold).attached = false := by
  cases use with
  | attach attached => simpa [after] using h
  | _ => exact hd

namespace History

variable {hold last : Holding} {made pre post : List Made} {x : Made}

theorem split (h : History hold (pre ++ x :: post) last) :
    History hold pre x.before ∧ Runs (x.use.act x.before) x.exchanges x.result ∧
      History (x.use.after x.before) post last := by
  induction pre generalizing hold with
  | nil =>
    cases h with
    | cons run rest => exact ⟨.nil _, run, rest⟩
  | cons y pre ih =>
    cases h with
    | cons run rest =>
      obtain ⟨hpre, hx⟩ := ih rest
      exact ⟨.cons run hpre, hx⟩

theorem live_iff (h : History hold made last) :
    last.efi.live = true ↔ hold.efi.live = true ∧ ∀ x ∈ made, x.use ≠ .giveUp := by
  induction h with
  | nil hold => simp
  | cons run rest ih => rw [ih, Use.live_after, List.forall_mem_cons, and_assoc]

theorem detached (h : History hold made last) (hd : hold.attached = false)
    (hmade : ∀ x ∈ made, x.use ≠ .attach true) : last.attached = false := by
  induction h with
  | nil hold => exact hd
  | cons run rest ih =>
    obtain ⟨hx, hmade⟩ := List.forall_mem_cons.1 hmade
    exact ih (Use.attached_after hx hd) hmade

/-- Of any sequence of uses: a hold is valid until it is given up, which is for good. -/
theorem lifecycle (h : History hold made last) : Lifecycle hold made last where
  valid := by
    rintro pre x post rfl
    exact h.split.1.live_iff
  served x hx hl calls hcalls := by
    obtain ⟨pre, post, rfl⟩ := List.append_of_mem hx
    exact Made.served_of_runs h.split.2.1 hl hcalls
  spent := by
    rintro pre x post rfl hx
    obtain ⟨-, -, hrest⟩ := h.split
    have hgone : (x.use.after x.before).efi.live ≠ true := by
      rw [Ne, Use.live_after, hx]
      simp
    refine ⟨?_, fun y hy => ?_⟩
    · rw [← Bool.not_eq_true, hrest.live_iff]
      exact fun hlast => hgone hlast.1
    · obtain ⟨pre', post', rfl⟩ := List.append_of_mem hy
      obtain ⟨hpre, hrun, -⟩ := hrest.split
      refine Made.over_of_runs hrun ?_
      rw [← Bool.not_eq_true, hpre.live_iff]
      exact fun hlive => hgone hlive.1
  detached := by
    rintro pre x mid y post rfl hx hmid
    obtain ⟨-, -, hrest⟩ := h.split
    obtain ⟨hpre, hrun, -⟩ := hrest.split
    refine Made.noHeap_of_runs hrun (.inl (hpre.detached ?_ hmid))
    rw [hx]
    rfl

end History

section Played

variable {σ : Type} (answer : (q : Call) → σ → q.Reply × σ)

/-- The uses made of a hold, one after the other, on a machine that answers from a state. -/
def Holding.played : Holding → σ → List Use → List Made
  | _, _, [] => []
  | hold, s, use :: uses =>
    ⟨use, hold, (use.act hold).exchanges answer s, ((use.act hold).run answer s).1⟩ ::
      (use.after hold).played ((use.act hold).run answer s).2 uses

/-- Any uses in any order make a history, whatever the machine. -/
theorem history_played : ∀ (uses : List Use) (hold : Holding) (s : σ),
    History hold (hold.played answer s uses) (uses.foldl (fun hold use => use.after hold) hold)
  | [], hold, _ => .nil hold
  | use :: uses, hold, s => .cons (runs_exchanges answer (use.act hold) s)
      (history_played uses (use.after hold) ((use.act hold).run answer s).2)

end Played

/-- The small firmware, and a hold on it that is used on after it was given up. -/
def lateUses : List Made :=
  Holding.played smallFirmware ⟨smallServices, true⟩ 0
    [.print "Done", .giveUp, .reach, .heapAllocate 16, .attach false, .heapFree 8, .attach true,
      .abort]

/-- The firmware gets the text, and nothing after it. -/
theorem lifecycle_lateUses :
    (∃ last, Lifecycle ⟨smallServices, true⟩ lateUses last) ∧
      lateUses.map (fun x => x.exchanges.map (·.1)) =
        [[.outputString "Done"], [], [.debugWrite Services.misuse, .halt], [], [], [], [],
          [.debugWrite "LBL: aborted\n", .halt]] :=
  ⟨⟨_, (history_played smallFirmware _ _ _).lifecycle⟩, by decide +kernel⟩

end Bootloader.Uefi
