import Bootloader.Proofs.Ensures
import Mathlib.Algebra.BigOperators.Group.Multiset.Basic

/-!
# What is lent and given back

A `Lending` says what each exchange of an interface lends, and what each request gives back.
`Ledger` follows what is held along a list of exchanges: nothing is given back that is not held
there.

`p.Balances` follows it along a program, whatever it is replied: what was held is spent, and the
value owns what is left.  Balances compose (`Balances.bind`), what is not spent stays
(`Balances.frame`), and a program that is carried out by another keeps its balance if each of its
requests does (`Balances.via`).  The runs of a program that balances keep the ledger
(`Balances.ensures`).
-/

namespace Bootloader

variable {I J : Interface} {ρ : Type}

/-- What the exchanges of an interface lend, and what its requests give back. -/
structure Lending (I : Interface) (ρ : Type) where
  lent : Exchange I → Multiset ρ
  returned : I.Request → Multiset ρ

/-- The exchanges lead from what was held before to what is held after, and give back only what is
held. -/
inductive Ledger (L : Lending I ρ) : Multiset ρ → List (Exchange I) → Multiset ρ → Prop where
  | nil (held : Multiset ρ) : Ledger L held [] held
  | cons {e : Exchange I} {es : List (Exchange I)} {rest held : Multiset ρ} :
      Ledger L (rest + L.lent e) es held → Ledger L (rest + L.returned e.1) (e :: es) held

namespace Ledger

variable {L : Lending I ρ} {es es' : List (Exchange I)} {before held after : Multiset ρ}

theorem append (h : Ledger L before es held) (h' : Ledger L held es' after) :
    Ledger L before (es ++ es') after := by
  induction h with
  | nil held => exact h'
  | cons _ ih => exact .cons (ih h')

/-- What is held between two parts is what the first leads to. -/
theorem of_append (h : Ledger L before (es ++ es') after) :
    ∃ held, Ledger L before es held ∧ Ledger L held es' after := by
  induction es generalizing before with
  | nil => exact ⟨before, .nil before, h⟩
  | cons e es ih =>
    cases h with
    | cons h =>
      obtain ⟨held, h₁, h₂⟩ := ih h
      exact ⟨held, .cons h₁, h₂⟩

/-- What is held all the time makes no difference. -/
theorem frame (h : Ledger L before es after) (others : Multiset ρ) :
    Ledger L (before + others) es (after + others) := by
  induction h with
  | nil held => exact .nil _
  | @cons e es rest held _ ih =>
    rw [add_right_comm] at ih ⊢
    exact .cons ih

theorem cons_idle {e : Exchange I} (hl : L.lent e = 0) (hr : L.returned e.1 = 0)
    (h : Ledger L held es after) : Ledger L held (e :: es) after := by
  have hcons : Ledger L (held + L.returned e.1) (e :: es) after := .cons (by rwa [hl, add_zero])
  rwa [hr, add_zero] at hcons

theorem cons_returned {e : Exchange I} (hl : L.lent e = 0) (h : Ledger L held es after) :
    Ledger L (held + L.returned e.1) (e :: es) after := .cons (by rwa [hl, add_zero])

theorem cons_lent {e : Exchange I} (hr : L.returned e.1 = 0)
    (h : Ledger L (held + L.lent e) es after) : Ledger L held (e :: es) after := by
  have hcons : Ledger L (held + L.returned e.1) (e :: es) after := .cons h
  rwa [hr, add_zero] at hcons

/-- Parts each of which gives back what it was lent keep what is held. -/
theorem flatten {parts : List (List (Exchange I))} (h : ∀ es ∈ parts, Ledger L 0 es 0)
    (held : Multiset ρ) : Ledger L held parts.flatten held := by
  induction parts with
  | nil => exact .nil held
  | cons es parts ih =>
    rw [List.forall_mem_cons] at h
    have hes := h.1.frame held
    rw [zero_add] at hes
    exact hes.append (ih h.2)

/-- All that was held or lent is given back, or held at the end. -/
theorem conserves (h : Ledger L before es after) :
    before + (es.map L.lent).sum = after + (es.map fun e => L.returned e.1).sum := by
  induction h with
  | nil held => rfl
  | @cons e es rest held _ ih =>
    rw [List.map_cons, List.sum_cons, List.map_cons, List.sum_cons, add_left_comm held, ← ih]
    simp only [add_assoc, add_left_comm]

theorem of_concat_idle {e : Exchange I} (h : Ledger L before (es ++ [e]) after)
    (hl : L.lent e = 0) (hr : L.returned e.1 = 0) : Ledger L before es after := by
  obtain ⟨held, hes, he⟩ := h.of_append
  have hheld := he.conserves
  rw [List.map_singleton, List.map_singleton, List.sum_singleton, List.sum_singleton, hl, hr,
    add_zero, add_zero] at hheld
  exact hheld ▸ hes

/-- What is given back was lent more often than it was given back before. -/
theorem count_lt [DecidableEq ρ] {e : Exchange I} {x : ρ} (h : Ledger L 0 (es ++ e :: es') after)
    (hx : x ∈ L.returned e.1) :
    (es.map fun e => L.returned e.1).sum.count x < (es.map L.lent).sum.count x := by
  obtain ⟨held, h₁, h₂⟩ := h.of_append
  cases h₂ with
  | @cons _ _ rest _ _ =>
    have hcount : (0 + (es.map L.lent).sum).count x =
        (rest + L.returned e.1 + (es.map fun e => L.returned e.1).sum).count x :=
      congrArg (Multiset.count x) h₁.conserves
    have hpos : 0 < (L.returned e.1).count x := Multiset.count_pos.2 hx
    rw [zero_add, Multiset.count_add, Multiset.count_add] at hcount
    omega

/-- Where nothing is lent, all that is given back was held. -/
theorem of_lent_eq_zero (h : ∀ e ∈ es, L.lent e = 0) :
    Ledger L (held + (es.map fun e => L.returned e.1).sum) es held := by
  induction es with
  | nil => simpa using Ledger.nil held
  | cons e es ih =>
    rw [List.forall_mem_cons] at h
    rw [List.map_cons, List.sum_cons, add_left_comm, add_comm]
    refine .cons ?_
    rw [h.1, add_zero]
    exact ih h.2

theorem of_idle (h : ∀ e ∈ es, L.lent e = 0 ∧ L.returned e.1 = 0) : Ledger L held es held := by
  have hsum : (es.map fun e => L.returned e.1).sum = 0 := List.sum_eq_zero fun x hx => by
    obtain ⟨e, he, rfl⟩ := List.mem_map.1 hx
    exact (h e he).2
  have hledger : Ledger L (held + (es.map fun e => L.returned e.1).sum) es held :=
    of_lent_eq_zero fun e he => (h e he).1
  rwa [hsum, add_zero] at hledger

end Ledger

namespace Program

variable {α β σ : Type}

/-- Whatever `p` is replied, it spends what was held, and its value owns what is left. -/
def Balances (L : Lending I ρ) : Program I α → Multiset ρ → (α → Multiset ρ) → Prop
  | done a, held, owned => held = owned a
  | stop, _, _ => False
  | ask q next, held, owned =>
    ∃ rest, held = rest + L.returned q ∧
      ∀ r, (next r).Balances L (rest + L.lent ⟨q, r⟩) owned

section Balances

variable {L : Lending I ρ} {p : Program I α} {f : α → Program I β} {held rest : Multiset ρ}
variable {owned : α → Multiset ρ} {owned' : β → Multiset ρ}

@[simp] theorem balances_done {a : α} : (done a : Program I α).Balances L held owned ↔
    held = owned a := Iff.rfl

/-- A request that gives back nothing goes on with what it was lent. -/
theorem balances_request {q : I.Request} {f : I.Reply q → Program I β} (hq : L.returned q = 0)
    (h : ∀ r, (f r).Balances L (held + L.lent ⟨q, r⟩) owned') :
    (request q >>= f).Balances L held owned' :=
  ⟨held, by rw [hq, add_zero], h⟩

theorem balances_return {q : I.Request} {f : I.Reply q → Program I β}
    (hs : held = rest + L.returned q) (hr : ∀ r, L.lent ⟨q, r⟩ = 0)
    (h : ∀ r, (f r).Balances L rest owned') : (request q >>= f).Balances L held owned' :=
  ⟨rest, hs, fun r => by rw [hr, add_zero]; exact h r⟩

theorem balances_idle {q : I.Request} {f : I.Reply q → Program I β} (hq : L.returned q = 0)
    (hr : ∀ r, L.lent ⟨q, r⟩ = 0) (h : ∀ r, (f r).Balances L held owned') :
    (request q >>= f).Balances L held owned' :=
  balances_return (by rw [hq, add_zero]) hr h

namespace Balances

theorem bind (hp : p.Balances L held owned)
    (hf : ∀ a, (f a).Balances L (owned a) owned') : (p >>= f).Balances L held owned' := by
  induction p generalizing held with
  | done a => exact (balances_done.1 hp) ▸ hf a
  | stop => exact hp.elim
  | ask q next ih =>
    obtain ⟨rest, rfl, h⟩ := hp
    exact ⟨rest, rfl, fun r => ih r (h r)⟩

/-- What is not spent stays. -/
theorem frame (hp : p.Balances L held owned) (rest : Multiset ρ) :
    p.Balances L (held + rest) fun a => owned a + rest := by
  induction p generalizing held with
  | done a => exact congrArg (· + rest) hp
  | stop => exact hp.elim
  | ask q next ih =>
    obtain ⟨others, rfl, h⟩ := hp
    refine ⟨others + rest, add_right_comm .., fun r => ?_⟩
    rw [add_right_comm]
    exact ih r (h r)

theorem gain (hp : p.Balances L 0 owned) (rest : Multiset ρ) :
    p.Balances L rest fun a => owned a + rest := by
  have h := hp.frame rest
  rwa [zero_add] at h

/-- A program that gives back all it was lent keeps what is held. -/
theorem idle (hp : p.Balances L 0 fun _ => 0) (held : Multiset ρ) :
    p.Balances L held fun _ => held := by
  have h := hp.frame held
  simpa only [zero_add] using h

theorem via {M : Lending J ρ} {carry : (q : I.Request) → σ → Program J (I.Reply q × σ)}
    (hp : p.Balances L held owned)
    (hc : ∀ q s, (carry q s).Balances M (L.returned q) fun x => L.lent ⟨q, x.1⟩) (s : σ) :
    (p.via carry s).Balances M held fun x => owned x.1 := by
  induction p generalizing held s with
  | done a => exact hp
  | stop => exact hp
  | ask q next ih =>
    obtain ⟨rest, rfl, h⟩ := hp
    rw [via_ask, add_comm]
    refine ((hc q s).frame rest).bind fun x => ?_
    rw [add_comm]
    exact ih x.1 (h x.1) x.2

/-- Every run of a program that balances keeps the ledger. -/
theorem ensures {A : Exchange I → Prop} (hp : p.Balances L held owned) :
    p.Ensures A fun es a => Ledger L held es (owned a) := by
  induction p generalizing held with
  | done a => exact ensures_done.2 ((balances_done.1 hp) ▸ Ledger.nil _)
  | stop => exact hp.elim
  | ask q next ih =>
    obtain ⟨rest, rfl, h⟩ := hp
    exact ensures_ask.2 fun r _ => (ih r (h r)).mono fun _ _ => .cons

theorem of_runs {es : List (Exchange I)} {a : α} (hp : p.Balances L held owned)
    (hr : Runs p es (some a)) : Ledger L held es (owned a) := by
  have hensures : p.Ensures (fun _ => True) fun es a => Ledger L held es (owned a) := hp.ensures
  exact hensures.of_runs hr fun _ _ => trivial

end Balances

/-- A program that asks only for what lends nothing and gives nothing back keeps what is held. -/
theorem Only.balances (hp : p.Only fun q => L.returned q = 0 ∧ ∀ r, L.lent ⟨q, r⟩ = 0) :
    p.Balances L held fun _ => held := by
  induction p with
  | done a => rfl
  | stop => exact hp
  | ask q next ih =>
    refine ⟨held, by rw [hp.1.1, add_zero], fun r => ?_⟩
    rw [hp.1.2 r, add_zero]
    exact ih r (hp.2 r)

end Balances

end Program

end Bootloader
