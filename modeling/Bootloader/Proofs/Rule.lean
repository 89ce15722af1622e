import Bootloader.Proofs.Ensures

/-!
# Rules that a program observes

A rule says which requests may be made, given all exchanges up to then.  `p.Observes rule past Q`
says that after `past`, and whatever it is replied, `p` makes no request but those that the rule
allows at that point, and comes to a value, with `Q` of all exchanges by then.

A sequence observes a rule if its parts do, each after what came before it (`Observes.bind`), and
the runs of a program that observes a rule from the beginning keep to it (`Observes.of_runs`).
-/

namespace Bootloader

variable {I : Interface}

/-- Which requests may be made, and after which exchanges. -/
abbrev Rule (I : Interface) : Type := List (Exchange I) → I.Request → Prop

/-- Each request was allowed when it was made. -/
def Rule.KeptBy (rule : Rule I) (es : List (Exchange I)) : Prop :=
  ∀ pre e post, es = pre ++ e :: post → rule pre e.1

theorem Rule.keptBy_of_forall {rule : Rule I} {es : List (Exchange I)}
    (h : ∀ e ∈ es, ∀ past, rule past e.1) : rule.KeptBy es := by
  rintro pre e post rfl
  exact h e (by simp) pre

theorem Rule.KeptBy.mono {rule rule' : Rule I} {es : List (Exchange I)} (h : rule.KeptBy es)
    (hrule : ∀ past q, rule past q → rule' past q) : rule'.KeptBy es :=
  fun pre e post hes => hrule pre e.1 (h pre e post hes)

namespace Program

variable {α β : Type}

/-- Whatever it is replied, `p` observes the rule after `past`, and comes to a value as `Q` has
it. -/
def Observes (rule : Rule I) :
    Program I α → List (Exchange I) → (List (Exchange I) → α → Prop) → Prop
  | done a, past, Q => Q past a
  | stop, _, _ => False
  | ask q next, past, Q => rule past q ∧ ∀ r, (next r).Observes rule (past ++ [⟨q, r⟩]) Q

section Observes

variable {rule rule' : Rule I} {p : Program I α} {f : α → Program I β}
variable {past es : List (Exchange I)} {Q Q' : List (Exchange I) → α → Prop}
variable {R : List (Exchange I) → β → Prop}

@[simp] theorem observes_done {a : α} : (done a).Observes rule past Q ↔ Q past a := Iff.rfl

@[simp] theorem observes_ask {q : I.Request} {next : I.Reply q → Program I α} :
    (ask q next).Observes rule past Q ↔
      rule past q ∧ ∀ r, (next r).Observes rule (past ++ [⟨q, r⟩]) Q := Iff.rfl

theorem observes_request {q : I.Request} {f : I.Reply q → Program I β} :
    (request q >>= f).Observes rule past R ↔
      rule past q ∧ ∀ r, (f r).Observes rule (past ++ [⟨q, r⟩]) R := observes_ask

namespace Observes

theorem mono (hp : p.Observes rule past Q) (h : ∀ now a, Q now a → Q' now a) :
    p.Observes rule past Q' := by
  induction p generalizing past with
  | done a => exact h past a hp
  | stop => exact hp
  | ask q next ih => exact ⟨hp.1, fun r => ih r (hp.2 r)⟩

theorem bind (hp : p.Observes rule past Q) (hf : ∀ now a, Q now a → (f a).Observes rule now R) :
    (p >>= f).Observes rule past R := by
  induction p generalizing past with
  | done a => exact hf past a hp
  | stop => exact hp.elim
  | ask q next ih => exact ⟨hp.1, fun r => ih r (hp.2 r)⟩

/-- What there is by the end is `past` and a run. -/
theorem runs (hp : p.Observes rule past Q) :
    p.Observes rule past fun now a => Q now a ∧ ∃ es, now = past ++ es ∧ Runs p es (some a) := by
  induction p generalizing past with
  | done a => exact ⟨hp, [], (List.append_nil past).symm, .done a⟩
  | stop => exact hp
  | ask q next ih =>
    refine ⟨hp.1, fun r => (ih r (hp.2 r)).mono ?_⟩
    rintro now a ⟨hQ, es, rfl, hr⟩
    exact ⟨hQ, ⟨q, r⟩ :: es, by simp, .ask hr⟩

/-- What came after `past` keeps to the rule there. -/
theorem of_runs_after {o : Option α} (hp : p.Observes rule past Q) (hr : Runs p es o) :
    (∀ pre e post, es = pre ++ e :: post → rule (past ++ pre) e.1) ∧
      ∃ a, o = some a ∧ Q (past ++ es) a := by
  induction hr generalizing past with
  | done a =>
    refine ⟨fun pre e post h => ?_, a, rfl, by simpa using observes_done.1 hp⟩
    simp at h
  | stop => exact hp.elim
  | @ask q next r es o _ ih =>
    obtain ⟨hq, hnext⟩ := hp
    obtain ⟨hkept, a, rfl, hQ⟩ := ih (hnext r)
    refine ⟨fun pre e post h => ?_, a, rfl, by simpa using hQ⟩
    cases pre with
    | nil =>
      obtain ⟨rfl, -⟩ := List.cons.inj h
      simpa using hq
    | cons e' pre =>
      obtain ⟨rfl, htail⟩ := List.cons.inj h
      simpa using hkept pre e post htail

theorem of_runs {o : Option α} (hp : p.Observes rule [] Q) (hr : Runs p es o) :
    rule.KeptBy es ∧ ∃ a, o = some a ∧ Q es a := hp.of_runs_after hr

end Observes

/-- A program whose requests are all allowed, and all keep something that is so, keeps it. -/
theorem Only.observes {P : I.Request → Prop} {Inv : List (Exchange I) → Prop} (hp : p.Only P)
    (h : ∀ past q, P q → Inv past → rule past q ∧ ∀ r, Inv (past ++ [⟨q, r⟩])) (hi : Inv past) :
    p.Observes rule past fun now _ => Inv now := by
  induction p generalizing past with
  | done a => exact hi
  | stop => exact hp
  | ask q next ih =>
    obtain ⟨hq, hinv⟩ := h past q hp.1 hi
    exact ⟨hq, fun r => ih r (hp.2 r) (hinv r)⟩

end Observes

-- a program is followed by the lemmas above, never by evaluating it
attribute [irreducible] Observes

end Program

end Bootloader
