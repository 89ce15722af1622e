import Bootloader.Program

/-!
# What every run of a program ensures

`p.Ensures A Q` says that every run of `p` whose exchanges are all as `A` has them comes to a
value, and that `Q` holds of the exchanges and the value.  A sequence ensures what its second part
does after the exchanges of its first (`Ensures.bind`).

`p.Only P` says that `p` comes to a value and makes no requests but those of `P`, whatever it is
replied.  From such a program only the requests are known (`Only.ensures`), and so what a machine
keeps while it answers them (`Only.run_eq`).

What a list of exchanges says of one matter is picked out of it (`picked`).
-/

namespace Bootloader

namespace Program

variable {I J : Interface} {α β σ τ : Type}

/-- Every run of `p` whose exchanges are all as `A` has them comes to a value as `Q` has it. -/
def Ensures (A : Exchange I → Prop) (p : Program I α) (Q : List (Exchange I) → α → Prop) : Prop :=
  ∀ es o, Runs p es o → (∀ e ∈ es, A e) → ∃ a, o = some a ∧ Q es a

section Ensures

variable {A : Exchange I → Prop} {p : Program I α} {f : α → Program I β}

@[simp] theorem ensures_done {a : α} {Q : List (Exchange I) → α → Prop} :
    (done a).Ensures A Q ↔ Q [] a := by
  constructor
  · intro h
    obtain ⟨b, hb, hQ⟩ := h [] _ (.done a) (by simp)
    cases hb
    exact hQ
  · intro h es o hr _
    obtain ⟨rfl, rfl⟩ := runs_done_iff.1 hr
    exact ⟨a, rfl, h⟩

@[simp] theorem ensures_ask {q : I.Request} {next : I.Reply q → Program I α}
    {Q : List (Exchange I) → α → Prop} :
    (ask q next).Ensures A Q ↔
      ∀ r, A ⟨q, r⟩ → (next r).Ensures A fun es a => Q (⟨q, r⟩ :: es) a := by
  constructor
  · intro h r hA es o hr hes
    exact h _ o (.ask hr) (by simpa using ⟨hA, hes⟩)
  · intro h es o hr hes
    obtain ⟨r, es', rfl, hr'⟩ := runs_ask_iff.1 hr
    simp only [List.mem_cons, forall_eq_or_imp] at hes
    exact h r hes.1 es' o hr' hes.2

/-- A program that begins with a request goes on with the reply. -/
theorem ensures_request {q : I.Request} {f : I.Reply q → Program I β}
    {R : List (Exchange I) → β → Prop} :
    (request q >>= f).Ensures A R ↔
      ∀ r, A ⟨q, r⟩ → (f r).Ensures A fun es b => R (⟨q, r⟩ :: es) b :=
  ensures_ask

theorem runs_request {q : I.Request} {f : I.Reply q → Program I β} {es : List (Exchange I)}
    {o : Option β} :
    Runs (request q >>= f) es o ↔ ∃ r es', es = ⟨q, r⟩ :: es' ∧ Runs (f r) es' o :=
  runs_ask_iff

theorem Ensures.mono {Q Q' : List (Exchange I) → α → Prop} (h : p.Ensures A Q)
    (hQ : ∀ es a, Q es a → Q' es a) : p.Ensures A Q' := by
  intro es o hr hes
  obtain ⟨a, rfl, ha⟩ := h es o hr hes
  exact ⟨a, rfl, hQ es a ha⟩

theorem Ensures.and {Q Q' : List (Exchange I) → α → Prop} (h : p.Ensures A Q)
    (h' : p.Ensures A Q') : p.Ensures A fun es a => Q es a ∧ Q' es a := by
  intro es o hr hes
  obtain ⟨a, rfl, ha⟩ := h es o hr hes
  obtain ⟨b, hb, hb'⟩ := h' es _ hr hes
  cases hb
  exact ⟨a, rfl, ha, hb'⟩

theorem Ensures.of_runs {Q : List (Exchange I) → α → Prop} {es : List (Exchange I)} {a : α}
    (h : p.Ensures A Q) (hr : Runs p es (some a)) (hes : ∀ e ∈ es, A e) : Q es a := by
  obtain ⟨b, hb, hQ⟩ := h es _ hr hes
  cases hb
  exact hQ

theorem Ensures.of_run {Q : List (Exchange I) → α → Prop} {es : List (Exchange I)} {a : α}
    (h : p.Ensures (fun _ => True) Q) (hr : Runs p es (some a)) : Q es a :=
  h.of_runs hr fun _ _ => trivial

theorem Ensures.exists_of_run {Q : List (Exchange I) → α → Prop} {es : List (Exchange I)}
    {o : Option α} (h : p.Ensures (fun _ => True) Q) (hr : Runs p es o) :
    ∃ a, o = some a ∧ Q es a := h es o hr fun _ _ => trivial

/-- What a run ensures, it ensures of that run. -/
theorem Ensures.runs {Q : List (Exchange I) → α → Prop} (h : p.Ensures A Q) :
    p.Ensures A fun es a => Runs p es (some a) ∧ Q es a := by
  intro es o hr hes
  obtain ⟨a, rfl, ha⟩ := h es o hr hes
  exact ⟨a, rfl, hr, ha⟩

theorem Ensures.bind {Q : List (Exchange I) → α → Prop} {R : List (Exchange I) → β → Prop}
    (hp : p.Ensures A Q)
    (hf : ∀ es a, Q es a → (f a).Ensures A fun es' b => R (es ++ es') b) :
    (p >>= f).Ensures A R := by
  intro es o hr hes
  rcases runs_bind_iff.1 hr with ⟨hr', rfl⟩ | ⟨a, es₁, es₂, rfl, hr₁, hr₂⟩
  · obtain ⟨a, ha, -⟩ := hp es none hr' hes
    cases ha
  · simp only [List.mem_append] at hes
    obtain ⟨b, hb, hQ⟩ := hp es₁ _ hr₁ fun e he => hes e (.inl he)
    cases hb
    exact hf es₁ a hQ es₂ o hr₂ fun e he => hes e (.inr he)

end Ensures

/-- `p` comes to a value and makes only requests of which `P` holds, whatever it is replied. -/
def Only (P : I.Request → Prop) : Program I α → Prop
  | done _ => True
  | stop => False
  | ask q next => P q ∧ ∀ r, (next r).Only P

section Only

variable {P P' : I.Request → Prop} {p : Program I α} {f : α → Program I β}

@[simp] theorem only_done {a : α} : (done a : Program I α).Only P := trivial

@[simp] theorem only_ask {q : I.Request} {next : I.Reply q → Program I α} :
    (ask q next).Only P ↔ P q ∧ ∀ r, (next r).Only P := Iff.rfl

theorem Only.bind (hp : p.Only P) (hf : ∀ a, (f a).Only P) : (p >>= f).Only P := by
  induction p with
  | done a => exact hf a
  | stop => exact hp.elim
  | ask q next ih => exact ⟨hp.1, fun r => ih r (hp.2 r)⟩

theorem Only.mono (hp : p.Only P) (h : ∀ q, P q → P' q) : p.Only P' := by
  induction p with
  | done a => trivial
  | stop => exact hp
  | ask q next ih => exact ⟨h q hp.1, fun r => ih r (hp.2 r)⟩

theorem Only.via {Q : J.Request → Prop} {carry : (q : I.Request) → σ → Program J (I.Reply q × σ)}
    (hp : p.Only P) (hc : ∀ q s, P q → (carry q s).Only Q) (s : σ) : (p.via carry s).Only Q := by
  induction p generalizing s with
  | done a => trivial
  | stop => exact hp
  | ask q next ih =>
    rw [via_ask]
    exact (hc q s hp.1).bind fun x => ih x.1 (hp.2 x.1) x.2

theorem Only.ensures {A : Exchange I → Prop} (hp : p.Only P) :
    p.Ensures A fun es _ => ∀ e ∈ es, P e.1 := by
  induction p with
  | done a => simp
  | stop => exact hp.elim
  | ask q next ih =>
    refine ensures_ask.2 fun r _ => (ih r (hp.2 r)).mono fun es _ hes => ?_
    simpa using ⟨hp.1, hes⟩

theorem Only.of_runs {es : List (Exchange I)} {o : Option α} (hp : p.Only P) (hr : Runs p es o) :
    ∀ e ∈ es, P e.1 := by
  have hensures : p.Ensures (fun _ => True) fun es _ => ∀ e ∈ es, P e.1 := hp.ensures
  obtain ⟨_, -, h⟩ := hensures es o hr fun _ _ => trivial
  exact h

/-- Nothing is picked out of the exchanges of a program that makes no request of that kind. -/
theorem Only.filterMap_eq_nil {A : Exchange I → Prop} {f : Exchange I → Option β} (hp : p.Only P)
    (hf : ∀ e : Exchange I, P e.1 → f e = none) :
    p.Ensures A fun es _ => es.filterMap f = [] :=
  hp.ensures.mono fun _ _ h => List.filterMap_eq_nil_iff.2 fun e he => hf e (h e he)

theorem Ensures.only {Q : List (Exchange I) → α → Prop} (hp : p.Ensures (fun _ => True) Q) :
    p.Only fun _ => True := by
  induction p generalizing Q with
  | done a => trivial
  | stop =>
    obtain ⟨a, ha, -⟩ := hp [] none .stop (by simp)
    cases ha
  | ask q next ih => exact ⟨trivial, fun r => ih r (ensures_ask.1 hp r trivial)⟩

/-- A sequence goes on from where its first part comes to a value. -/
theorem run_bind_of_eq {answer : (q : I.Request) → σ → I.Reply q × σ} {a : α} {s s' : σ}
    (h : p.run answer s = (some a, s')) : (p >>= f).run answer s = (f a).run answer s' := by
  rw [run_bind, h]

/-- A machine that keeps a part of its state whenever it answers a request of `P` keeps it while it
answers `p`, which comes to a value. -/
theorem Only.run_eq {answer : (q : I.Request) → σ → I.Reply q × σ} {part : σ → τ}
    (hp : p.Only P) (h : ∀ q s, P q → part (answer q s).2 = part s) (s : σ) :
    ∃ a s', p.run answer s = (some a, s') ∧ part s' = part s := by
  induction p generalizing s with
  | done a => exact ⟨a, s, rfl, rfl⟩
  | stop => exact hp.elim
  | ask q next ih =>
    obtain ⟨a, s', hr, hs⟩ := ih _ (hp.2 (answer q s).1) (answer q s).2
    exact ⟨a, s', hr, hs.trans (h q s hp.1)⟩

end Only

theorem Runs.bind {p : Program I α} {f : α → Program I β} {es es' : List (Exchange I)} {a : α}
    {o : Option β} (hp : Runs p es (some a)) (hf : Runs (f a) es' o) :
    Runs (p >>= f) (es ++ es') o :=
  runs_bind_iff.2 (.inr ⟨a, es, es', rfl, hp, hf⟩)

/-- Two runs of a program with the same exchanges are the same, whatever comes after them. -/
theorem Runs.eq_of_append {p : Program I α} {es es' xs ys : List (Exchange I)} {o o' : Option α}
    (h : Runs p es o) (h' : Runs p es' o') (heq : es ++ xs = es' ++ ys) : es = es' ∧ o = o' := by
  induction h generalizing es' with
  | done a =>
    obtain ⟨rfl, rfl⟩ := runs_done_iff.1 h'
    exact ⟨rfl, rfl⟩
  | stop =>
    obtain ⟨rfl, rfl⟩ := runs_stop_iff.1 h'
    exact ⟨rfl, rfl⟩
  | ask _ ih =>
    obtain ⟨r, es'', rfl, h''⟩ := runs_ask_iff.1 h'
    rw [List.cons_append, List.cons_append, List.cons.injEq, Sigma.mk.injEq] at heq
    obtain ⟨⟨-, hr⟩, heq⟩ := heq
    cases hr
    obtain ⟨rfl, rfl⟩ := ih h'' heq
    exact ⟨rfl, rfl⟩

/-- What does not occur in the first part of a list is behind it. -/
theorem exists_eq_append {xs ys pre post : List α} {x : α} (hx : x ∉ xs)
    (h : xs ++ ys = pre ++ x :: post) : ∃ rest, pre = xs ++ rest := by
  rcases List.append_eq_append_iff.1 h with ⟨rest, hpre, -⟩ | ⟨rest, hxs, hrest⟩
  · exact ⟨rest, hpre⟩
  · cases rest with
    | nil => exact ⟨[], by simpa using hxs.symm⟩
    | cons y rest =>
      obtain ⟨rfl, -⟩ := List.cons.inj hrest
      exact absurd (by simp [hxs]) hx

/-- What occurs once in a list parts it in one way. -/
theorem eq_of_append_cons {xs ys pre post : List α} {x y : α} (hxs : x ∉ xs) (hys : x ∉ ys)
    (h : xs ++ y :: ys = pre ++ x :: post) : pre = xs ∧ y = x := by
  obtain ⟨rest, rfl⟩ := exists_eq_append hxs h
  rw [List.append_assoc] at h
  cases rest with
  | nil => exact ⟨List.append_nil xs, (List.cons.inj (List.append_cancel_left h)).1⟩
  | cons z rest =>
    obtain ⟨-, htail⟩ := List.cons.inj (List.append_cancel_left h)
    exact absurd (by simp [htail]) hys

section Picked

variable {f : Exchange I → Option β} {e : Exchange I} {es es' : List (Exchange I)}

/-- What is picked out of some exchanges, in their order. -/
def picked (f : Exchange I → Option β) (es : List (Exchange I)) : List β := es.filterMap f

@[simp] theorem picked_nil : picked f [] = [] := rfl

@[simp] theorem picked_cons : picked f (e :: es) = (f e).toList ++ picked f es := by
  rw [picked, List.filterMap_cons]
  cases f e <;> rfl

@[simp] theorem picked_append : picked f (es ++ es') = picked f es ++ picked f es' :=
  List.filterMap_append ..

theorem picked_eq_nil (h : ∀ e ∈ es, f e = none) : picked f es = [] :=
  List.filterMap_eq_nil_iff.2 h

end Picked

section Exchanges

variable (answer : (q : I.Request) → σ → I.Reply q × σ)

/-- The exchanges of a program that is answered from a state. -/
def exchanges : Program I α → σ → List (Exchange I)
  | done _, _ => []
  | stop, _ => []
  | ask q next, s => ⟨q, (answer q s).1⟩ :: (next (answer q s).1).exchanges (answer q s).2

/-- They are those of a run. -/
theorem runs_exchanges : ∀ (p : Program I α) (s : σ),
    Runs p (p.exchanges answer s) (p.run answer s).1
  | done a, _ => .done a
  | stop, _ => .stop
  | ask q next, s => .ask (runs_exchanges (next (answer q s).1) (answer q s).2)

theorem forall_mem_exchanges {A : Exchange I → Prop} (h : ∀ q s, A ⟨q, (answer q s).1⟩) :
    ∀ (p : Program I α) (s : σ), ∀ e ∈ p.exchanges answer s, A e
  | done _, _ => by simp [exchanges]
  | stop, _ => by simp [exchanges]
  | ask q next, s => by
    rw [exchanges, List.forall_mem_cons]
    exact ⟨h q s, forall_mem_exchanges h (next (answer q s).1) (answer q s).2⟩

theorem exchanges_bind_of_eq {p : Program I α} {f : α → Program I β} {a : α} {s s' : σ}
    (h : p.run answer s = (some a, s')) :
    (p >>= f).exchanges answer s = p.exchanges answer s ++ (f a).exchanges answer s' := by
  induction p generalizing s with
  | done b =>
    cases h
    rfl
  | stop => cases h
  | ask q next ih => exact congrArg (⟨q, (answer q s).1⟩ :: ·) (ih _ h)

/-- The state after some requests were answered. -/
def stateAfter (es : List (Exchange I)) (s : σ) : σ := es.foldl (fun s e => (answer e.1 s).2) s

theorem run_snd_eq_stateAfter : ∀ (p : Program I α) (s : σ),
    (p.run answer s).2 = stateAfter answer (p.exchanges answer s) s
  | done _, _ => rfl
  | stop, _ => rfl
  | ask q next, s => run_snd_eq_stateAfter (next (answer q s).1) (answer q s).2

/-- Each request is answered from the state that those before it have led to. -/
theorem reply_of_exchanges {e : Exchange I} : ∀ {p : Program I α} {s : σ}
    {pre post : List (Exchange I)}, p.exchanges answer s = pre ++ e :: post →
      e.2 = (answer e.1 (stateAfter answer pre s)).1
  | done _, _, pre, _, h => by simp [exchanges] at h
  | stop, _, pre, _, h => by simp [exchanges] at h
  | ask q next, s, [], _, h => by
    obtain ⟨rfl, -⟩ := List.cons.inj h
    rfl
  | ask q next, s, e' :: pre, _, h => by
    obtain ⟨rfl, htail⟩ := List.cons.inj h
    have hreply := reply_of_exchanges htail
    exact hreply

end Exchanges

end Program

end Bootloader
