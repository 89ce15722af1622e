import Bootloader.Proofs.Rule

/-!
# Programs carried out by others

`Program.via` carries out each request of a program by a program over another interface.
`Carried C es s fs s'` says that the exchanges `es` of the first were carried out by the exchanges
`fs` of the second, one request after the other, each as `C` has it, and that the value handed on
went from `s` to `s'`.  So what is known of the exchanges of a program, and of how one request is
carried out, is known of the program carried out (`ensures_via`).  A rule that the first observes
leads to one that the second observes, if each request that the first rule allows is carried out as
the second allows (`observes_via`).
-/

namespace Bootloader

variable {I J : Interface} {α σ : Type}

/-- Exchanges of a program, and the exchanges that carried them out. -/
inductive Carried (C : (q : I.Request) → σ → List (Exchange J) → I.Reply q × σ → Prop) :
    List (Exchange I) → σ → List (Exchange J) → σ → Prop where
  | nil (s : σ) : Carried C [] s [] s
  | cons {q : I.Request} {r : I.Reply q} {es : List (Exchange I)} {s s₁ s₂ : σ}
      {fs₁ fs₂ : List (Exchange J)} :
      C q s fs₁ (r, s₁) → Carried C es s₁ fs₂ s₂ → Carried C (⟨q, r⟩ :: es) s (fs₁ ++ fs₂) s₂

namespace Carried

variable {C : (q : I.Request) → σ → List (Exchange J) → I.Reply q × σ → Prop}
variable {es es' : List (Exchange I)} {fs : List (Exchange J)} {s s' : σ}

/-- What came last was carried out last. -/
theorem of_append (h : Carried C (es ++ es') s fs s') :
    ∃ fs₁ s₁ fs₂, fs = fs₁ ++ fs₂ ∧ Carried C es s fs₁ s₁ ∧ Carried C es' s₁ fs₂ s' := by
  induction es generalizing s fs with
  | nil => exact ⟨[], s, fs, rfl, .nil s, h⟩
  | cons e es ih =>
    cases h with
    | cons hc h =>
      obtain ⟨fs₁, s₁, fs₂, rfl, h₁, h₂⟩ := ih h
      exact ⟨_, s₁, fs₂, (List.append_assoc ..).symm, .cons hc h₁, h₂⟩

theorem concat {q : I.Request} {r : I.Reply q} {fs' : List (Exchange J)} {s₁ : σ}
    (h : Carried C es s fs s') (hc : C q s' fs' (r, s₁)) :
    Carried C (es ++ [⟨q, r⟩]) s (fs ++ fs') s₁ := by
  induction h with
  | nil s =>
    have hone : Carried C [⟨q, r⟩] s (fs' ++ []) s₁ := .cons hc (.nil s₁)
    rwa [List.append_nil] at hone
  | cons hfirst _ ih =>
    rw [List.append_assoc]
    exact .cons hfirst (ih hc)

theorem of_nil (h : Carried C [] s fs s') : fs = [] ∧ s' = s := by
  cases h
  exact ⟨rfl, rfl⟩

theorem of_singleton {q : I.Request} {r : I.Reply q} (h : Carried C [⟨q, r⟩] s fs s') :
    C q s fs (r, s') := by
  cases h with
  | cons hc h =>
    cases h
    rwa [List.append_nil]

/-- Each exchange was made to carry out one of the requests. -/
theorem exists_of_mem (h : Carried C es s fs s') {f : Exchange J} (hf : f ∈ fs) :
    ∃ (q : I.Request) (r : I.Reply q) (s₁ s₂ : σ) (fs' : List (Exchange J)),
      ⟨q, r⟩ ∈ es ∧ C q s₁ fs' (r, s₂) ∧ f ∈ fs' := by
  induction h with
  | nil => cases hf
  | @cons q r es s s₁ s₂ fs₁ fs₂ hc _ ih =>
    rcases List.mem_append.1 hf with hf | hf
    · exact ⟨q, r, s, s₁, fs₁, .head _, hc, hf⟩
    · obtain ⟨q', r', s₃, s₄, fs', hmem, h'⟩ := ih hf
      exact ⟨q', r', s₃, s₄, fs', .tail _ hmem, h'⟩

end Carried

namespace Program

theorem ensures_via {A : Exchange J → Prop} {p : Program I α}
    {carry : (q : I.Request) → σ → Program J (I.Reply q × σ)}
    {C : (q : I.Request) → σ → List (Exchange J) → I.Reply q × σ → Prop}
    {Q : List (Exchange I) → α → Prop} (hp : p.Ensures (fun _ => True) Q)
    (hc : ∀ q s, (carry q s).Ensures A (C q s)) (s : σ) :
    (p.via carry s).Ensures A fun fs x => ∃ es, Q es x.1 ∧ Carried C es s fs x.2 := by
  induction p generalizing s Q with
  | done a => simpa using ⟨[], ensures_done.1 hp, .nil s⟩
  | stop =>
    obtain ⟨a, ha, -⟩ := hp [] none .stop (by simp)
    cases ha
  | ask q next ih =>
    refine (hc q s).bind fun fs₁ x hx => ?_
    refine (ih x.1 (ensures_ask.1 hp x.1 trivial) x.2).mono fun fs₂ y hy => ?_
    obtain ⟨es, hQ, hes⟩ := hy
    exact ⟨⟨q, x.1⟩ :: es, hQ, .cons hx hes⟩

/-- What is carried out after `start` observes a rule there, if each request does so when it is
carried out after those before it. -/
theorem observes_via {rule : Rule I} {rule' : Rule J} {p : Program I α}
    {carry : (q : I.Request) → σ → Program J (I.Reply q × σ)}
    {C : (q : I.Request) → σ → List (Exchange J) → I.Reply q × σ → Prop}
    {Q : List (Exchange I) → α → Prop} {start : List (Exchange J)} {s₀ : σ}
    (hc : ∀ past q s fs, rule past q → Carried C past s₀ fs s →
      (carry q s).Observes rule' (start ++ fs) fun now x =>
        ∃ fs', now = start ++ fs ++ fs' ∧ C q s fs' x)
    {past : List (Exchange I)} (hp : p.Observes rule past Q) {fs : List (Exchange J)} {s : σ}
    (hpast : Carried C past s₀ fs s) :
    (p.via carry s).Observes rule' (start ++ fs) fun now x =>
      ∃ es fs', now = start ++ fs' ∧ Q es x.1 ∧ Carried C es s₀ fs' x.2 := by
  -- the requests so far and what carried them out grow together, so both are generalised
  induction p generalizing past fs s with
  | done a => exact observes_done.2 ⟨past, fs, rfl, observes_done.1 hp, hpast⟩
  | stop =>
    obtain ⟨a, ha, -⟩ := (hp.of_runs_after .stop).2
    cases ha
  | ask q next ih =>
    obtain ⟨hq, hnext⟩ := observes_ask.1 hp
    rw [via_ask]
    refine (hc past q s fs hq hpast).bind fun now x hx => ?_
    obtain ⟨fs', rfl, hC⟩ := hx
    rw [List.append_assoc]
    exact ih x.1 (hnext x.1) (hpast.concat hC)

end Program

end Bootloader
