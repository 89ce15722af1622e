/-!
# Programs and their surroundings

A loader is a program that makes requests of its surroundings (a firmware, a BIOS, the ports of a
machine) and goes on with each reply.  A program is a tree: every reply a request may get leads to
one subtree, so a statement about all paths of the tree is a statement about all behaviours the
surroundings may show.

`Runs p es r` says that `p` makes the requests of `es`, gets the replies of `es`, in that order,
and ends with `r`.  The runs of a sequence are the runs of its first part followed by those of its
second (`runs_bind_iff`).
-/

namespace Bootloader

/-- The requests a program may make, and the replies each of them may get. -/
structure Interface where
  Request : Type
  Reply : Request → Type

/-- The requests of either of two interfaces. -/
abbrev Interface.either (I J : Interface) : Interface where
  Request := I.Request ⊕ J.Request
  Reply
    | .inl q => I.Reply q
    | .inr q => J.Reply q

/-- A program over `I`: it is done, or has stopped for good, or asks and goes on with the reply. -/
inductive Program (I : Interface) (α : Type) : Type where
  | done (value : α)
  | stop
  | ask (request : I.Request) (next : I.Reply request → Program I α)

/-- A request together with the reply it got. -/
abbrev Exchange (I : Interface) : Type := (request : I.Request) × I.Reply request

namespace Program

variable {I J : Interface} {α β γ σ : Type}

/-- Sequencing; nothing follows a stop. -/
protected def bind : Program I α → (α → Program I β) → Program I β
  | done a, f => f a
  | stop, _ => stop
  | ask q next, f => ask q fun r => (next r).bind f

instance : Monad (Program I) where
  pure := done
  bind := Program.bind

/-- The program that makes one request and returns its reply. -/
def request (q : I.Request) : Program I (I.Reply q) := ask q done

@[simp] theorem pure_eq (a : α) : (pure a : Program I α) = done a := rfl

@[simp] theorem bind_done (a : α) (f : α → Program I β) : done a >>= f = f a := rfl

@[simp] theorem bind_stop (f : α → Program I β) : (stop : Program I α) >>= f = stop := rfl

@[simp] theorem bind_ask (q : I.Request) (next : I.Reply q → Program I α) (f : α → Program I β) :
    ask q next >>= f = ask q fun r => next r >>= f := rfl

theorem bind_done_right (p : Program I α) : p >>= done = p := by
  induction p with
  | done a => rfl
  | stop => rfl
  | ask q next ih => simp [ih]

theorem bind_bind (p : Program I α) (f : α → Program I β) (g : β → Program I γ) :
    p >>= f >>= g = p >>= fun a => f a >>= g := by
  induction p with
  | done a => rfl
  | stop => rfl
  | ask q next ih => simp [ih]

instance : LawfulMonad (Program I) :=
  LawfulMonad.mk' (Program I) bind_done_right (fun _ _ => rfl) bind_bind

/-- Answers every request from a state and gives the value the program ends with, or `none` for a
stop, and the last state. -/
def run (answer : (q : I.Request) → σ → I.Reply q × σ) : Program I α → σ → Option α × σ
  | done a, s => (some a, s)
  | stop, s => (none, s)
  | ask q next, s => let (r, s) := answer q s; (next r).run answer s

/-- Carries out every request of a program over `I` by a program over `J`, with a value of its own
handed from one request to the next. -/
def via (carry : (q : I.Request) → σ → Program J (I.Reply q × σ)) :
    Program I α → σ → Program J (α × σ)
  | done a, s => done (a, s)
  | stop, _ => stop
  | ask q next, s => carry q s >>= fun (r, s) => (next r).via carry s

/-- A program that makes no use of the second of two interfaces. -/
def widen (p : Program I α) : Program (I.either J) α :=
  (p.via (fun q _ => ask (.inl q) fun r => done (r, ())) ()) >>= fun x => done x.1

/-- `Runs p es r`: in some surroundings the exchanges of `p` are `es`, and it ends with `r`
(`none` for a stop). -/
inductive Runs : Program I α → List (Exchange I) → Option α → Prop where
  | done (a : α) : Runs (done a) [] (some a)
  | stop : Runs stop [] none
  | ask {q : I.Request} {next : I.Reply q → Program I α} {r : I.Reply q}
      {es : List (Exchange I)} {o : Option α} :
      Runs (next r) es o → Runs (ask q next) (⟨q, r⟩ :: es) o

@[simp] theorem runs_done_iff {a : α} {es : List (Exchange I)} {o : Option α} :
    Runs (done a) es o ↔ es = [] ∧ o = some a := by
  constructor
  · rintro ⟨⟩
    simp
  · rintro ⟨rfl, rfl⟩
    exact .done a

@[simp] theorem runs_stop_iff {es : List (Exchange I)} {o : Option α} :
    Runs stop es o ↔ es = [] ∧ o = none := by
  constructor
  · rintro ⟨⟩
    simp
  · rintro ⟨rfl, rfl⟩
    exact .stop

@[simp] theorem runs_ask_iff {q : I.Request} {next : I.Reply q → Program I α}
    {es : List (Exchange I)} {o : Option α} :
    Runs (ask q next) es o ↔ ∃ r es', es = ⟨q, r⟩ :: es' ∧ Runs (next r) es' o := by
  constructor
  · rintro ⟨⟩
    exact ⟨_, _, rfl, by assumption⟩
  · rintro ⟨r, es', rfl, h⟩
    exact .ask h

/-- A run of a sequence is a run of its first part, and of its second unless the first stops. -/
theorem runs_bind_iff {p : Program I α} {f : α → Program I β} {es : List (Exchange I)}
    {o : Option β} :
    Runs (p >>= f) es o ↔
      (Runs p es none ∧ o = none) ∨
        ∃ a es₁ es₂, es = es₁ ++ es₂ ∧ Runs p es₁ (some a) ∧ Runs (f a) es₂ o := by
  induction p generalizing es with
  | done a =>
    constructor
    · exact fun h => .inr ⟨a, [], es, rfl, .done a, h⟩
    · rintro (⟨h, -⟩ | ⟨b, es₁, es₂, rfl, h₁, h₂⟩)
      · simp at h
      · obtain ⟨rfl, h₁⟩ := runs_done_iff.1 h₁
        cases h₁
        exact h₂
  | stop => simp
  | ask q next ih =>
    simp only [bind_ask, runs_ask_iff, ih]
    constructor
    · rintro ⟨r, es', rfl, ⟨h, rfl⟩ | ⟨a, es₁, es₂, rfl, h₁, h₂⟩⟩
      · exact .inl ⟨⟨r, es', rfl, h⟩, rfl⟩
      · exact .inr ⟨a, ⟨q, r⟩ :: es₁, es₂, rfl, ⟨r, es₁, rfl, h₁⟩, h₂⟩
    · rintro (⟨⟨r, es', rfl, h⟩, rfl⟩ | ⟨a, _, es₂, rfl, ⟨r, es₁, rfl, h₁⟩, h₂⟩)
      · exact ⟨r, es', rfl, .inl ⟨h, rfl⟩⟩
      · exact ⟨r, es₁ ++ es₂, rfl, .inr ⟨a, es₁, es₂, rfl, h₁, h₂⟩⟩

@[simp] theorem run_done (answer : (q : I.Request) → σ → I.Reply q × σ) (a : α) (s : σ) :
    (done a).run answer s = (some a, s) := rfl

@[simp] theorem run_ask (answer : (q : I.Request) → σ → I.Reply q × σ) (q : I.Request)
    (next : I.Reply q → Program I α) (s : σ) :
    (ask q next).run answer s = (next (answer q s).1).run answer (answer q s).2 := rfl

/-- A sequence is run by running its parts one after the other. -/
theorem run_bind (answer : (q : I.Request) → σ → I.Reply q × σ) (p : Program I α)
    (f : α → Program I β) (s : σ) :
    (p >>= f).run answer s =
      match p.run answer s with
      | (some a, s') => (f a).run answer s'
      | (none, s') => (none, s') := by
  induction p generalizing s with
  | done a => rfl
  | stop => rfl
  | ask q next ih => simp [ih]

@[simp] theorem via_done (carry : (q : I.Request) → σ → Program J (I.Reply q × σ)) (a : α) (s : σ) :
    (done a).via carry s = done (a, s) := rfl

@[simp] theorem via_ask (carry : (q : I.Request) → σ → Program J (I.Reply q × σ)) (q : I.Request)
    (next : I.Reply q → Program I α) (s : σ) :
    (ask q next).via carry s = carry q s >>= fun x => (next x.1).via carry x.2 := rfl

end Program

end Bootloader
