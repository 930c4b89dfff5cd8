import Mathlib.Data.List.Basic

/- Computations that ask an environment. A program is a tree: it ends with a
   result or makes a request and goes on with the reply, and nothing is known of
   a reply but its type. A run is a path through the tree; `Ensures` holds of a
   program when a property of the exchanges and the result holds on every run,
   and has one rule for each way to build a program. -/
namespace Process

variable {Q : Type} {R : Q → Type} {α β : Type}

inductive Program (Q : Type) (R : Q → Type) (α : Type) where
  | done (result : α)
  | ask (request : Q) (next : R request → Program Q R α)

/-- A request and the reply it got. -/
structure Exchange (Q : Type) (R : Q → Type) where
  request : Q
  reply : R request

namespace Program

def bind : Program Q R α → (α → Program Q R β) → Program Q R β
  | .done a, f => f a
  | .ask request next, f => .ask request fun reply => bind (next reply) f

instance : Monad (Program Q R) where
  pure := .done
  bind := bind

/-- A single request. -/
def request (q : Q) : Program Q R (R q) := .ask q .done

@[simp] theorem pure_eq (a : α) : (pure a : Program Q R α) = .done a := rfl

@[simp] theorem done_bind (a : α) (f : α → Program Q R β) : (.done a >>= f) = f a := rfl

@[simp] theorem ask_bind (q : Q) (next : R q → Program Q R α) (f : α → Program Q R β) :
    (.ask q next >>= f) = .ask q fun reply => next reply >>= f := rfl

@[simp] theorem request_bind (q : Q) (f : R q → Program Q R β) :
    (request q >>= f) = .ask q f := rfl

end Program

/-- The runs of a program: its exchanges in order, and its result. -/
inductive Runs : Program Q R α → List (Exchange Q R) → α → Prop where
  | done (a : α) : Runs (.done a) [] a
  | ask {request : Q} {next : R request → Program Q R α} {reply : R request}
      {trace : List (Exchange Q R)} {a : α} (rest : Runs (next reply) trace a) :
      Runs (.ask request next) (⟨request, reply⟩ :: trace) a

@[simp] theorem runs_done {a b : α} {trace : List (Exchange Q R)} :
    Runs (.done a) trace b ↔ trace = [] ∧ b = a := by
  constructor
  · intro h
    cases h
    exact ⟨rfl, rfl⟩
  · rintro ⟨rfl, rfl⟩
    exact .done _

theorem runs_ask {request : Q} {next : R request → Program Q R α} {trace : List (Exchange Q R)}
    {a : α} : Runs (.ask request next) trace a ↔
      ∃ reply rest, trace = ⟨request, reply⟩ :: rest ∧ Runs (next reply) rest a := by
  constructor
  · intro h
    cases h with
    | ask rest => exact ⟨_, _, rfl, rest⟩
  · rintro ⟨reply, rest, rfl, h⟩
    exact .ask h

/-- A run of a sequence is a run of each part. -/
theorem runs_bind {p : Program Q R α} {f : α → Program Q R β} :
    ∀ {trace : List (Exchange Q R)} {b : β}, Runs (p >>= f) trace b ↔
      ∃ first a rest, trace = first ++ rest ∧ Runs p first a ∧ Runs (f a) rest b := by
  induction p with
  | done a =>
    intro trace b
    constructor
    · intro h
      exact ⟨[], a, trace, rfl, .done a, h⟩
    · rintro ⟨first, a', rest, rfl, h, hf⟩
      obtain ⟨rfl, rfl⟩ := runs_done.mp h
      exact hf
  | ask request next ih =>
    intro trace b
    rw [Program.ask_bind, runs_ask]
    constructor
    · rintro ⟨reply, rest, rfl, h⟩
      obtain ⟨first, a, tail, rfl, hp, hf⟩ := (ih reply).mp h
      exact ⟨⟨request, reply⟩ :: first, a, tail, rfl, .ask hp, hf⟩
    · rintro ⟨first, a, tail, rfl, hp, hf⟩
      obtain ⟨reply, rest, rfl, hrest⟩ := runs_ask.mp hp
      exact ⟨reply, rest ++ tail, rfl, (ih reply).mpr ⟨rest, a, tail, rfl, hrest, hf⟩⟩

/-- Every run satisfies a property of its exchanges and its result. -/
def Ensures (p : Program Q R α) (post : List (Exchange Q R) → α → Prop) : Prop :=
  ∀ trace a, Runs p trace a → post trace a

section Rules

variable {post : List (Exchange Q R) → α → Prop}

theorem ensures_done {a : α} : Ensures (.done a) post ↔ post [] a := by
  constructor
  · intro h
    exact h [] a (.done a)
  · rintro h trace b hrun
    obtain ⟨rfl, rfl⟩ := runs_done.mp hrun
    exact h

theorem ensures_ask {request : Q} {next : R request → Program Q R α} :
    Ensures (.ask request next) post ↔
      ∀ reply, Ensures (next reply) fun trace a => post (⟨request, reply⟩ :: trace) a := by
  constructor
  · intro h reply trace a hrun
    exact h _ a (.ask hrun)
  · intro h trace a hrun
    obtain ⟨reply, rest, rfl, hrest⟩ := runs_ask.mp hrun
    exact h reply rest a hrest

theorem ensures_bind {p : Program Q R β} {f : β → Program Q R α} :
    Ensures (p >>= f) post ↔
      Ensures p fun first b => Ensures (f b) fun rest a => post (first ++ rest) a := by
  constructor
  · intro h first b hp rest a hf
    exact h _ a (runs_bind.mpr ⟨first, b, rest, rfl, hp, hf⟩)
  · intro h trace a hrun
    obtain ⟨first, b, rest, rfl, hp, hf⟩ := runs_bind.mp hrun
    exact h first b hp rest a hf

theorem Ensures.mono {p : Program Q R α} {post' : List (Exchange Q R) → α → Prop}
    (h : Ensures p post) (himp : ∀ trace a, post trace a → post' trace a) : Ensures p post' :=
  fun trace a hrun => himp trace a (h trace a hrun)

end Rules

/-- The run against an environment that answers every request the same way. -/
def Program.run (answer : ∀ q, R q) : Program Q R α → List (Exchange Q R) × α
  | .done a => ([], a)
  | .ask request next =>
    let rest := (next (answer request)).run answer
    (⟨request, answer request⟩ :: rest.1, rest.2)

@[simp] theorem run_done (answer : ∀ q, R q) (a : α) :
    (Program.done a : Program Q R α).run answer = ([], a) := rfl

/-- The result after a request is that after its reply. -/
@[simp] theorem run_ask_result (answer : ∀ q, R q) (request : Q)
    (next : R request → Program Q R α) :
    ((Program.ask request next).run answer).2 = ((next (answer request)).run answer).2 := rfl

/-- Every exchange of the run has the environment's reply. -/
theorem eq_of_mem_run (answer : ∀ q, R q) {p : Program Q R α} {x : Exchange Q R} :
    x ∈ (p.run answer).1 → x = ⟨x.request, answer x.request⟩ := by
  induction p with
  | done a => exact fun h => absurd h List.not_mem_nil
  | ask request next ih =>
    intro h
    rcases List.mem_cons.mp h with rfl | hrest
    · rfl
    · exact ih (answer request) hrest

theorem runs_run (answer : ∀ q, R q) : ∀ p : Program Q R α,
    Runs p (p.run answer).1 (p.run answer).2 := by
  intro p
  induction p with
  | done a => exact .done a
  | ask request next ih => exact .ask (ih (answer request))

end Process
