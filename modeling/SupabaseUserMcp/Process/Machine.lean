import Mathlib.Data.List.Basic

/- Systems that take one labelled step after another. A step function says where
   a label leads from a state, or that it is not possible there; an execution
   takes the labels of a list in order. What every step preserves every execution
   preserves, and where only steps of a kind preserve it, so does every execution
   of steps of that kind. -/
namespace Process

variable {S A : Type} (step : S → A → Option S)

/-- The state after the labels of a list, where each was possible. -/
def execute : S → List A → Option S
  | s, [] => some s
  | s, a :: rest => (step s a).bind fun t => execute t rest

/-- Every step of an execution is one a property holds of. -/
def Along (meets : S → A → Prop) : S → List A → Prop
  | _, [] => True
  | s, a :: rest => meets s a ∧ ∀ t, step s a = some t → Along meets t rest

def Reachable (initial s : S) : Prop := ∃ labels, execute step initial labels = some s

section Rules

variable {step}

@[simp] theorem execute_nil (s : S) : execute step s [] = some s := rfl

theorem execute_cons {s u : S} {a : A} {rest : List A} :
    execute step s (a :: rest) = some u ↔
      ∃ t, step s a = some t ∧ execute step t rest = some u := Option.bind_eq_some_iff

theorem execute_append {s u : S} {first rest : List A} :
    execute step s (first ++ rest) = some u ↔
      ∃ t, execute step s first = some t ∧ execute step t rest = some u := by
  induction first generalizing s with
  | nil => simp
  | cons a first ih =>
    rw [List.cons_append, execute_cons]
    constructor
    · rintro ⟨t, hstep, h⟩
      obtain ⟨v, hfirst, hrest⟩ := ih.mp h
      exact ⟨v, execute_cons.mpr ⟨t, hstep, hfirst⟩, hrest⟩
    · rintro ⟨v, hfirst, hrest⟩
      obtain ⟨t, hstep, hfirst⟩ := execute_cons.mp hfirst
      exact ⟨t, hstep, ih.mpr ⟨v, hfirst, hrest⟩⟩

/-- What every step preserves every execution preserves. -/
theorem invariant_execute {I : S → Prop} (hstep : ∀ {s a t}, I s → step s a = some t → I t)
    {s t : S} {labels : List A} (hs : I s) (h : execute step s labels = some t) : I t := by
  induction labels generalizing s with
  | nil =>
    cases h
    exact hs
  | cons a rest ih =>
    obtain ⟨u, hfirst, hrest⟩ := execute_cons.mp h
    exact ih (hstep hs hfirst) hrest

theorem invariant_reachable {I : S → Prop} (hstep : ∀ {s a t}, I s → step s a = some t → I t)
    {initial s : S} (hinitial : I initial) (h : Reachable step initial s) : I s := by
  obtain ⟨labels, h⟩ := h
  exact invariant_execute hstep hinitial h

/-- What steps of a kind preserve every execution of such steps preserves. -/
theorem invariant_along {meets : S → A → Prop} {I : S → Prop}
    (hstep : ∀ {s a t}, I s → meets s a → step s a = some t → I t) {s t : S} {labels : List A}
    (hs : I s) (hmeets : Along step meets s labels) (h : execute step s labels = some t) : I t := by
  induction labels generalizing s with
  | nil =>
    cases h
    exact hs
  | cons a rest ih =>
    obtain ⟨u, hfirst, hrest⟩ := execute_cons.mp h
    exact ih (hstep hs hmeets.1 hfirst) (hmeets.2 u hfirst) hrest

theorem Along.imp {meets meets' : S → A → Prop} (himp : ∀ {s a}, meets s a → meets' s a) {s : S}
    {labels : List A} (h : Along step meets s labels) : Along step meets' s labels := by
  induction labels generalizing s with
  | nil => trivial
  | cons a rest ih => exact ⟨himp h.1, fun t ht => ih (h.2 t ht)⟩

/-- An execution takes a step not of the kind, or all its steps are. -/
theorem along_or_exists {meets : S → A → Prop} {s t : S} {labels : List A}
    (h : execute step s labels = some t) : Along step meets s labels ∨
      ∃ first a rest u v, labels = first ++ a :: rest ∧ execute step s first = some u ∧
        ¬ meets u a ∧ step u a = some v ∧ execute step v rest = some t := by
  induction labels generalizing s with
  | nil => exact .inl trivial
  | cons a rest ih =>
    obtain ⟨u, hfirst, hrest⟩ := execute_cons.mp h
    by_cases hmeets : meets s a
    · rcases ih hrest with halong | ⟨first, b, tail, v, w, rfl, hv, hnot, hstep, htail⟩
      · refine .inl ⟨hmeets, fun t ht => ?_⟩
        cases hfirst.symm.trans ht
        exact halong
      · exact .inr ⟨a :: first, b, tail, v, w, rfl, execute_cons.mpr ⟨u, hfirst, hv⟩, hnot, hstep,
          htail⟩
    · exact .inr ⟨[], a, rest, s, u, rfl, rfl, hmeets, hfirst, hrest⟩

theorem Reachable.extend {initial s t : S} {labels : List A} (hs : Reachable step initial s)
    (h : execute step s labels = some t) : Reachable step initial t := by
  obtain ⟨first, hfirst⟩ := hs
  exact ⟨first ++ labels, execute_append.mpr ⟨s, hfirst, h⟩⟩

theorem Reachable.next {initial s t : S} {a : A} (hs : Reachable step initial s)
    (h : step s a = some t) : Reachable step initial t :=
  hs.extend (execute_cons.mpr ⟨t, h, execute_nil t⟩)

/-- At most so many of the labels that a strategy takes, and where they lead. -/
def play (step : S → A → Option S) (strategy : S → Option A) : ℕ → S → List A × S
  | 0, s => ([], s)
  | n + 1, s => ((strategy s).bind fun a => (step s a).map (a, ·)).elim ([], s) fun next =>
    (next.1 :: (play step strategy n next.2).1, (play step strategy n next.2).2)

theorem execute_play {strategy : S → Option A} {meets : S → A → Prop}
    (hmeets : ∀ {s a}, strategy s = some a → meets s a) (n : ℕ) (s : S) :
    execute step s (play step strategy n s).1 = some (play step strategy n s).2 ∧
      Along step meets s (play step strategy n s).1 := by
  induction n generalizing s with
  | zero => exact ⟨rfl, trivial⟩
  | succ n ih =>
    rw [play]
    cases hnext : (strategy s).bind fun a => (step s a).map (a, ·) with
    | none => exact ⟨rfl, trivial⟩
    | some next =>
      obtain ⟨a, ha, hstep⟩ := Option.bind_eq_some_iff.mp hnext
      obtain ⟨t, ht, rfl⟩ := Option.map_eq_some_iff.mp hstep
      obtain ⟨hexecute, halong⟩ := ih t
      refine ⟨execute_cons.mpr ⟨t, ht, hexecute⟩, hmeets ha, fun u hu => ?_⟩
      cases ht.symm.trans hu
      exact halong

/-- **Unwinding.** A view that the labels of its own move and the others leave is, after
an execution, what its own labels make of it. -/
theorem view_execute {V : Type} {view : S → V} {viewStep : V → A → V} {own : A → Bool}
    {I : S → Prop} {admissible : A → Prop}
    (hstep : ∀ {s a t}, I s → admissible a → step s a = some t →
      I t ∧ view t = if own a then viewStep (view s) a else view s)
    {s t : S} {labels : List A} (hs : I s) (hlabels : ∀ a ∈ labels, admissible a)
    (h : execute step s labels = some t) :
    view t = (labels.filter own).foldl viewStep (view s) := by
  induction labels generalizing s with
  | nil =>
    cases h
    rfl
  | cons a rest ih =>
    obtain ⟨u, hfirst, hrest⟩ := execute_cons.mp h
    obtain ⟨hu, hview⟩ := hstep hs (hlabels a List.mem_cons_self) hfirst
    rw [ih hu (fun b hb => hlabels b (List.mem_cons_of_mem a hb)) hrest, hview, List.filter_cons]
    split
    · rfl
    · rfl

end Rules

end Process
