import SupabaseUserMcp.Js.Number
import SupabaseUserMcp.Js.Text

/- JavaScript values as they reach a validator: plain data, byte arrays, and
   every other object as one opaque kind. An object is the list of its own
   enumerable properties. Code that may throw is `Except` over its error type;
   `throwIf` is `if (bad) throw error`. -/
namespace Js

/-- A value of unknown type. -/
inductive Value where
  | undefined
  | null
  | bool (b : Bool)
  | number (n : Number)
  | string (s : Text)
  | array (items : List Value)
  | object (properties : List (Text × Value))
  | bytes (bytes : Bytes)
  /-- A function, a class instance, or anything else that is not plain data. -/
  | foreign
  deriving Inhabited, Repr

/-- An own property of a list of properties. -/
def Value.property (properties : List (Text × Value)) (key : Text) : Option Value :=
  (properties.find? fun p => p.1 == key).map Prod.snd

/-- A value's field, where it is an object that has it. -/
def fieldOf (key : String) : Value → Option Value
  | .object properties => Value.property properties (text key)
  | _ => none

namespace Value

theorem property_cons_self {p : Text × Value} {rest : List (Text × Value)} {key : Text}
    (h : p.1 = key) : property (p :: rest) key = some p.2 := by
  rw [property, List.find?_cons_of_pos (by simpa using h)]
  rfl

theorem property_cons_of_ne {p : Text × Value} {rest : List (Text × Value)} {key : Text}
    (h : p.1 ≠ key) : property (p :: rest) key = property rest key := by
  rw [property, List.find?_cons_of_neg (by simpa using h)]
  rfl

theorem property_of_getElem? {properties : List (Text × Value)}
    (hnodup : (properties.map Prod.fst).Nodup) {i : ℕ} {key : Text} {v : Value}
    (h : properties[i]? = some (key, v)) : property properties key = some v := by
  induction properties generalizing i with
  | nil => simp at h
  | cons p rest ih =>
    rw [List.map_cons, List.nodup_cons] at hnodup
    cases i with
    | zero =>
      obtain rfl : p = (key, v) := by simpa using h
      simp [property]
    | succ i =>
      rw [List.getElem?_cons_succ] at h
      have hne : p.1 ≠ key := by
        rintro rfl
        exact hnodup.1 (List.mem_map.mpr ⟨_, List.mem_of_getElem? h, rfl⟩)
      have hrest := ih hnodup.2 h
      rw [property, List.find?_cons_of_neg (by simpa using hne)]
      exact hrest

theorem property_eq_none {properties : List (Text × Value)} {key : Text}
    (h : key ∉ properties.map Prod.fst) : property properties key = none := by
  rw [property, Option.map_eq_none_iff, List.find?_eq_none]
  intro p hp hkey
  exact h (List.mem_map.mpr ⟨p, hp, by simpa using hkey⟩)

end Value

/-! Throwing. -/

section Throwing

variable {ε α β : Type}

/-- `if (bad) throw error`. -/
def throwIf (bad : Bool) (error : ε) : Except ε Unit := if bad then .error error else .ok ()

/-- `definedAt(value)`: an index read that must be in bounds. -/
def definedAt (value : Option α) : Except String α :=
  value.elim (.error "Expected a defined value at a proven in-bounds array index.") .ok

@[simp] theorem definedAt_some (a : α) : definedAt (some a) = .ok a := rfl

@[simp] theorem throwIf_true (error : ε) : throwIf true error = .error error := rfl

@[simp] theorem throwIf_false (error : ε) : throwIf false error = .ok () := rfl

@[simp] theorem throwIf_eq_ok {bad : Bool} {error : ε} {u : Unit} :
    throwIf bad error = .ok u ↔ bad = false := by
  cases bad <;> simp [throwIf]

/-- A sequence of two computations succeeds when both do. -/
theorem bind_eq_ok {x : Except ε α} {f : α → Except ε β} {b : β} :
    (x >>= f) = .ok b ↔ ∃ a, x = .ok a ∧ f a = .ok b := by
  cases x with
  | error e => simp [bind, Except.bind]
  | ok a => simp [bind, Except.bind]

@[simp] theorem pure_eq_ok (a : α) : (pure a : Except ε α) = .ok a := rfl

@[simp] theorem ok_bind (a : α) (f : α → Except ε β) : ((Except.ok a : Except ε α) >>= f) = f a :=
  rfl

@[simp] theorem error_bind (e : ε) (f : α → Except ε β) :
    ((Except.error e : Except ε α) >>= f) = .error e := rfl

theorem eq_ok_of_toOption {x : Except ε α} {a : α} (h : x.toOption = some a) : x = .ok a := by
  cases x with
  | error _ => cases h
  | ok _ => exact congrArg Except.ok (Option.some.inj h)

/-- A conditional returns when both its branches do. -/
theorem exists_ok_ite {c : Prop} [Decidable c] {x y : Except ε α} (hx : ∃ a, x = .ok a)
    (hy : ∃ a, y = .ok a) : ∃ a, (if c then x else y) = .ok a := by
  split
  · exact hx
  · exact hy

end Throwing

end Js
