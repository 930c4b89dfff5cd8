import SupabaseUserMcp.Js.Json
import SupabaseUserMcp.Js.Records

/- Structural equality of JSON values: arrays item by item, objects key by key in
   whatever order. An object is equal to a record when it has the record's fields and
   no other property. -/
namespace Js

namespace Value

/-- The two values are the same JSON. -/
inductive SameJson : Value → Value → Prop
  | null : SameJson .null .null
  | bool (b : Bool) : SameJson (.bool b) (.bool b)
  | number (q : ℚ) : SameJson (.number (.finite q)) (.number (.finite q))
  | string (s : Text) : SameJson (.string s) (.string s)
  | array {xs ys : List Value} : (∀ i : ℕ, xs[i]?.isSome = ys[i]?.isSome) →
      (∀ (i : ℕ) v w, xs[i]? = some v → ys[i]? = some w → SameJson v w) →
      SameJson (.array xs) (.array ys)
  | object {ps qs : List (Text × Value)} :
      (∀ key, (property ps key).isSome = (property qs key).isSome) →
      (∀ key v w, property ps key = some v → property qs key = some w → SameJson v w) →
      SameJson (.object ps) (.object qs)

namespace SameJson

theorem symm {v w : Value} (h : SameJson v w) : SameJson w v := by
  induction h with
  | null => exact .null
  | bool b => exact .bool b
  | number q => exact .number q
  | string s => exact .string s
  | array hdomain _ ih => exact .array (fun i => (hdomain i).symm) fun i v w hv hw => ih i w v hw hv
  | object hdomain _ ih =>
    exact .object (fun key => (hdomain key).symm) fun key v w hv hw => ih key w v hw hv

theorem trans {u v w : Value} (h : SameJson u v) (h' : SameJson v w) : SameJson u w := by
  induction h generalizing w with
  | null => exact h'
  | bool _ => exact h'
  | number _ => exact h'
  | string _ => exact h'
  | array hdomain _ ih =>
    cases h' with
    | array hdomain' hitems' =>
      refine .array (fun i => (hdomain i).trans (hdomain' i)) fun i v w hv hw => ?_
      obtain ⟨u, hu⟩ := Option.isSome_iff_exists.mp ((hdomain i).symm.trans (by rw [hv]; rfl))
      exact ih i v u hv hu (hitems' i u w hu hw)
  | object hdomain _ ih =>
    cases h' with
    | object hdomain' hproperties' =>
      refine .object (fun key => (hdomain key).trans (hdomain' key)) fun key v w hv hw => ?_
      obtain ⟨u, hu⟩ := Option.isSome_iff_exists.mp ((hdomain key).symm.trans (by rw [hv]; rfl))
      exact ih key v u hv hu (hproperties' key u w hu hw)

end SameJson

theorem sameJson_string_iff {v : Value} {s : Text} : SameJson v (.string s) ↔ v = .string s := by
  constructor
  · intro h
    cases h
    rfl
  · rintro rfl
    exact .string s

theorem sameJson_natCast_iff {v : Value} {n : ℕ} :
    SameJson v (.number (n : ℕ)) ↔ v = .number (n : ℕ) := by
  constructor
  · intro h
    generalize hw : Value.number (n : ℕ) = w at h
    cases h with
    | number q => rfl
    | _ => cases hw
  · rintro rfl
    exact .number n

/-- The property of a key, `undefined` where there is none. -/
def field (ps : List (Text × Value)) (key : Text) : Value := (property ps key).getD .undefined

theorem property_eq_of_field {ps : List (Text × Value)} {key : Text} {w : Value}
    (h : SameJson (field ps key) w) : ∃ v, property ps key = some v ∧ SameJson v w := by
  cases hproperty : property ps key with
  | some v =>
    rw [field, hproperty] at h
    exact ⟨v, rfl, h⟩
  | none =>
    rw [field, hproperty] at h
    cases h

theorem isSome_property_iff {ps : List (Text × Value)} {key : Text} :
    (property ps key).isSome ↔ key ∈ ps.map Prod.fst := by
  rw [property, Option.isSome_map, List.find?_isSome, List.mem_map]
  constructor
  · rintro ⟨p, hp, hkey⟩
    exact ⟨p, hp, by simpa using hkey⟩
  · rintro ⟨p, hp, rfl⟩
    exact ⟨p, hp, by simp⟩

/-- What is the same as a record. -/
theorem sameJson_record_iff {v : Value} {fields : List (Text × Value)}
    (hnodup : (fields.map Prod.fst).Nodup) :
    SameJson v (.object fields) ↔ ∃ ps, v = .object ps ∧
      (∀ p ∈ ps, p.1 ∈ fields.map Prod.fst) ∧ ∀ f ∈ fields, SameJson (field ps f.1) f.2 := by
  have hfield : ∀ {f}, f ∈ fields → property fields f.1 = some f.2 := by
    intro f hf
    obtain ⟨i, hi⟩ := List.mem_iff_getElem?.mp hf
    exact property_of_getElem? hnodup hi
  constructor
  · intro h
    cases h with
    | @object ps _ hdomain hsame =>
      refine ⟨ps, rfl, ?_, ?_⟩
      · intro p hp
        apply isSome_property_iff.mp
        rw [← hdomain]
        exact isSome_property_iff.mpr (List.mem_map.mpr ⟨p, hp, rfl⟩)
      · intro f hf
        obtain ⟨v, hv⟩ := Option.isSome_iff_exists.mp
          ((hdomain f.1).trans (by rw [hfield hf]; rfl))
        rw [field, hv]
        exact hsame f.1 v f.2 hv (hfield hf)
  · rintro ⟨ps, rfl, hkeys, hsame⟩
    refine .object ?_ ?_
    · intro key
      rw [Bool.eq_iff_iff, isSome_property_iff, isSome_property_iff]
      constructor
      · intro hkey
        obtain ⟨p, hp, rfl⟩ := List.mem_map.mp hkey
        exact hkeys p hp
      · intro hkey
        obtain ⟨f, hf, rfl⟩ := List.mem_map.mp hkey
        obtain ⟨v, hv, _⟩ := property_eq_of_field (hsame f hf)
        exact isSome_property_iff.mp (by rw [hv]; rfl)
    · intro key v w hv hw
      obtain ⟨f, hf, hfw⟩ := Option.map_eq_some_iff.mp hw
      have hkey := List.find?_some hf
      rw [beq_iff_eq] at hkey
      subst hkey hfw
      obtain ⟨v', hv', hsame'⟩ := property_eq_of_field (hsame f (List.mem_of_find?_eq_some hf))
      rw [hv] at hv'
      cases hv'
      exact hsame'

theorem sameJson_array_iff {v : Value} {ws : List Value} :
    SameJson v (.array ws) ↔ ∃ items, v = .array items ∧ List.Forall₂ SameJson items ws := by
  constructor
  · intro h
    cases h with
    | @array items _ hdomain hsame =>
      refine ⟨items, rfl, List.forall₂_iff_get.mpr ⟨?_, ?_⟩⟩
      · apply Nat.le_antisymm
        · by_contra hlt
          have hlast := hdomain ws.length
          rw [List.getElem?_eq_getElem (Nat.not_le.mp hlt), List.getElem?_eq_none le_rfl] at hlast
          cases hlast
        · by_contra hlt
          have hlast := hdomain items.length
          rw [List.getElem?_eq_getElem (Nat.not_le.mp hlt), List.getElem?_eq_none le_rfl] at hlast
          cases hlast
      · intro i hi hi'
        exact hsame i _ _ (List.getElem?_eq_getElem hi) (List.getElem?_eq_getElem hi')
  · rintro ⟨items, rfl, h⟩
    have hlength := h.length_eq
    refine .array ?_ ?_
    · intro i
      by_cases hi : i < ws.length
      · rw [List.getElem?_eq_getElem hi, List.getElem?_eq_getElem (hlength ▸ hi)]
        rfl
      · rw [List.getElem?_eq_none (Nat.not_lt.mp hi),
          List.getElem?_eq_none (hlength ▸ Nat.not_lt.mp hi)]
    · intro i v w hv hw
      obtain ⟨hi, rfl⟩ := List.getElem?_eq_some_iff.mp hv
      obtain ⟨hi', rfl⟩ := List.getElem?_eq_some_iff.mp hw
      exact (List.forall₂_iff_get.mp h).2 i hi hi'

end Value

end Js
