import Mathlib.Data.List.Forall2
import Mathlib.Data.List.Nodup
import Mathlib.Data.List.Perm.Subperm
import SupabaseUserMcp.Js.Value

/- Records read by name. An object with as many properties as a record has fields, and
   with each field among them, has those fields in some order. -/
namespace Js

variable {α β ε : Type}

/-- A map that may throw succeeds when it does at every item. -/
theorem mapM_eq_ok {f : α → Except ε β} : ∀ {xs : List α} {ys : List β},
    xs.mapM f = .ok ys ↔ List.Forall₂ (fun x y => f x = .ok y) xs ys := by
  intro xs
  induction xs with
  | nil =>
    intro ys
    rw [List.mapM_nil, List.forall₂_nil_left_iff]
    exact ⟨fun h => (Except.ok.inj h).symm, fun h => h ▸ rfl⟩
  | cons x xs ih =>
    intro ys
    rw [List.mapM_cons, bind_eq_ok, List.forall₂_cons_left_iff]
    constructor
    · intro h
      obtain ⟨y, hy, h⟩ := h
      obtain ⟨rest, hrest, h⟩ := bind_eq_ok.mp h
      cases h
      exact ⟨y, rest, hy, ih.mp hrest, rfl⟩
    · intro h
      obtain ⟨y, rest, hy, hrest, rfl⟩ := h
      refine ⟨y, hy, bind_eq_ok.mpr ⟨rest, ih.mpr hrest, rfl⟩⟩

theorem forall₂_and_right {R : α → β → Prop} {p : β → Prop} {xs : List α} {ys : List β} :
    List.Forall₂ (fun x y => R x y ∧ p y) xs ys ↔ List.Forall₂ R xs ys ∧ ∀ y ∈ ys, p y := by
  constructor
  · intro h
    induction h with
    | nil => exact ⟨.nil, by simp⟩
    | cons hxy _ ih => exact ⟨.cons hxy.1 ih.1, List.forall_mem_cons.mpr ⟨hxy.2, ih.2⟩⟩
  · intro h
    obtain ⟨hrelated, hall⟩ := h
    induction hrelated with
    | nil => exact .nil
    | cons hxy _ ih =>
      obtain ⟨hy, hrest⟩ := List.forall_mem_cons.mp hall
      exact .cons ⟨hxy, hy⟩ (ih hrest)

theorem exists_of_forall₂_right {R : α → β → Prop} {xs : List α} {ys : List β}
    (h : List.Forall₂ R xs ys) {y : β} (hy : y ∈ ys) : ∃ x ∈ xs, R x y := by
  induction h with
  | nil => cases hy
  | cons hxy _ ih =>
    rcases List.mem_cons.mp hy with rfl | hrest
    · exact ⟨_, List.mem_cons_self, hxy⟩
    · obtain ⟨x, hx, hrelated⟩ := ih hrest
      exact ⟨x, List.mem_cons_of_mem _ hx, hrelated⟩

namespace Value

/-- A plain object with these fields and no other property. -/
def Records (fields : List (Text × Value)) (v : Value) : Prop :=
  ∃ properties, v = .object properties ∧ properties.Perm fields

variable {fields properties : List (Text × Value)}

theorem mem_of_property {key : Text} {v : Value} (h : property properties key = some v) :
    (key, v) ∈ properties := by
  obtain ⟨p, hp, rfl⟩ := Option.map_eq_some_iff.mp h
  have hkey := List.find?_some hp
  rw [beq_iff_eq] at hkey
  rw [← hkey]
  exact List.mem_of_find?_eq_some hp

theorem property_of_mem (hnodup : (properties.map Prod.fst).Nodup) {key : Text} {v : Value}
    (h : (key, v) ∈ properties) : property properties key = some v := by
  obtain ⟨i, hi⟩ := List.mem_iff_getElem?.mp h
  exact property_of_getElem? hnodup hi

theorem perm_of_property (hnodup : (fields.map Prod.fst).Nodup)
    (hlength : properties.length = fields.length)
    (h : ∀ p ∈ fields, property properties p.1 = some p.2) : properties.Perm fields := by
  have hsub : List.Subperm fields properties := by
    refine List.Nodup.subperm (List.Nodup.of_map _ hnodup) ?_
    intro p hp
    exact mem_of_property (h p hp)
  exact (hsub.perm_of_length_le hlength.le).symm

theorem property_of_perm (hnodup : (fields.map Prod.fst).Nodup) (h : properties.Perm fields)
    {key : Text} {v : Value} (hmem : (key, v) ∈ fields) : property properties key = some v := by
  refine property_of_mem ?_ (h.mem_iff.mpr hmem)
  exact (h.map Prod.fst).nodup_iff.mpr hnodup

end Value

end Js
