import SupabaseUserMcp.Js.ObjectGraph
import SupabaseUserMcp.ReceiptJournal

/- `assertCanonicalJsonGraph` on the objects of a value of unknown type. The walk
   keeps the objects it has seen and turns back at the first it sees again, so it
   accepts the trees of JSON data without a `toJSON` in which no object is shared. -/
namespace ReceiptJournal

open Js Inspection

/-! A receipt that the inspector builds passes as it is. -/

theorem isCanonicalJsonGraph_natValue (n : ℕ) : isCanonicalJsonGraph (natValue n) = true := rfl

theorem areCanonicalItems_hits : ∀ hits : List ReceiptSearchHitDetail,
    areCanonicalItems (hits.map ReceiptSearchHitDetail.toValue) = true := by
  intro hits
  induction hits with
  | nil => rfl
  | cons hit rest ih =>
    simp +decide [areCanonicalItems, ReceiptSearchHitDetail.toValue, ih, isCanonicalJsonGraph,
      areCanonicalProperties, property, ByteRange.toValue, isCanonicalJsonGraph_natValue]

theorem isCanonicalJsonGraph_toValue (receipt : ArtifactInspectionReceipt) :
    isCanonicalJsonGraph (ArtifactInspectionReceipt.toValue receipt) = true := by
  have hdetail : isCanonicalJsonGraph
      (ReceiptOperationDetail.toValue receipt.operationDetail) = true := by
    cases receipt.operationDetail <;>
      simp +decide [ReceiptOperationDetail.toValue, operationProperty, isCanonicalJsonGraph,
        areCanonicalProperties, property, ByteRange.toValue, isCanonicalJsonGraph_natValue,
        areCanonicalItems_hits]
  have hresult : isCanonicalJsonGraph
      (ReceiptResultOrError.toValue receipt.resultOrErrorClass) = true := by
    cases receipt.resultOrErrorClass <;>
      simp +decide [ReceiptResultOrError.toValue, isCanonicalJsonGraph, areCanonicalProperties,
        property]
  simp +decide [ArtifactInspectionReceipt.toValue, isCanonicalJsonGraph, areCanonicalProperties,
    property, hdetail, hresult]

end ReceiptJournal

namespace ReceiptJournal.Graph

open Js
open Js.Heap (Reaches Unshared tree addresses)

variable {n : ℕ}

/-- The objects seen after the walk, `none` where it throws. No walk of `n` objects is
more than `n` deep. -/
def assertCanonicalJsonGraph (heap : Heap n) : ℕ → Slot n → List (Fin n) → Option (List (Fin n))
  | _, .null, seen => some seen
  | _, .bool _, seen => some seen
  | _, .string _, seen => some seen
  | _, .number (.finite _), seen => some seen
  | depth + 1, .ref a, seen =>
    if a ∈ seen then none
    else
      match heap a with
      | .array items =>
        items.foldlM (fun seen item => assertCanonicalJsonGraph heap depth item seen) (a :: seen)
      | .object properties _ => properties.foldlM (fun seen p =>
          if p.1 = text "toJSON" then none else assertCanonicalJsonGraph heap depth p.2 seen)
        (a :: seen)
  | _, _, _ => none

/-! What the walk adds to the objects seen. -/

/-- The objects are distinct, and none has been seen. -/
def Fresh (visited seen : List (Fin n)) : Prop := visited.Nodup ∧ visited.Disjoint seen

theorem fresh_cons {a : Fin n} {visited seen : List (Fin n)} :
    Fresh (a :: visited) seen ↔ a ∉ seen ∧ Fresh visited (a :: seen) := by
  rw [Fresh, Fresh, List.nodup_cons, List.disjoint_cons_left, List.disjoint_cons_right]
  tauto

theorem fresh_append {first second seen : List (Fin n)} :
    Fresh (first ++ second) seen ↔ Fresh first seen ∧ Fresh second (first.reverse ++ seen) := by
  rw [Fresh, Fresh, Fresh, List.nodup_append', List.disjoint_append_left,
    List.disjoint_append_right]
  have hreverse : second.Disjoint first.reverse ↔ first.Disjoint second := by
    rw [List.disjoint_comm]
    simp only [List.Disjoint, List.mem_reverse]
  rw [hreverse]
  tauto

/-- A walk over a list, from what it does at each element. -/
theorem foldlM_eq_some {α : Type} {step : List (Fin n) → α → Option (List (Fin n))}
    {accepted : α → Prop} {visited : α → List (Fin n)} {l : List α}
    (hstep : ∀ x ∈ l, ∀ seen seen', step seen x = some seen' ↔
      accepted x ∧ Fresh (visited x) seen ∧ seen' = (visited x).reverse ++ seen)
    {seen seen' : List (Fin n)} : l.foldlM step seen = some seen' ↔
      (∀ x ∈ l, accepted x) ∧ Fresh (l.flatMap visited) seen ∧
        seen' = (l.flatMap visited).reverse ++ seen := by
  induction l generalizing seen with
  | nil => simp [Fresh, eq_comm]
  | cons x l ih =>
    obtain ⟨hx, hl⟩ := List.forall_mem_cons.mp hstep
    rw [List.foldlM_cons, List.flatMap_cons, fresh_append, List.forall_mem_cons,
      List.reverse_append, List.append_assoc]
    constructor
    · intro h
      obtain ⟨between, hbetween, hrest⟩ := Option.bind_eq_some_iff.mp h
      obtain ⟨haccepted, hfresh, rfl⟩ := (hx seen between).mp hbetween
      obtain ⟨hall, hfreshRest, rfl⟩ := (ih hl).mp hrest
      exact ⟨⟨haccepted, hall⟩, ⟨hfresh, hfreshRest⟩, rfl⟩
    · rintro ⟨⟨haccepted, hall⟩, ⟨hfresh, hfreshRest⟩, rfl⟩
      refine Option.bind_eq_some_iff.mpr ⟨_, (hx seen _).mpr ⟨haccepted, hfresh, rfl⟩, ?_⟩
      exact (ih hl).mpr ⟨hall, hfreshRest, rfl⟩

theorem areCanonicalItems_iff {items : List Value} :
    areCanonicalItems items = true ↔ ∀ v ∈ items, isCanonicalJsonGraph v = true := by
  induction items with
  | nil => simp [areCanonicalItems]
  | cons v items ih => rw [areCanonicalItems, Bool.and_eq_true, ih, List.forall_mem_cons]

theorem areCanonicalProperties_iff {properties : List (Text × Value)} :
    areCanonicalProperties properties = true ↔
      ∀ p ∈ properties, p.1 ≠ text "toJSON" ∧ isCanonicalJsonGraph p.2 = true := by
  induction properties with
  | nil => simp [areCanonicalProperties]
  | cons p properties ih =>
    rw [areCanonicalProperties, Bool.and_eq_true, Bool.and_eq_true, ih, List.forall_mem_cons,
      bne_iff_ne]

/-- A walk accepts JSON data of objects it has not seen, and then it has seen them. -/
theorem assertCanonicalJsonGraph_eq_some (heap : Heap n) {depth : ℕ} {slot : Slot n}
    {seen seen' : List (Fin n)} : assertCanonicalJsonGraph heap depth slot seen = some seen' ↔
      isCanonicalJsonGraph (tree heap depth slot) = true ∧ Fresh (addresses heap depth slot) seen ∧
        seen' = (addresses heap depth slot).reverse ++ seen := by
  induction depth generalizing slot seen seen' with
  | zero =>
    cases slot with
    | number x => cases x <;> simp [assertCanonicalJsonGraph, tree, isCanonicalJsonGraph, addresses,
        Heap.visits, Fresh, eq_comm]
    | _ => simp [assertCanonicalJsonGraph, tree, isCanonicalJsonGraph, addresses, Heap.visits, Fresh,
        eq_comm]
  | succ depth ih =>
    cases slot with
    | number x => cases x <;> simp [assertCanonicalJsonGraph, tree, isCanonicalJsonGraph, addresses,
        Heap.visits, Fresh, eq_comm]
    | ref a =>
      rw [assertCanonicalJsonGraph, Heap.addresses_ref, fresh_cons, List.reverse_cons,
        List.append_assoc, tree]
      by_cases ha : a ∈ seen
      · simp [ha]
      · rw [if_neg ha]
        cases heap a with
        | array items =>
          simp only [Node.children, isCanonicalJsonGraph, areCanonicalItems_iff, List.forall_mem_map]
          have hwalk := @foldlM_eq_some n (Slot n)
            (fun seen item => assertCanonicalJsonGraph heap depth item seen)
            (fun item => isCanonicalJsonGraph (tree heap depth item) = true) (addresses heap depth)
            items (fun _ _ _ _ => ih) (a :: seen) seen'
          rw [hwalk]
          simp [ha]
        | object properties hnodup =>
          simp only [Node.children, isCanonicalJsonGraph, areCanonicalProperties_iff,
            List.forall_mem_map, List.flatMap_map]
          have hstep : ∀ p ∈ properties, ∀ seen seen', (if p.1 = text "toJSON" then none
              else assertCanonicalJsonGraph heap depth p.2 seen) = some seen' ↔
              (p.1 ≠ text "toJSON" ∧ isCanonicalJsonGraph (tree heap depth p.2) = true) ∧
                Fresh (addresses heap depth p.2) seen ∧
                  seen' = (addresses heap depth p.2).reverse ++ seen := by
            intro p _ seen seen'
            split
            · next hkey => simp [hkey]
            · next hkey => simp [hkey, ih]
          rw [foldlM_eq_some hstep]
          simp [ha]
    | _ => simp [assertCanonicalJsonGraph, tree, isCanonicalJsonGraph, addresses, Heap.visits, Fresh,
        eq_comm]

/-- JSON data hides nothing below the depth it is read to. -/
theorem length_lt_of_canonical {heap : Heap n} {slot : Slot n} {path : List ℕ} {a : Fin n}
    (hreaches : Reaches heap slot path a) : ∀ {depth : ℕ},
      isCanonicalJsonGraph (tree heap depth slot) = true → path.length < depth := by
  induction hreaches with
  | here a =>
    intro depth h
    cases depth with
    | zero => cases h
    | succ depth => exact Nat.succ_pos depth
  | @child a b i slot path hget _ ih =>
    intro depth h
    cases depth with
    | zero => cases h
    | succ depth =>
      refine Nat.succ_lt_succ (ih ?_)
      rw [tree] at h
      cases hnode : heap a with
      | array items =>
        rw [hnode] at h hget
        exact areCanonicalItems_iff.mp h _ (List.mem_map.mpr ⟨slot, List.mem_of_getElem? hget, rfl⟩)
      | object properties hnodup =>
        rw [hnode] at h hget
        obtain ⟨p, hp, rfl⟩ := List.mem_map.mp (List.mem_of_getElem? hget)
        exact (areCanonicalProperties_iff.mp h _ (List.mem_map.mpr ⟨p, hp, rfl⟩)).2

/-- The graph check accepts JSON data in which no object is shared. -/
theorem isSome_assertCanonicalJsonGraph (heap : Heap n) (depth : ℕ) (root : Slot n) :
    (assertCanonicalJsonGraph heap depth root []).isSome = true ↔
      isCanonicalJsonGraph (tree heap depth root) = true ∧ Unshared heap root := by
  rw [Option.isSome_iff_exists]
  constructor
  · rintro ⟨seen, h⟩
    obtain ⟨hcanonical, hfresh, _⟩ := (assertCanonicalJsonGraph_eq_some heap).mp h
    refine ⟨hcanonical, Heap.unshared_of_nodup_addresses heap hfresh.1 ?_⟩
    intro p a hreaches
    exact length_lt_of_canonical hreaches hcanonical
  · rintro ⟨hcanonical, hunshared⟩
    exact ⟨_, (assertCanonicalJsonGraph_eq_some heap).mpr
      ⟨hcanonical, ⟨hunshared.nodup_addresses heap depth, List.disjoint_nil_right _⟩, rfl⟩⟩

end ReceiptJournal.Graph
