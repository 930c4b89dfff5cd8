import Mathlib.Data.Fintype.Card
import SupabaseUserMcp.Js.Value

/- Plain data as objects that refer to each other, where one object may be reached
   twice or from itself. To a reader of its properties such a graph is the tree of
   its access paths. It is a tree already when no object has two of them. -/
namespace Js

instance Slot.lawfulBEq (n : ℕ) : LawfulBEq (Fin n) := inferInstance

/-- A value among `n` objects: a primitive, something that is not plain data, or one
of the objects. -/
inductive Slot (n : ℕ) where
  | undefined
  | null
  | bool (b : Bool)
  | number (x : Number)
  | string (s : Text)
  | foreign
  | ref (address : Fin n)

/-- A plain object or a dense array. -/
inductive Node (n : ℕ) where
  | array (items : List (Slot n))
  | object (properties : List (Text × Slot n)) (nodup : (properties.map Prod.fst).Nodup)

/-- What each of `n` objects holds. -/
abbrev Heap (n : ℕ) : Type := Fin n → Node n

variable {n : ℕ}

/-- What an object refers to. -/
def Node.children : Node n → List (Slot n)
  | .array items => items
  | .object properties _ => properties.map Prod.snd

namespace Heap

variable (heap : Heap n)

/-- `path` leads from the value to the object `b`. -/
inductive Reaches : Slot n → List ℕ → Fin n → Prop
  | here (a : Fin n) : Reaches (.ref a) [] a
  | child {a b : Fin n} {i : ℕ} {slot : Slot n} {path : List ℕ} :
      (heap a).children[i]? = some slot → Reaches slot path b → Reaches (.ref a) (i :: path) b

/-- No object is shared, by two properties or with one of its own. -/
def Unshared (root : Slot n) : Prop :=
  ∀ {p q : List ℕ} {a : Fin n}, Reaches heap root p a → Reaches heap root q a → p = q

/-- The tree a reader sees down to a depth; what lies deeper is opaque to it. -/
def tree (heap : Heap n) : ℕ → Slot n → Value
  | _, .undefined => .undefined
  | _, .null => .null
  | _, .bool b => .bool b
  | _, .number x => .number x
  | _, .string s => .string s
  | _, .foreign => .foreign
  | 0, .ref _ => .foreign
  | depth + 1, .ref a =>
    match heap a with
    | .array items => .array (items.map (tree heap depth))
    | .object properties _ => .object (properties.map fun p => (p.1, tree heap depth p.2))

/-- The objects on the access paths down to a depth, each with its path, in the order
in which a reader visits them. -/
def visits (heap : Heap n) : ℕ → Slot n → List (List ℕ × Fin n)
  | 0, _ => []
  | depth + 1, .ref a => ([], a) :: (heap a).children.zipIdx.flatMap fun child =>
      (visits heap depth child.1).map fun visit => (child.2 :: visit.1, visit.2)
  | _ + 1, _ => []

theorem mem_visits {depth : ℕ} {slot : Slot n} {path : List ℕ} {b : Fin n} :
    (path, b) ∈ visits heap depth slot ↔ Reaches heap slot path b ∧ path.length < depth := by
  induction depth generalizing slot path b with
  | zero => simp [visits]
  | succ depth ih =>
    cases slot with
    | ref a =>
      rw [visits, List.mem_cons, List.mem_flatMap]
      constructor
      · rintro (heq | ⟨⟨child, i⟩, hchild, hmem⟩)
        · cases heq
          exact ⟨.here _, Nat.succ_pos depth⟩
        · obtain ⟨⟨path, b⟩, hvisit, heq⟩ := List.mem_map.mp hmem
          cases heq
          obtain ⟨hreaches, hlength⟩ := ih.mp hvisit
          have hget := List.mem_zipIdx_iff_getElem?.mp hchild
          exact ⟨.child hget hreaches, Nat.succ_lt_succ hlength⟩
      · rintro ⟨hreaches, hlength⟩
        cases hreaches with
        | here => exact Or.inl rfl
        | @child _ _ i child path hget hreaches =>
          refine Or.inr ⟨(child, i), List.mem_zipIdx_iff_getElem?.mpr hget, ?_⟩
          exact List.mem_map.mpr ⟨(path, b), ih.mpr ⟨hreaches, Nat.lt_of_succ_lt_succ hlength⟩, rfl⟩
    | _ =>
      constructor
      · intro h
        cases h
      · rintro ⟨hreaches, _⟩
        cases hreaches

/-- A path is visited once. -/
theorem nodup_visits (depth : ℕ) (slot : Slot n) : (visits heap depth slot).Nodup := by
  induction depth generalizing slot with
  | zero => exact List.nodup_nil
  | succ depth ih =>
    cases slot with
    | ref a =>
      rw [visits, List.nodup_cons, List.nodup_flatMap]
      refine ⟨?_, ?_, ?_⟩
      · intro hmem
        obtain ⟨child, _, hvisit⟩ := List.mem_flatMap.mp hmem
        obtain ⟨visit, _, heq⟩ := List.mem_map.mp hvisit
        cases heq
      · intro child _
        refine (ih child.1).map ?_
        rintro ⟨p, a⟩ ⟨q, b⟩ heq
        cases heq
        rfl
      · -- paths through different children differ in their first step
        have hindices : (((heap a).children.zipIdx).map Prod.snd).Nodup := by
          rw [List.zipIdx_map_snd]
          exact List.nodup_range'
        refine (List.pairwise_map.mp hindices).imp ?_
        intro child other hne visit hchild hother
        obtain ⟨first, _, rfl⟩ := List.mem_map.mp hchild
        obtain ⟨second, _, heq⟩ := List.mem_map.mp hother
        exact hne (List.cons.inj (congrArg Prod.fst heq)).1.symm
    | _ => exact List.nodup_nil

/-- The objects visited, each as often as there are paths to it. -/
def addresses (depth : ℕ) (slot : Slot n) : List (Fin n) := (visits heap depth slot).map Prod.snd

theorem addresses_ref (depth : ℕ) (a : Fin n) : addresses heap (depth + 1) (.ref a) =
    a :: (heap a).children.flatMap (addresses heap depth) := by
  rw [addresses, visits, List.map_cons, List.map_flatMap]
  refine congrArg (a :: ·) ?_
  simp only [List.map_map, Function.comp_def]
  calc (heap a).children.zipIdx.flatMap (fun child => (visits heap depth child.1).map Prod.snd)
      = ((heap a).children.zipIdx.map Prod.fst).flatMap (addresses heap depth) :=
        (List.flatMap_map Prod.fst (addresses heap depth) _).symm
    _ = (heap a).children.flatMap (addresses heap depth) := by rw [List.zipIdx_map_fst]

/-- Without shared objects none is visited twice. -/
theorem Unshared.nodup_addresses {root : Slot n} (h : Unshared heap root) (depth : ℕ) :
    (addresses heap depth root).Nodup := by
  refine (nodup_visits heap depth root).map_on ?_
  rintro ⟨p, a⟩ hp ⟨q, b⟩ hq heq
  cases heq
  rw [h ((mem_visits heap).mp hp).1 ((mem_visits heap).mp hq).1]

/-- When none is visited twice and nothing lies deeper, no object is shared. -/
theorem unshared_of_nodup_addresses {root : Slot n} {depth : ℕ}
    (hnodup : (addresses heap depth root).Nodup)
    (hdepth : ∀ {p a}, Reaches heap root p a → p.length < depth) : Unshared heap root := by
  intro p q a hp hq
  have hsame := List.inj_on_of_nodup_map hnodup ((mem_visits heap).mpr ⟨hp, hdepth hp⟩)
    ((mem_visits heap).mpr ⟨hq, hdepth hq⟩) rfl
  exact congrArg Prod.fst hsame

/-! Depths. -/

theorem Reaches.take {root : Slot n} {path : List ℕ} {a : Fin n} (h : Reaches heap root path a)
    (k : ℕ) : ∃ b, Reaches heap root (path.take k) b := by
  induction h generalizing k with
  | here a =>
    rw [List.take_nil]
    exact ⟨a, .here a⟩
  | @child a b i slot path hget _ ih =>
    cases k with
    | zero => exact ⟨a, .here a⟩
    | succ k =>
      obtain ⟨b, hb⟩ := ih k
      exact ⟨b, .child hget hb⟩

/-- Along a path without shared objects no object comes twice. -/
theorem Unshared.length_lt {root : Slot n} (h : Unshared heap root) {path : List ℕ} {a : Fin n}
    (hpath : Reaches heap root path a) : path.length < n := by
  choose along halong using fun k => hpath.take heap k
  have hinjective : Function.Injective fun k : Fin (path.length + 1) => along k := by
    intro k l heq
    have hk := halong k
    rw [show along k = along l from heq] at hk
    have htake := congrArg List.length (h hk (halong l))
    rw [List.length_take, List.length_take] at htake
    omega
  have hcard := Fintype.card_le_of_injective _ hinjective
  rw [Fintype.card_fin, Fintype.card_fin] at hcard
  omega

/-- Where no path is deeper, no more depth is needed. -/
theorem tree_of_le {root : Slot n} {depth : ℕ}
    (hdepth : ∀ {p a}, Reaches heap root p a → p.length < depth) {deeper : ℕ}
    (hle : depth ≤ deeper) : tree heap deeper root = tree heap depth root := by
  induction depth generalizing root deeper with
  | zero =>
    cases root with
    | ref a => exact absurd (hdepth (.here a)) (Nat.not_lt_zero _)
    | _ => cases deeper <;> rfl
  | succ depth ih =>
    obtain ⟨deeper, rfl⟩ : ∃ k, deeper = k + 1 := ⟨deeper - 1, by omega⟩
    cases root with
    | ref a =>
      have hchild : ∀ slot ∈ (heap a).children, tree heap deeper slot = tree heap depth slot := by
        intro slot hslot
        obtain ⟨i, hi⟩ := List.mem_iff_getElem?.mp hslot
        refine ih ?_ (Nat.le_of_succ_le_succ hle)
        intro p b hreaches
        exact Nat.lt_of_succ_lt_succ (hdepth (.child hi hreaches))
      rw [tree, tree]
      cases hnode : heap a with
      | array items =>
        rw [hnode] at hchild
        exact congrArg Value.array (List.map_congr_left hchild)
      | object properties hnodup =>
        rw [hnode] at hchild
        refine congrArg Value.object (List.map_congr_left fun p hp => ?_)
        rw [hchild p.2 (List.mem_map.mpr ⟨p, hp, rfl⟩)]
    | _ => rfl

end Heap
end Js
