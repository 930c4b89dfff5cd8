import SupabaseUserMcp.Js.JsonParse
import SupabaseUserMcp.ReceiptJournal.Canonical
import SupabaseUserMcp.ReceiptJournal.Graph

/- The digest of a call's arguments that goes into its operational event. The arguments
   are walked as the objects that they are, each object met a second time is cut off, and
   what is hashed is the JSON of what the walk rebuilds. A tree is rebuilt as a tree. -/
namespace Governor.Digest

open Js
open Js.Heap (Unshared tree addresses)
open ReceiptJournal (textLe mergeSort_map)
open ReceiptJournal.Graph (Fresh fresh_cons fresh_append)

variable {n : ℕ}

/-- `String(value)` of a number that is not finite. -/
def numberName : Number → Text
  | .nan => text "NaN"
  | .negInfinity => text "-Infinity"
  | .finite _ => []
  | .infinity => text "Infinity"

def protoKey : Text := text "__proto__"

/-- `normalized[key] = v` on a plain object: under `__proto__` the accessor of
`Object.prototype` is called, and no own property comes of it. -/
def assign (normalized : List (Text × Value)) (key : Text) (v : Value) : List (Text × Value) :=
  if key = protoKey then normalized else setProperty normalized key v

/-- The next item, and the objects seen after it. -/
def pushEntry (normalize : Slot n → List (Fin n) → Value × List (Fin n))
    (walked : List Value × List (Fin n)) (item : Slot n) : List Value × List (Fin n) :=
  let entry := normalize item walked.2
  (walked.1 ++ [entry.1], entry.2)

/-- The next property, and the objects seen after it. -/
def assignEntry (normalize : Slot n → List (Fin n) → Value × List (Fin n))
    (walked : List (Text × Value) × List (Fin n)) (p : Text × Slot n) :
    List (Text × Value) × List (Fin n) :=
  let entry := normalize p.2 walked.2
  (assign walked.1 p.1 entry.1, entry.2)

/-- The value and the objects seen after it. No walk of `n` objects is more than `n` deep.
A value that is no plain data is in no JSON and stays as it is. -/
def normalizeValueForDigest (heap : Heap n) :
    ℕ → Slot n → List (Fin n) → Value × List (Fin n)
  | _, .null, seen => (.null, seen)
  | _, .string s, seen => (.string s, seen)
  | _, .bool b, seen => (.bool b, seen)
  | _, .number (.finite q), seen => (.number (.finite q), seen)
  | _, .number x, seen => (.string (numberName x), seen)
  | _, .undefined, seen => (.string (text "[undefined]"), seen)
  | _, .foreign, seen => (.foreign, seen)
  | 0, .ref _, seen => (.foreign, seen)
  | depth + 1, .ref a, seen =>
    if a ∈ seen then (.string (text "[circular]"), seen)
    else
      match heap a with
      | .array items =>
        let walked := items.foldl (pushEntry (normalizeValueForDigest heap depth)) ([], a :: seen)
        (.array walked.1, walked.2)
      | .object properties _ =>
        let walked := (properties.mergeSort fun p q => textLe p.1 q.1).foldl
          (assignEntry (normalizeValueForDigest heap depth)) ([], a :: seen)
        (.object walked.1, walked.2)

/-- The string that is hashed. -/
def stableValue (platform : Platform) (heap : Heap n) (root : Slot n) : Text :=
  stringify platform.fractionText (normalizeValueForDigest heap (n + 1) root []).1

def hashedArgumentDigest (platform : Platform) (heap : Heap n) (root : Slot n) : Text :=
  (platform.sha256Hex (encodeUtf8 (stableValue platform heap root))).take 24

/-! On trees. -/

mutual

/-- What the walk makes of a tree. -/
def normalized : Value → Value
  | .number (.finite q) => .number (.finite q)
  | .number x => .string (numberName x)
  | .undefined => .string (text "[undefined]")
  | .array items => .array (normalizedItems items)
  | .object properties =>
    .object (((normalizedProperties properties).mergeSort fun p q => textLe p.1 q.1).foldl
      (fun normalized p => assign normalized p.1 p.2) [])
  | v => v

def normalizedItems : List Value → List Value
  | [] => []
  | v :: rest => normalized v :: normalizedItems rest

def normalizedProperties : List (Text × Value) → List (Text × Value)
  | [] => []
  | (key, v) :: rest => (key, normalized v) :: normalizedProperties rest

end

theorem normalizedItems_eq (items : List Value) : normalizedItems items = items.map normalized := by
  induction items with
  | nil => rfl
  | cons v rest ih => rw [normalizedItems, ih, List.map_cons]

theorem normalizedProperties_eq (properties : List (Text × Value)) :
    normalizedProperties properties = properties.map fun p => (p.1, normalized p.2) := by
  induction properties with
  | nil => rfl
  | cons p rest ih => rw [normalizedProperties, ih, List.map_cons]

/-- What a walk gives that meets only objects it has not seen. -/
def Walks {β : Type} (walked : β × List (Fin n)) (b : β) (visited seen : List (Fin n)) : Prop :=
  walked.1 = b ∧ ∀ c, c ∈ walked.2 ↔ c ∈ visited ∨ c ∈ seen

theorem fresh_congr {visited seen seen' : List (Fin n)} (h : ∀ c, c ∈ seen' ↔ c ∈ seen)
    (hfresh : Fresh visited seen) : Fresh visited seen' :=
  ⟨hfresh.1, fun _ hc hc' => hfresh.2 hc ((h _).mp hc')⟩

theorem fresh_perm {visited visited' seen : List (Fin n)} (h : visited.Perm visited')
    (hfresh : Fresh visited seen) : Fresh visited' seen :=
  ⟨h.nodup_iff.mp hfresh.1, fun _ hc hc' => hfresh.2 (h.mem_iff.mpr hc) hc'⟩

theorem walked_cons {a : Fin n} {walked visited seen : List (Fin n)}
    (h : ∀ c, c ∈ walked ↔ c ∈ visited ∨ c ∈ a :: seen) (c : Fin n) :
    c ∈ walked ↔ c ∈ a :: visited ∨ c ∈ seen := by
  rw [h, List.mem_cons, List.mem_cons]
  tauto

/-- A walk over a list, from what it does at each element. -/
theorem walks_foldl {α β : Type} {step : β × List (Fin n) → α → β × List (Fin n)} {f : β → α → β}
    {visited : α → List (Fin n)} {l : List α}
    (hstep : ∀ x ∈ l, ∀ b seen, Fresh (visited x) seen →
      Walks (step (b, seen) x) (f b x) (visited x) seen) : ∀ {b : β} {seen : List (Fin n)},
      Fresh (l.flatMap visited) seen →
        Walks (l.foldl step (b, seen)) (l.foldl f b) (l.flatMap visited) seen := by
  induction l with
  | nil => exact fun _ => ⟨rfl, fun c => by simp⟩
  | cons x l ih =>
    intro b seen hfresh
    obtain ⟨hx, hl⟩ := List.forall_mem_cons.mp hstep
    rw [List.flatMap_cons, fresh_append] at hfresh
    obtain ⟨hvalue, hseen⟩ := hx b seen hfresh.1
    have hrest : Fresh (l.flatMap visited) (step (b, seen) x).2 := by
      refine fresh_congr (fun c => ?_) hfresh.2
      rw [hseen, List.mem_append, List.mem_reverse]
    obtain ⟨hvalues, hseenAll⟩ := ih hl (b := (step (b, seen) x).1) hrest
    rw [List.foldl_cons, List.foldl_cons, List.flatMap_cons, ← hvalue]
    refine ⟨hvalues, fun c => ?_⟩
    rw [hseenAll, hseen, List.mem_append]
    tauto

theorem foldl_append_map {α β : Type} (f : α → β) (l : List α) (bs : List β) :
    l.foldl (fun bs x => bs ++ [f x]) bs = bs ++ l.map f := by
  induction l generalizing bs with
  | nil => exact (List.append_nil bs).symm
  | cons x l ih => rw [List.foldl_cons, ih, List.map_cons, List.append_assoc, List.singleton_append]

/-- Where no object is met twice the walk sees the tree. -/
theorem normalizeValueForDigest_eq (heap : Heap n) {depth : ℕ} {slot : Slot n}
    {seen : List (Fin n)} (hfresh : Fresh (addresses heap depth slot) seen) :
    Walks (normalizeValueForDigest heap depth slot seen) (normalized (tree heap depth slot))
      (addresses heap depth slot) seen := by
  induction depth generalizing slot seen with
  | zero =>
    cases slot with
    | number x => cases x <;> exact ⟨rfl, fun c => by simp [normalizeValueForDigest, addresses,
        Heap.visits]⟩
    | _ => exact ⟨rfl, fun c => by simp [normalizeValueForDigest, addresses, Heap.visits]⟩
  | succ depth ih =>
    cases slot with
    | number x => cases x <;> exact ⟨rfl, fun c => by simp [normalizeValueForDigest, addresses,
        Heap.visits]⟩
    | ref a =>
      rw [Heap.addresses_ref, fresh_cons] at hfresh
      rw [Heap.addresses_ref, tree, normalizeValueForDigest, if_neg hfresh.1]
      cases hnode : heap a with
      | array items =>
        rw [hnode] at hfresh
        have hstep : ∀ item ∈ items, ∀ bs seen, Fresh (addresses heap depth item) seen →
            Walks (pushEntry (normalizeValueForDigest heap depth) (bs, seen) item)
              (bs ++ [normalized (tree heap depth item)]) (addresses heap depth item) seen :=
          fun item _ bs seen hitem => ⟨congrArg (bs ++ [·]) (ih hitem).1, (ih hitem).2⟩
        obtain ⟨hitems, hseen⟩ := walks_foldl hstep hfresh.2 (b := [])
        rw [foldl_append_map, List.nil_append] at hitems
        refine ⟨?_, walked_cons hseen⟩
        rw [normalized, normalizedItems_eq, List.map_map]
        exact congrArg Value.array hitems
      | object properties hnodup =>
        rw [hnode, Node.children, List.flatMap_map] at hfresh
        have hperm := List.mergeSort_perm properties fun p q => textLe p.1 q.1
        have hsorted := hperm.symm.flatMap_right fun p => addresses heap depth p.2
        have hstep : ∀ p ∈ properties.mergeSort (fun p q => textLe p.1 q.1), ∀ bs seen,
            Fresh (addresses heap depth p.2) seen →
            Walks (assignEntry (normalizeValueForDigest heap depth) (bs, seen) p)
              (assign bs p.1 (normalized (tree heap depth p.2))) (addresses heap depth p.2) seen :=
          fun p _ bs seen hp => ⟨congrArg (assign bs p.1) (ih hp).1, (ih hp).2⟩
        obtain ⟨hproperties, hseen⟩ := walks_foldl hstep (fresh_perm hsorted hfresh.2) (b := [])
        refine ⟨?_, ?_⟩
        · have hmap := mergeSort_map properties fun p => (normalized (tree heap depth p.2))
          rw [normalized, normalizedProperties_eq, List.map_map]
          refine congrArg Value.object (hproperties.trans ?_)
          rw [Function.comp_def, hmap, List.foldl_map]
        · rw [Node.children, List.flatMap_map]
          exact walked_cons fun c => (hseen c).trans (or_congr_left hsorted.symm.mem_iff)
    | _ => exact ⟨rfl, fun c => by simp [normalizeValueForDigest, addresses, Heap.visits]⟩

end Governor.Digest
