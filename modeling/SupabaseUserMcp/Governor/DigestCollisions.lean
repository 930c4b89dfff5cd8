import SupabaseUserMcp.Governor.ArgumentDigest

/- Which arguments the digest can tell apart. Two values are hashed as one string when
   they are the same up to the order of keys once the properties named `__proto__` are
   left out and a number that is not finite is its name, and only then: what is hashed can
   be parsed, and the value it is parsed to is the erased one in another order of keys. -/
namespace Governor.Digest

open Js
open Js.Heap (Unshared tree addresses)
open ReceiptJournal (textLe mergeSort_map sortKeys sortItems_eq sortProperties_eq)

/-! Texts in order. -/

theorem textLe_total (s t : Text) : (textLe s t || textLe t s) = true := by
  fun_induction textLe s t with
  | case1 => rfl
  | case2 => rfl
  | case3 a as b bs ih =>
    simp only [textLe, Bool.or_eq_true, Bool.and_eq_true, decide_eq_true_eq, beq_iff_eq] at ih ⊢
    rcases Nat.lt_trichotomy a.toNat b.toNat with hlt | heq | hgt
    · exact .inl (.inl (UInt16.lt_iff_toNat_lt.mpr hlt))
    · obtain rfl := UInt16.toNat_inj.mp heq
      exact ih.imp (fun ih => .inr ⟨rfl, ih⟩) fun ih => .inr ⟨rfl, ih⟩
    · exact .inr (.inl (UInt16.lt_iff_toNat_lt.mpr hgt))

theorem textLe_antisymm : ∀ {s t : Text}, textLe s t = true → textLe t s = true → s = t
  | [], [], _, _ => rfl
  | [], _ :: _, _, h => by cases h
  | _ :: _, [], h, _ => by cases h
  | a :: as, b :: bs, h, h' => by
    simp only [textLe, Bool.or_eq_true, Bool.and_eq_true, decide_eq_true_eq, beq_iff_eq] at h h'
    rcases h with h | ⟨rfl, h⟩
    · rcases h' with h' | ⟨rfl, -⟩
      · exact absurd (UInt16.lt_trans h h') (UInt16.lt_irrefl a)
      · exact absurd h (UInt16.lt_irrefl _)
    · rcases h' with h' | ⟨-, h'⟩
      · exact absurd h' (UInt16.lt_irrefl a)
      · rw [textLe_antisymm h h']

theorem textLe_trans : ∀ {s t u : Text}, textLe s t = true → textLe t u = true → textLe s u = true
  | [], _, _, _, _ => rfl
  | _ :: _, [], _, h, _ => by cases h
  | _ :: _, _ :: _, [], _, h => by cases h
  | a :: as, b :: bs, c :: cs, h, h' => by
    simp only [textLe, Bool.or_eq_true, Bool.and_eq_true, decide_eq_true_eq, beq_iff_eq] at h h' ⊢
    rcases h with h | ⟨rfl, h⟩
    · rcases h' with h' | ⟨rfl, -⟩
      · exact .inl (UInt16.lt_trans h h')
      · exact .inl h
    · rcases h' with h' | ⟨rfl, h'⟩
      · exact .inl h'
      · exact .inr ⟨rfl, textLe_trans h h'⟩

/-! Properties in order. -/

section Sorting

variable {α : Type} {properties properties' : List (Text × α)}

/-- `Object.keys(value).sort()`, each key with its property. -/
def sorted (properties : List (Text × α)) : List (Text × α) :=
  properties.mergeSort fun p q => textLe p.1 q.1

theorem sorted_perm (properties : List (Text × α)) : (sorted properties).Perm properties :=
  List.mergeSort_perm _ _

theorem pairwise_sorted (properties : List (Text × α)) :
    (sorted properties).Pairwise fun p q => textLe p.1 q.1 = true :=
  @List.pairwise_mergeSort _ (fun p q : Text × α => textLe p.1 q.1)
    (fun _ _ _ => textLe_trans) (fun p q => textLe_total p.1 q.1) properties

/-- Distinct keys have one order. -/
theorem eq_of_sorted (hnodup : (properties.map Prod.fst).Nodup)
    (hperm : properties.Perm properties')
    (h : properties.Pairwise fun p q => textLe p.1 q.1 = true)
    (h' : properties'.Pairwise fun p q => textLe p.1 q.1 = true) : properties = properties' := by
  refine hperm.eq_of_pairwise (fun p q hp hq hle hge => ?_) h h'
  exact List.inj_on_of_nodup_map hnodup hp (hperm.mem_iff.mpr hq) (textLe_antisymm hle hge)

theorem sorted_eq_of_perm (hnodup : (properties.map Prod.fst).Nodup)
    (hperm : properties.Perm properties') : sorted properties = sorted properties' := by
  refine eq_of_sorted ?_ ?_ (pairwise_sorted _) (pairwise_sorted _)
  · exact ((sorted_perm properties).map Prod.fst).nodup_iff.mpr hnodup
  · exact (sorted_perm properties).trans (hperm.trans (sorted_perm properties').symm)

theorem filter_sorted (hnodup : (properties.map Prod.fst).Nodup) (keep : Text × α → Bool) :
    (sorted properties).filter keep = sorted (properties.filter keep) := by
  refine eq_of_sorted ?_ ?_ ((pairwise_sorted _).filter _) (pairwise_sorted _)
  · have hsorted := ((sorted_perm properties).map Prod.fst).nodup_iff.mpr hnodup
    exact hsorted.sublist (List.filter_sublist.map Prod.fst)
  · exact ((sorted_perm properties).filter keep).trans (sorted_perm _).symm

end Sorting

/-! What the digest does not see. -/

def notProto {α : Type} (p : Text × α) : Bool := p.1 != protoKey

mutual

/-- The value without properties named `__proto__` and with names for numbers that are
not finite. -/
def erased : Value → Value
  | .number (.finite q) => .number (.finite q)
  | .number x => .string (numberName x)
  | .array items => .array (erasedItems items)
  | .object properties => .object ((erasedProperties properties).filter notProto)
  | v => v

def erasedItems : List Value → List Value
  | [] => []
  | v :: rest => erased v :: erasedItems rest

def erasedProperties : List (Text × Value) → List (Text × Value)
  | [] => []
  | (key, v) :: rest => (key, erased v) :: erasedProperties rest

end

theorem erasedItems_eq (items : List Value) : erasedItems items = items.map erased := by
  induction items with
  | nil => rfl
  | cons v rest ih => rw [erasedItems, ih, List.map_cons]

theorem erasedProperties_eq (properties : List (Text × Value)) :
    erasedProperties properties = properties.map fun p => (p.1, erased p.2) := by
  induction properties with
  | nil => rfl
  | cons p rest ih => rw [erasedProperties, ih, List.map_cons]

/-- Equal up to the order of the keys of objects. -/
def SameUpToOrder (v w : Value) : Prop := sortKeys v = sortKeys w

/-- A value of `JSON.parse` on a platform that prints its finite numbers legibly. -/
inductive Parsed (fractionText : ℚ → Text) : Value → Prop
  | null : Parsed fractionText .null
  | bool (b : Bool) : Parsed fractionText (.bool b)
  | number {x : Number} : (∀ q, x = .finite q → Legible fractionText q) →
      Parsed fractionText (.number x)
  | string (s : Text) : Parsed fractionText (.string s)
  | array {items : List Value} : (∀ v ∈ items, Parsed fractionText v) →
      Parsed fractionText (.array items)
  | object {properties : List (Text × Value)} : (properties.map Prod.fst).Nodup →
      (∀ p ∈ properties, Parsed fractionText p.2) → Parsed fractionText (.object properties)

section Erasing

variable {fractionText : ℚ → Text}

theorem filter_map_value {α β : Type} (f : Text × α → β) (properties : List (Text × α)) :
    (properties.map fun p => (p.1, f p)).filter notProto =
      (properties.filter notProto).map fun p => (p.1, f p) :=
  List.filter_map

theorem sorted_map {α β : Type} (f : Text × α → β) (properties : List (Text × α)) :
    sorted (properties.map fun p => (p.1, f p)) = (sorted properties).map fun p => (p.1, f p) :=
  mergeSort_map properties f

theorem sortKeys_object (properties : List (Text × Value)) : sortKeys (.object properties) =
    .object ((sorted properties).map fun p => (p.1, sortKeys p.2)) := by
  rw [sortKeys, sortProperties_eq]
  exact congrArg Value.object (sorted_map (fun p => sortKeys p.2) properties)

theorem erased_object (properties : List (Text × Value)) : erased (.object properties) =
    .object ((properties.filter notProto).map fun p => (p.1, erased p.2)) := by
  rw [erased, erasedProperties_eq]
  exact congrArg Value.object (filter_map_value (fun p => erased p.2) properties)

/-- Sorting and erasing commute. -/
theorem sortKeys_erased {v : Value} (h : Parsed fractionText v) :
    sortKeys (erased v) = erased (sortKeys v) := by
  induction h with
  | null => rfl
  | bool b => rfl
  | @number x _ => cases x <;> rfl
  | string s => rfl
  | @array items _ ih =>
    rw [erased, sortKeys, sortKeys, erased, erasedItems_eq, sortItems_eq, sortItems_eq,
      erasedItems_eq, List.map_map, List.map_map]
    exact congrArg Value.array (List.map_congr_left ih)
  | @object properties hnodup _ ih =>
    rw [erased_object, sortKeys_object, sorted_map (fun p => erased p.2), sortKeys_object,
      erased_object, filter_map_value (fun p => sortKeys p.2), filter_sorted hnodup, List.map_map,
      List.map_map]
    refine congrArg Value.object (List.map_congr_left fun p hp => ?_)
    have hmem : p ∈ properties := (List.mem_filter.mp ((sorted_perm _).subset hp)).1
    exact Prod.ext rfl (ih p hmem)

/-! The object that is rebuilt. -/

theorem setProperty_perm {properties : List (Text × Value)} {key : Text}
    (hnew : key ∉ properties.map Prod.fst) (v : Value) :
    (setProperty properties key v).Perm ((key, v) :: properties) := by
  rw [setProperty, if_neg hnew]
  refine List.perm_middle.trans ?_
  rw [List.takeWhile_append_dropWhile]

theorem foldl_assign_eq (properties before : List (Text × Value)) :
    properties.foldl (fun normalized p => assign normalized p.1 p.2) before =
      (properties.filter notProto).foldl (fun normalized p => setProperty normalized p.1 p.2)
        before := by
  induction properties generalizing before with
  | nil => rfl
  | cons p rest ih =>
    rw [List.foldl_cons, ih, assign, List.filter_cons]
    by_cases hproto : p.1 = protoKey
    · rw [if_pos hproto, if_neg (by simp [notProto, hproto])]
    · rw [if_neg hproto, if_pos (by simp [notProto, hproto]), List.foldl_cons]

/-- The own properties of a new object, added in some order. -/
def rebuilt (properties : List (Text × Value)) : List (Text × Value) :=
  properties.foldl (fun normalized p => setProperty normalized p.1 p.2) []

theorem foldl_setProperty_perm (properties : List (Text × Value)) :
    ∀ {before : List (Text × Value)}, ((before ++ properties).map Prod.fst).Nodup →
      (properties.foldl (fun normalized p => setProperty normalized p.1 p.2) before).Perm
        (before ++ properties) := by
  induction properties with
  | nil =>
    intro before _
    rw [List.append_nil]
    exact List.Perm.refl _
  | cons p rest ih =>
    intro before hnodup
    have hmiddle : (before ++ p :: rest).Perm ((p :: before) ++ rest) := List.perm_middle
    have hnew : p.1 ∉ before.map Prod.fst := by
      have hcons := (hmiddle.map Prod.fst).nodup_iff.mp hnodup
      rw [List.cons_append, List.map_cons, List.nodup_cons, List.map_append] at hcons
      exact fun hmem => hcons.1 (List.mem_append_left _ hmem)
    have hset := (setProperty_perm hnew p.2).append_right rest
    rw [List.foldl_cons]
    refine (ih ?_).trans (hset.trans hmiddle.symm)
    exact ((hset.trans hmiddle.symm).map Prod.fst).nodup_iff.mpr hnodup

theorem rebuilt_perm {properties : List (Text × Value)} (h : (properties.map Prod.fst).Nodup) :
    (rebuilt properties).Perm properties := foldl_setProperty_perm properties h

theorem eq_decimal_of_arrayIndex {key : Text} {i : ℕ} (h : arrayIndex? key = some i) :
    key = decimal i := by
  rw [arrayIndex?] at h
  split at h
  · next hindex => exact Option.some.inj h ▸ hindex.1
  · cases h

/-- Of two keys one precedes, or else neither is an index and either does. -/
theorem precedes_of_not {first second : Text} (hne : first ≠ second)
    (h : precedes first second = false) : precedes second first = true := by
  rw [precedes] at h ⊢
  cases hfirst : arrayIndex? first with
  | none =>
    cases hsecond : arrayIndex? second with
    | none => rfl
    | some j => rfl
  | some i =>
    cases hsecond : arrayIndex? second with
    | none => simp [hfirst, hsecond] at h
    | some j =>
      have hij : i ≠ j := by
        rintro rfl
        exact hne ((eq_decimal_of_arrayIndex hfirst).trans (eq_decimal_of_arrayIndex hsecond).symm)
      simp only [hfirst, hsecond, decide_eq_false_iff_not] at h
      simp only [decide_eq_true_eq]
      omega

/-- What comes after a key that a new key does not follow comes after the new key. -/
theorem precedes_trans_of_not {key first second : Text} (hkey : precedes first key = false)
    (hne : first ≠ key) (h : precedes first second = true) : precedes key second = true := by
  have hfirst := precedes_of_not hne hkey
  rw [precedes] at h hfirst hkey ⊢
  cases hk : arrayIndex? key with
  | none => cases hf : arrayIndex? first <;> simp [hk, hf] at hkey
  | some k =>
    cases hs : arrayIndex? second with
    | none => rfl
    | some j =>
      cases hf : arrayIndex? first with
      | none => simp [hf, hs] at h
      | some i =>
        simp only [hk, hf, hs, decide_eq_true_eq] at h hfirst ⊢
        omega

theorem pairwise_setProperty {properties : List (Text × Value)} {key : Text}
    (hnew : key ∉ properties.map Prod.fst)
    (h : (properties.map Prod.fst).Pairwise fun first second => precedes first second = true)
    (v : Value) : ((setProperty properties key v).map Prod.fst).Pairwise
      fun first second => precedes first second = true := by
  have hsplit := List.takeWhile_append_dropWhile (p := fun p : Text × Value => precedes p.1 key)
    (l := properties)
  have hbefore : ∀ p ∈ properties.takeWhile (fun p => precedes p.1 key), precedes p.1 key = true :=
    fun p hp => List.mem_takeWhile_imp (p := fun p : Text × Value => precedes p.1 key) hp
  have hafter : ∀ p ∈ properties.dropWhile (fun p => precedes p.1 key), precedes key p.1 = true := by
    have hne : ∀ p ∈ properties.dropWhile (fun p => precedes p.1 key), p.1 ≠ key := by
      intro p hp heq
      exact hnew (List.mem_map.mpr ⟨p, (List.dropWhile_sublist _).subset hp, heq⟩)
    have horder := h.sublist ((List.dropWhile_sublist fun p : Text × Value => precedes p.1 key).map
      Prod.fst)
    have hhead := List.head?_dropWhile_not (fun p : Text × Value => precedes p.1 key) properties
    cases hrest : properties.dropWhile fun p => precedes p.1 key with
    | nil => exact fun p hp => absurd hp List.not_mem_nil
    | cons first rest =>
      rw [hrest] at hne horder hhead
      have hfirst : precedes first.1 key = false := by simpa using hhead
      rw [List.map_cons, List.pairwise_cons] at horder
      intro p hp
      rcases List.mem_cons.mp hp with rfl | hp
      · exact precedes_of_not (hne _ List.mem_cons_self) hfirst
      · exact precedes_trans_of_not hfirst (hne _ List.mem_cons_self)
          (horder.1 p.1 (List.mem_map.mpr ⟨p, hp, rfl⟩))
  rw [← hsplit, List.map_append, List.pairwise_append] at h
  rw [setProperty, if_neg hnew, List.map_append, List.pairwise_append, List.map_cons,
    List.pairwise_cons]
  refine ⟨h.1, ⟨?_, h.2.1⟩, ?_⟩
  · intro second hsecond
    obtain ⟨p, hp, rfl⟩ := List.mem_map.mp hsecond
    exact hafter p hp
  · intro first hfirst second hsecond
    obtain ⟨p, hp, rfl⟩ := List.mem_map.mp hfirst
    rcases List.mem_cons.mp hsecond with rfl | hsecond
    · exact hbefore p hp
    · exact h.2.2 _ hfirst _ hsecond

theorem foldl_setProperty_pairwise (properties : List (Text × Value)) :
    ∀ {before : List (Text × Value)}, ((before ++ properties).map Prod.fst).Nodup →
      (before.map Prod.fst).Pairwise (fun first second => precedes first second = true) →
      ((properties.foldl (fun normalized p => setProperty normalized p.1 p.2) before).map
        Prod.fst).Pairwise fun first second => precedes first second = true := by
  induction properties with
  | nil => exact fun _ h => h
  | cons p rest ih =>
    intro before hnodup h
    have hmiddle : (before ++ p :: rest).Perm ((p :: before) ++ rest) := List.perm_middle
    have hcons := (hmiddle.map Prod.fst).nodup_iff.mp hnodup
    have hnew : p.1 ∉ before.map Prod.fst := by
      rw [List.cons_append, List.map_cons, List.nodup_cons, List.map_append] at hcons
      exact fun hmem => hcons.1 (List.mem_append_left _ hmem)
    have hset := (setProperty_perm hnew p.2).append_right rest
    rw [List.foldl_cons]
    exact ih ((hset.map Prod.fst).nodup_iff.mpr hcons) (pairwise_setProperty hnew h p.2)

theorem normalized_object {properties : List (Text × Value)}
    (hnodup : (properties.map Prod.fst).Nodup) : normalized (.object properties) =
      .object (rebuilt ((sorted (properties.filter notProto)).map fun p => (p.1, normalized p.2))) := by
  have hsort := sorted_map (fun p => normalized p.2) properties
  rw [normalized, normalizedProperties_eq, foldl_assign_eq]
  refine congrArg (fun l => Value.object (rebuilt l)) ?_
  rw [← filter_sorted hnodup, ← filter_map_value fun p => normalized p.2, ← hsort]
  rfl

theorem nodup_kept {properties : List (Text × Value)} (f : Text × Value → Value)
    (hnodup : (properties.map Prod.fst).Nodup) :
    (((sorted (properties.filter notProto)).map fun p => (p.1, f p)).map Prod.fst).Nodup := by
  have hfilter : (properties.filter notProto).Sublist properties := List.filter_sublist
  have hkept := hnodup.sublist (hfilter.map Prod.fst)
  rw [List.map_map]
  exact ((sorted_perm (properties.filter notProto)).map Prod.fst).nodup_iff.mpr hkept

theorem mem_of_mem_kept {properties : List (Text × Value)} {p : Text × Value}
    (h : p ∈ sorted (properties.filter notProto)) : p ∈ properties :=
  (List.mem_filter.mp ((sorted_perm _).subset h)).1

/-- What is rebuilt is JSON, and its numbers are those of the value. -/
theorem isJson_normalized {v : Value} (h : Parsed fractionText v) :
    (normalized v).IsJson ∧ ∀ q, (normalized v).HasNumber (.finite q) → Legible fractionText q := by
  induction h with
  | null => exact ⟨.null, fun q hq => by cases hq⟩
  | bool b => exact ⟨.bool b, fun q hq => by cases hq⟩
  | string s => exact ⟨.string s, fun q hq => by cases hq⟩
  | @number x hlegible =>
    cases x with
    | finite r =>
      refine ⟨.number r, fun q hq => ?_⟩
      cases hq
      exact hlegible r rfl
    | _ => exact ⟨.string _, fun q hq => by cases hq⟩
  | @array items _ ih =>
    rw [normalized, normalizedItems_eq]
    refine ⟨.array (List.forall_mem_map.mpr fun v hv => (ih v hv).1), fun q hq => ?_⟩
    cases hq with
    | item hitem hq =>
      obtain ⟨v, hv, rfl⟩ := List.mem_map.mp hitem
      exact (ih v hv).2 q hq
  | @object properties hnodup _ ih =>
    rw [normalized_object hnodup]
    have hkeys := nodup_kept (fun p => normalized p.2) hnodup
    have hperm := rebuilt_perm hkeys
    have hmem : ∀ p ∈ rebuilt ((sorted (properties.filter notProto)).map
        fun p => (p.1, normalized p.2)), ∃ p' ∈ properties, p.2 = normalized p'.2 := by
      intro p hp
      obtain ⟨p', hp', rfl⟩ := List.mem_map.mp (hperm.subset hp)
      exact ⟨p', mem_of_mem_kept hp', rfl⟩
    refine ⟨.object ((hperm.map Prod.fst).nodup_iff.mpr hkeys) ?_ fun p hp => ?_, fun q hq => ?_⟩
    · exact foldl_setProperty_pairwise _ hkeys List.Pairwise.nil
    · obtain ⟨p', hp', heq⟩ := hmem p hp
      exact heq ▸ (ih p' hp').1
    · cases hq with
      | property hp hq =>
        obtain ⟨p', hp', heq⟩ := hmem _ hp
        exact (ih p' hp').2 q (heq ▸ hq)

/-- Sorted again, what is rebuilt is the erased value sorted. -/
theorem sortKeys_normalized {v : Value} (h : Parsed fractionText v) :
    sortKeys (normalized v) = sortKeys (erased v) := by
  induction h with
  | null => rfl
  | bool b => rfl
  | @number x _ => cases x <;> rfl
  | string s => rfl
  | @array items _ ih =>
    rw [normalized, erased, normalizedItems_eq, erasedItems_eq, sortKeys, sortKeys, sortItems_eq,
      sortItems_eq, List.map_map, List.map_map]
    exact congrArg Value.array (List.map_congr_left ih)
  | @object properties hnodup _ ih =>
    have hkeys := nodup_kept (fun p => normalized p.2) hnodup
    have hsorted : sorted (rebuilt ((sorted (properties.filter notProto)).map
          fun p => (p.1, normalized p.2))) =
        sorted ((properties.filter notProto).map fun p => (p.1, normalized p.2)) := by
      refine sorted_eq_of_perm (((rebuilt_perm hkeys).map Prod.fst).nodup_iff.mpr hkeys) ?_
      exact (rebuilt_perm hkeys).trans ((sorted_perm _).map _)
    rw [normalized_object hnodup, erased_object, sortKeys_object, sortKeys_object, hsorted,
      sorted_map (fun p => normalized p.2), sorted_map (fun p => erased p.2), List.map_map,
      List.map_map]
    refine congrArg Value.object (List.map_congr_left fun p hp => ?_)
    exact Prod.ext rfl (ih p (mem_of_mem_kept hp))

mutual

/-- The objects of a value built anew, from properties in their order. -/
def placed : Value → Value
  | .array items => .array (placedItems items)
  | .object properties => .object (rebuilt (placedProperties properties))
  | v => v

def placedItems : List Value → List Value
  | [] => []
  | v :: rest => placed v :: placedItems rest

def placedProperties : List (Text × Value) → List (Text × Value)
  | [] => []
  | (key, v) :: rest => (key, placed v) :: placedProperties rest

end

theorem placedItems_eq (items : List Value) : placedItems items = items.map placed := by
  induction items with
  | nil => rfl
  | cons v rest ih => rw [placedItems, ih, List.map_cons]

theorem placedProperties_eq (properties : List (Text × Value)) :
    placedProperties properties = properties.map fun p => (p.1, placed p.2) := by
  induction properties with
  | nil => rfl
  | cons p rest ih => rw [placedProperties, ih, List.map_cons]

/-- What is rebuilt depends on the erased value sorted, and on nothing else. -/
theorem normalized_eq_placed {v : Value} (h : Parsed fractionText v) :
    normalized v = placed (sortKeys (erased v)) := by
  induction h with
  | null => rfl
  | bool b => rfl
  | @number x _ => cases x <;> rfl
  | string s => rfl
  | @array items _ ih =>
    rw [normalized, erased, normalizedItems_eq, erasedItems_eq, sortKeys, sortItems_eq, placed,
      placedItems_eq, List.map_map, List.map_map]
    exact congrArg Value.array (List.map_congr_left ih)
  | @object properties hnodup _ ih =>
    rw [normalized_object hnodup, erased_object, sortKeys_object, sorted_map (fun p => erased p.2),
      placed, placedProperties_eq, List.map_map, List.map_map]
    refine congrArg (fun l => Value.object (rebuilt l)) (List.map_congr_left fun p hp => ?_)
    exact Prod.ext rfl (ih p (mem_of_mem_kept hp))

end Erasing

/-! Collisions. -/

section Collisions

variable {platform : Platform} {n m : ℕ} {heap : Heap n} {root : Slot n} {other : Heap m}
  {otherRoot : Slot m}

/-- The objects are those that `JSON.parse` makes for a value. -/
structure Holds (platform : Platform) (heap : Heap n) (root : Slot n) (v : Value) : Prop where
  unshared : Unshared heap root
  tree : tree heap (n + 1) root = v
  parsed : Parsed platform.fractionText v

theorem stableValue_eq {v : Value} (h : Holds platform heap root v) :
    stableValue platform heap root = stringify platform.fractionText (normalized v) := by
  have hfresh : ReceiptJournal.Graph.Fresh (addresses heap (n + 1) root) [] :=
    ⟨Unshared.nodup_addresses heap h.unshared (n + 1), List.disjoint_nil_right _⟩
  rw [stableValue, (normalizeValueForDigest_eq heap hfresh).1, h.tree]

/-- One string is hashed for the values that are erased to the same JSON. -/
theorem stableValue_eq_iff {v w : Value} (hv : Holds platform heap root v)
    (hw : Holds platform other otherRoot w) :
    stableValue platform heap root = stableValue platform other otherRoot ↔
      SameUpToOrder (erased v) (erased w) := by
  obtain ⟨hjson, hlegible⟩ := isJson_normalized hv.parsed
  obtain ⟨hjson', hlegible'⟩ := isJson_normalized hw.parsed
  rw [stableValue_eq hv, stableValue_eq hw]
  constructor
  · intro h
    have hparse := jsonParse_stringify platform.fractionText hjson hlegible
    rw [h, jsonParse_stringify platform.fractionText hjson' hlegible'] at hparse
    rw [SameUpToOrder, ← sortKeys_normalized hv.parsed, ← sortKeys_normalized hw.parsed,
      Option.some.inj hparse]
  · intro h
    rw [normalized_eq_placed hv.parsed, normalized_eq_placed hw.parsed, h]

theorem SameUpToOrder.erased {v w : Value} (hv : Parsed platform.fractionText v)
    (hw : Parsed platform.fractionText w) (h : SameUpToOrder v w) :
    SameUpToOrder (erased v) (erased w) := by
  rw [SameUpToOrder, sortKeys_erased hv, sortKeys_erased hw, h]

/-- The string tells two values apart exactly when they do not differ in what is erased alone. -/
theorem stableValue_separates_iff {v w : Value} (hv : Holds platform heap root v)
    (hw : Holds platform other otherRoot w) :
    (stableValue platform heap root = stableValue platform other otherRoot ↔ SameUpToOrder v w) ↔
      (SameUpToOrder (erased v) (erased w) → SameUpToOrder v w) := by
  rw [stableValue_eq_iff hv hw]
  exact ⟨Iff.mp, fun h => ⟨h, SameUpToOrder.erased hv.parsed hw.parsed⟩⟩

/-- Arguments that are the same up to order have one digest. -/
theorem hashedArgumentDigest_eq {v w : Value} (hv : Holds platform heap root v)
    (hw : Holds platform other otherRoot w) (h : SameUpToOrder v w) :
    hashedArgumentDigest platform heap root = hashedArgumentDigest platform other otherRoot := by
  have herased := SameUpToOrder.erased hv.parsed hw.parsed h
  rw [hashedArgumentDigest, (stableValue_eq_iff hv hw).mpr herased]
  rfl

/-- Objects that refer to no others are shared by none. -/
theorem unshared_of_flat (h : ∀ a b, .ref b ∉ (heap a).children) : Unshared heap root := by
  have hpath : ∀ {slot : Slot n} {path : List ℕ} {b : Fin n}, Heap.Reaches heap slot path b →
      path = [] := by
    intro slot path b hreaches
    cases hreaches with
    | here a => rfl
    | @child a b i slot path hget hrest =>
      cases hrest with
      | here => exact absurd (List.mem_of_getElem? hget) (h a b)
      | @child c d j slot path hget' hrest => exact absurd (List.mem_of_getElem? hget) (h a c)
  intro p q a hp hq
  rw [hpath hp, hpath hq]

end Collisions

/-- `JSON.parse` of an object with the one key `__proto__`. -/
def protoHeap : Heap 1 := fun _ => .object [(protoKey, .number (1 : ℕ))] (by decide)

def emptyHeap : Heap 1 := fun _ => .object [] (by decide)

def protoValue : Value := .object [(protoKey, .number (1 : ℕ))]

theorem holds_protoHeap : Holds asciiPlatform protoHeap (.ref 0) protoValue := by
  refine ⟨unshared_of_flat fun a b hmem => ?_, rfl, .object (by decide) ?_⟩
  · cases List.mem_singleton.mp hmem
  · refine List.forall_mem_singleton.mpr (.number fun q hq => ?_)
    obtain rfl := Number.finite.inj hq
    exact_mod_cast legible_intCast asciiPlatform.fractionText (n := 1) (by decide)

theorem holds_emptyHeap : Holds asciiPlatform emptyHeap (.ref 0) (.object []) := by
  refine ⟨unshared_of_flat fun a b hmem => ?_, rfl, .object List.nodup_nil ?_⟩
  · exact absurd hmem List.not_mem_nil
  · exact fun p hp => absurd hp List.not_mem_nil

/-- The digest misses a property named `__proto__`. -/
theorem stableValue_proto_collides :
    Holds asciiPlatform protoHeap (.ref 0) protoValue ∧
    Holds asciiPlatform emptyHeap (.ref 0) (.object []) ∧
    ¬ (stableValue asciiPlatform protoHeap (.ref 0) = stableValue asciiPlatform emptyHeap (.ref 0) ↔
      SameUpToOrder protoValue (.object [])) := by
  refine ⟨holds_protoHeap, holds_emptyHeap, fun h => ?_⟩
  have hkeys : ∀ {properties : List (Text × Value)},
      SameUpToOrder protoValue (.object properties) → properties ≠ [] := by
    intro properties hsame hnil
    rw [SameUpToOrder, hnil, sortKeys_object, protoValue, sortKeys_object] at hsame
    have hlength := congrArg List.length (Value.object.inj hsame)
    rw [List.length_map, List.length_map, (sorted_perm _).length_eq, (sorted_perm _).length_eq]
      at hlength
    cases hlength
  have herased : erased protoValue = erased (.object []) := by
    rw [protoValue, erased_object, erased_object]
    rfl
  have hsame := (stableValue_eq_iff holds_protoHeap holds_emptyHeap).mpr (congrArg sortKeys herased)
  exact hkeys (h.mp hsame) rfl

theorem stableValue_separates_iff_proto :
    (stableValue asciiPlatform protoHeap (.ref 0) = stableValue asciiPlatform emptyHeap (.ref 0) ↔
      SameUpToOrder protoValue (.object [])) ↔
      (SameUpToOrder (erased protoValue) (erased (.object [])) →
        SameUpToOrder protoValue (.object [])) :=
  stableValue_separates_iff holds_protoHeap holds_emptyHeap

end Governor.Digest
