import SupabaseUserMcp.Js.JsonParse
import SupabaseUserMcp.Js.SameJson
import SupabaseUserMcp.Js.Utf16
import SupabaseUserMcp.ReceiptJournal

/- What `canonicalJson` prints: JSON of the value with the keys of every object
   sorted. So it parses to the same JSON, and loses nothing when it is encoded. -/
namespace ReceiptJournal

open Js
open Js.Value (SameJson)

/-! Sorted keys. -/

mutual

/-- The value with the keys of every object sorted. -/
def sortKeys : Value → Value
  | .array items => .array (sortItems items)
  | .object properties =>
    .object ((sortProperties properties).mergeSort fun p q => textLe p.1 q.1)
  | v => v

def sortItems : List Value → List Value
  | [] => []
  | v :: rest => sortKeys v :: sortItems rest

def sortProperties : List (Text × Value) → List (Text × Value)
  | [] => []
  | (key, v) :: rest => (key, sortKeys v) :: sortProperties rest

end

theorem sortItems_eq (items : List Value) : sortItems items = items.map sortKeys := by
  induction items with
  | nil => rfl
  | cons v rest ih => rw [sortItems, ih, List.map_cons]

theorem sortProperties_eq (properties : List (Text × Value)) :
    sortProperties properties = properties.map fun p => (p.1, sortKeys p.2) := by
  induction properties with
  | nil => rfl
  | cons p rest ih => rw [sortProperties, ih, List.map_cons]

section Canonical

variable (fractionText : ℚ → Text)

theorem canonicalItems_eq (items : List Value) :
    canonicalItems fractionText items = items.map (canonicalJson fractionText) := by
  induction items with
  | nil => rfl
  | cons v rest ih => rw [canonicalItems, ih, List.map_cons]

theorem canonicalProperties_eq (properties : List (Text × Value)) :
    canonicalProperties fractionText properties =
      properties.map fun p => (p.1, canonicalJson fractionText p.2) := by
  induction properties with
  | nil => rfl
  | cons p rest ih => rw [canonicalProperties, ih, List.map_cons]

/-- JSON whose numbers are legible and whose keys are no array indices, so that an object
keeps them in the order in which they are added. -/
inductive Keyed : Value → Prop
  | null : Keyed .null
  | bool (b : Bool) : Keyed (.bool b)
  | number {q : ℚ} : Legible fractionText q → Keyed (.number (.finite q))
  | string (s : Text) : Keyed (.string s)
  | array {items : List Value} : (∀ v ∈ items, Keyed v) → Keyed (.array items)
  | object {properties : List (Text × Value)} : (properties.map Prod.fst).Nodup →
      (∀ p ∈ properties, arrayIndex? p.1 = none) → (∀ p ∈ properties, Keyed p.2) →
      Keyed (.object properties)

variable {fractionText}

/-- Sorting keys is no change to the JSON. -/
theorem sameJson_sortKeys {v : Value} (h : Keyed fractionText v) : SameJson (sortKeys v) v := by
  induction h with
  | null => exact .null
  | bool b => exact .bool b
  | number _ => exact .number _
  | string s => exact .string s
  | @array items _ ih =>
    rw [sortKeys, sortItems_eq]
    refine Value.sameJson_array_iff.mpr ⟨_, rfl, ?_⟩
    rw [List.forall₂_map_left_iff, List.forall₂_same]
    exact ih
  | @object properties hnodup _ _ ih =>
    rw [sortKeys, sortProperties_eq]
    have hsorted := List.mergeSort_perm (properties.map fun p => (p.1, sortKeys p.2))
      fun p q => textLe p.1 q.1
    have hkeys : ((properties.map fun p => (p.1, sortKeys p.2)).mergeSort
        fun p q => textLe p.1 q.1).map Prod.fst |>.Perm (properties.map Prod.fst) := by
      refine (hsorted.map Prod.fst).trans ?_
      rw [List.map_map]
      exact List.Perm.refl _
    refine (Value.sameJson_record_iff hnodup).mpr ⟨_, rfl, ?_, ?_⟩
    · intro p hp
      exact hkeys.subset (List.mem_map.mpr ⟨p, hp, rfl⟩)
    · intro p hp
      have hmem := hsorted.mem_iff.mpr (List.mem_map.mpr ⟨p, hp, rfl⟩)
      rw [Value.field, Value.property_of_mem (hkeys.nodup_iff.mpr hnodup) hmem]
      exact ih p hp

theorem precedes_of_none {first second : Text} (hfirst : arrayIndex? first = none)
    (hsecond : arrayIndex? second = none) : precedes first second = true := by
  rw [precedes, hfirst, hsecond]

/-- How a property of an object is printed. -/
def memberOf (fractionText : ℚ → Text) (p : Text × Value) : Member :=
  ⟨quoteUnits p.1, p.1, sortKeys p.2, canonicalJson fractionText p.2⟩

theorem text_memberOf (p : Text × Value) : (memberOf fractionText p).text =
    quote p.1 ++ [0x3A] ++ canonicalJson fractionText p.2 := by
  simp [memberOf, Member.text, quote]

/-- Sorting by keys before or after the values are changed. -/
theorem mergeSort_map {α β : Type} (properties : List (Text × α)) (f : Text × α → β) :
    (properties.map fun p => (p.1, f p)).mergeSort (fun p q => textLe p.1 q.1) =
      (properties.mergeSort fun p q => textLe p.1 q.1).map fun p => (p.1, f p) := by
  rw [List.map_mergeSort]
  intro p _ q _
  rfl

/-- The members of an object in the order of their keys. -/
theorem sortedObject_eq (properties : List (Text × Value)) :
    sortedObject (canonicalProperties fractionText properties) = [0x7B] ++
      commaJoin (((properties.mergeSort fun p q => textLe p.1 q.1).map
        (memberOf fractionText)).map Member.text) ++ [0x7D] := by
  have hmembers : ((properties.mergeSort fun p q => textLe p.1 q.1).map fun p =>
      (p.1, canonicalJson fractionText p.2)).map (fun p => quote p.1 ++ [0x3A] ++ p.2) =
      ((properties.mergeSort fun p q => textLe p.1 q.1).map (memberOf fractionText)).map
        Member.text := by
    rw [List.map_map, List.map_map]
    exact List.map_congr_left fun p _ => (text_memberOf p).symm
  rw [sortedObject, canonicalProperties_eq, mergeSort_map, hmembers]

/-- What is printed stands for the value with sorted keys. -/
theorem encodes_canonicalJson {v : Value} (h : Keyed fractionText v) :
    Encodes (sortKeys v) (canonicalJson fractionText v) := by
  induction h with
  | null => exact .null
  | bool b =>
    cases b with
    | true => exact .true
    | false => exact .false
  | number hlegible =>
    obtain ⟨l, hl, hvalue⟩ := hlegible
    have hencodes := Encodes.number l hvalue
    rw [← hl] at hencodes
    exact hencodes
  | string s => exact .string (.quoteUnits s)
  | @array items _ ih =>
    have harray := Encodes.array (items.map fun v => (sortKeys v, canonicalJson fractionText v))
      (by simpa only [List.forall_mem_map] using ih)
    rw [List.map_map, List.map_map] at harray
    rw [sortKeys, canonicalJson, sortItems_eq, canonicalItems_eq]
    exact harray
  | @object properties hnodup hindices _ ih =>
    have hperm := List.mergeSort_perm properties fun p q => textLe p.1 q.1
    have hkeys : ((properties.mergeSort fun p q => textLe p.1 q.1).map
        (memberOf fractionText)).map Member.key =
        (properties.mergeSort fun p q => textLe p.1 q.1).map Prod.fst := by
      rw [List.map_map]
      rfl
    have hobject := Encodes.object
      ((properties.mergeSort fun p q => textLe p.1 q.1).map (memberOf fractionText)) ?_ ?_ ?_ ?_
    · rw [sortKeys, canonicalJson, sortProperties_eq, mergeSort_map, sortedObject_eq]
      rw [List.map_map] at hobject
      exact hobject
    · rw [hkeys]
      exact (hperm.map Prod.fst).nodup_iff.mpr hnodup
    · rw [hkeys, List.pairwise_map]
      refine List.pairwise_of_forall_mem_list fun p hp q hq => ?_
      exact precedes_of_none (hindices p (hperm.subset hp)) (hindices q (hperm.subset hq))
    · simp only [List.forall_mem_map]
      exact fun p _ => .quoteUnits p.1
    · simp only [List.forall_mem_map]
      exact fun p hp => ih p (hperm.subset hp)

/-- What is printed can be encoded without loss. -/
theorem isUtf16_canonicalJson {v : Value} (h : Keyed fractionText v) :
    IsUtf16 (canonicalJson fractionText v) := by
  induction h with
  | null => exact .ascii (s := text "null") (by decide)
  | bool b =>
    cases b with
    | true => exact .ascii (s := text "true") (by decide)
    | false => exact .ascii (s := text "false") (by decide)
  | number hlegible =>
    obtain ⟨l, hl, _⟩ := hlegible
    have hliteral : IsUtf16 l.text := by
      refine .ascii (List.all_eq_true.mpr fun u hu => ?_)
      exact isAscii_of_isNumberUnit (l.isNumberUnit_of_mem_text hu)
    rw [← hl] at hliteral
    exact hliteral
  | string s => exact .quote s
  | @array items _ ih =>
    rw [canonicalJson, canonicalItems_eq]
    refine ((IsUtf16.ascii (s := [0x5B]) (by decide)).append (.commaJoin ?_)).append
      (.ascii (by decide))
    simpa only [List.forall_mem_map] using ih
  | @object properties _ _ _ ih =>
    have hperm := List.mergeSort_perm properties fun p q => textLe p.1 q.1
    rw [canonicalJson, sortedObject_eq]
    refine ((IsUtf16.ascii (s := [0x7B]) (by decide)).append (.commaJoin ?_)).append
      (.ascii (by decide))
    simp only [List.forall_mem_map, text_memberOf]
    intro p hp
    exact ((IsUtf16.quote p.1).append (.ascii (by decide))).append (ih p (hperm.subset hp))

/-- What is printed parses to the same JSON. -/
theorem jsonParse_canonicalJson {v : Value} (h : Keyed fractionText v) :
    jsonParse (canonicalJson fractionText v) = some (sortKeys v) :=
  jsonParse_of_encodes (encodes_canonicalJson h)

end Canonical

end ReceiptJournal
