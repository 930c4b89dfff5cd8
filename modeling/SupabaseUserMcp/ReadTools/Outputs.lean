import SupabaseUserMcp.ReadTools.Frame
import SupabaseUserMcp.ReadTools.Inputs

/- What the output schemas return, and that they return it again unchanged. -/
namespace ReadTools

open Js
open Inspection (property isErrorOutput)

/-! Values. -/

theorem stable_literalOf (s : Text) : Stable (literalOf s) := by
  intro v w hw
  obtain rfl := literalOf_eq_some hw
  exact Schema.map_eq_some.mpr ⟨(), if_pos rfl, rfl⟩

theorem stable_literalFlag (b : Bool) : Stable (literalFlag b) := by
  intro v w hw
  obtain rfl := literalFlag_eq_some hw
  exact Schema.map_eq_some.mpr ⟨(), if_pos rfl, rfl⟩

theorem exact_stringValue {schema : Schema Text} (h : ∀ v s, schema v = some s → v = .string s)
    {v w : Value} (hw : stringValue schema v = some w) : w = v := by
  obtain ⟨s, hs, rfl⟩ := Schema.map_eq_some.mp hw
  exact (h v s hs).symm

theorem exact_refinedString {p : Text → Bool} {v w : Value}
    (hw : stringValue (Schema.string.refine p) v = some w) : w = v :=
  exact_stringValue (fun _ _ hs => Schema.string_eq_some.mp (Schema.refine_eq_some.mp hs).1) hw

theorem exact_opaqueString {start : String} {lo hi : ℕ} {v w : Value}
    (hw : opaqueString start lo hi v = some w) : w = v :=
  exact_stringValue (fun _ _ hs => Schema.string_eq_some.mp
    (Schema.refine_eq_some.mp (Schema.refine_eq_some.mp hs).1).1) hw

theorem exact_rankSchema {v w : Value} (hw : rankSchema v = some w) : w = v := by
  obtain ⟨x, hx, rfl⟩ := Schema.map_eq_some.mp hw
  obtain ⟨hnumber, -⟩ := Schema.refine_eq_some.mp hx
  cases v with
  | number n =>
    cases n with
    | finite q =>
      cases hnumber
      rfl
    | _ => cases hnumber
  | _ => cases hnumber

/-! Records. -/

theorem stable_memoryRecordFields : ∀ field ∈ memoryRecordFields, Stable field.schema := by
  intro field hfield
  simp only [memoryRecordFields, List.mem_cons, List.not_mem_nil, or_false] at hfield
  rcases hfield with rfl | rfl | rfl | rfl | rfl | rfl
  · exact stable_opaqueString _ _ _
  · exact stable_refinedString _
  · exact stable_refinedString _
  · exact stable_literalOf _
  · exact stable_refinedString _
  · exact stable_refinedString _

theorem stable_memoryRecordSchema : Stable memoryRecordSchema :=
  stable_shape (by decide) stable_memoryRecordFields

theorem stable_rankSchema : Stable rankSchema := by
  intro v w hw
  obtain rfl := exact_rankSchema hw
  exact hw

theorem stable_searchResultSchema : Stable searchResultSchema := by
  refine stable_shape (by decide) fun field hfield => ?_
  cases List.mem_append.mp hfield with
  | inl hfield => exact stable_memoryRecordFields field hfield
  | inr hfield =>
    rw [List.mem_singleton.mp hfield]
    exact stable_rankSchema

/-! Successes. -/

theorem stable_memoryGetSuccessSchema : Stable memoryGetSuccessSchema := by
  refine stable_shape (by decide) fun field hfield => ?_
  simp only [List.mem_cons, List.not_mem_nil, or_false] at hfield
  rcases hfield with rfl | rfl
  · exact stable_literalFlag true
  · exact stable_memoryRecordSchema

theorem stable_memorySearchSuccessSchema : Stable memorySearchSuccessSchema := by
  refine stable_shape (by decide) fun field hfield => ?_
  simp only [List.mem_cons, List.not_mem_nil, or_false] at hfield
  rcases hfield with rfl | rfl | rfl
  · exact stable_literalFlag true
  · exact stable_arrayValue stable_searchResultSchema _
  · exact stable_optional (stable_opaqueString _ _ _)

/-- A success begins with `ok: true` and its first field. -/
theorem successSchema_cons_eq_some {key : String} {schema : Schema Value} {fields : List Field}
    {v data : Value} (h : successSchema (required key schema :: fields) v = some data) :
    ∃ u w rest, schema u = some w ∧
      data = .object (property "ok" (.bool true) :: property key w :: rest) := by
  obtain ⟨properties, ok, parsed, rfl, ⟨_, hok⟩, hparsed, rfl⟩ := shape_cons_eq_some h
  obtain rfl := literalFlag_eq_some hok
  rw [List.mapM_cons] at hparsed
  obtain ⟨first, hfirst, hparsed⟩ := Option.bind_eq_some_iff.mp hparsed
  obtain ⟨rest, -, hparsed⟩ := Option.bind_eq_some_iff.mp hparsed
  cases hparsed
  obtain ⟨u, w, hw, rfl⟩ := Field.parse_required hfirst
  exact ⟨u, w, rest.flatten, hw, rfl⟩

/-- A property that must be there, and a value that its schema accepts. -/
structure FieldValue where
  key : String
  schema : Schema Value
  value : Value

/-- An object of values that the fields of a shape accept is what the shape makes of it. -/
theorem shape_members {members : List FieldValue} (hkeys : (members.map fun m => text m.key).Nodup)
    (h : ∀ m ∈ members, m.schema m.value = some m.value) :
    shape (members.map fun m => required m.key m.schema)
      (.object (members.map fun m => property m.key m.value)) =
        some (.object (members.map fun m => property m.key m.value)) := by
  have hnodup : ((members.map fun m => property m.key m.value).map Prod.fst).Nodup := by
    rw [List.map_map]
    exact hkeys
  have hallowed : ((members.map fun m => property m.key m.value).all fun p =>
      ((members.map fun m => required m.key m.schema).map Field.key).contains p.1) = true := by
    rw [List.all_eq_true]
    intro p hp
    obtain ⟨m, hm, rfl⟩ := List.mem_map.mp hp
    refine List.contains_iff_mem.mpr ?_
    rw [List.map_map]
    exact List.mem_map_of_mem hm
  have hparsed : (members.map fun m => required m.key m.schema).mapM
      (Field.parse (members.map fun m => property m.key m.value)) =
        some (members.map fun m => [property m.key m.value]) := by
    rw [List.mapM_map]
    refine mapM_of_forall fun m hm => ?_
    have hv := Value.property_of_mem hnodup (List.mem_map_of_mem hm)
    simp only [Function.comp, Field.parse, required, hv]
    rw [h m hm]
    rfl
  have hflatten : (members.map fun m => [property m.key m.value]).flatten =
      members.map fun m => property m.key m.value := by
    rw [← List.flatMap_def, ← List.map_eq_flatMap]
  rw [shape, if_pos hallowed, hparsed, Option.map_some, hflatten]

/-- What a shape of required fields makes of an object: what each field makes of its own
property, in the order of the shape. -/
theorem eq_of_shape {members : List FieldValue} {properties : List (Text × Value)} {data : Value}
    (hmembers : ∀ m ∈ members, ∃ v, Value.property properties (text m.key) = some v ∧
      ∀ w, m.schema v = some w → w = m.value)
    (h : shape (members.map fun m => required m.key m.schema) (.object properties) = some data) :
    data = .object (members.map fun m => property m.key m.value) := by
  obtain ⟨_, parsed, heq, hparsed, rfl⟩ := shape_eq_some h
  obtain rfl := Value.object.inj heq
  clear h heq
  refine congrArg Value.object ?_
  induction members generalizing parsed with
  | nil =>
    cases hparsed
    rfl
  | cons m rest ih =>
    rw [List.map_cons, List.mapM_cons] at hparsed
    obtain ⟨first, hfirst, hparsed⟩ := Option.bind_eq_some_iff.mp hparsed
    obtain ⟨others, hothers, hparsed⟩ := Option.bind_eq_some_iff.mp hparsed
    cases hparsed
    obtain ⟨v, hv, hvalue⟩ := hmembers m List.mem_cons_self
    simp only [Field.parse, required, hv] at hfirst
    obtain ⟨w, hw, rfl⟩ := Option.map_eq_some_iff.mp hfirst
    have hrest := ih (fun other hother => hmembers other (List.mem_cons_of_mem _ hother)) others
      hothers
    rw [hvalue w hw, List.map_cons, List.flatten_cons, hrest]
    rfl

/-- What a tool's schema lets through is a success or one of the five errors. -/
theorem toolOutputSchema_eq_some {platform : Platform} {success : Schema Value} {v data : Value}
    (h : toolOutputSchema platform success v = some data) :
    success v = some data ∨ ∃ code, data = createReadToolError code := by
  obtain ⟨hunion, -⟩ := Schema.refine_eq_some.mp h
  rw [Schema.union] at hunion
  cases hv : success v with
  | none =>
    rw [hv] at hunion
    exact .inr (readToolErrorOutputSchema_eq_some hunion)
  | some other =>
    rw [hv] at hunion
    exact .inl hunion

/-- Each of the five errors passes the schema of a tool that has no success for it. -/
theorem toolOutputSchema_error (platform : Platform) {success : Schema Value}
    (code : ReadToolErrorCode) (h : success (createReadToolError code) = none) :
    toolOutputSchema platform success (createReadToolError code) =
      some (createReadToolError code) := by
  refine Schema.refine_of ?_ ?_
  · rw [Schema.union, h]
    cases code <;> rfl
  · have hid : stringify? platform.fractionText .null = some (text "null") := rfl
    have hbytes := readToolWireResponseByteLength_error_le hid code
    have hnull : utf8Length (text "null") = 4 := by decide
    rw [withinMinimumWireResponseByteLimit, decide_eq_true_eq, maxResponseBytes]
    omega

theorem createReadToolError_injective : Function.Injective createReadToolError := by
  intro code other h
  have herror := (List.cons.inj (List.cons.inj (Value.object.inj h)).2).1
  have hcode := (List.cons.inj (Value.object.inj (Prod.mk.inj herror).2)).1
  have hname : code.name = other.name := Value.string.inj (Prod.mk.inj hcode).2
  cases code <;> cases other <;> first | rfl | exact absurd hname (by decide)

end ReadTools
