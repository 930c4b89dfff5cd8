import Mathlib.Data.List.DropRight
import SupabaseUserMcp.Js.Records
import SupabaseUserMcp.ReadTools

/- Parsing twice. The tools parse what an executor has parsed and the client parses
   it once more; a value that a schema returned is one it returns unchanged. -/
namespace ReadTools

open Js
open Inspection (natValue isoDatetimeSchema)

/-- A value that was parsed parses to itself. -/
def Stable (schema : Schema Value) : Prop := ∀ v w, schema v = some w → schema w = some w

/-! Texts and numbers. -/

theorem trim_trim (s : Text) : trim (trim s) = trim s := by
  have htrim : ∀ t, trim t = (t.dropWhile isWhitespace).rdropWhile isWhitespace := fun _ => rfl
  have hkeep : (trim s).dropWhile isWhitespace = trim s := by
    rw [List.dropWhile_eq_self_iff]
    intro hpos
    have hleading : trim s <+: s.dropWhile isWhitespace := List.rdropWhile_prefix _ _
    have hlt := hpos.trans_le hleading.length_le
    rw [hleading.getElem hpos]
    exact List.dropWhile_get_zero_not _ s hlt
  rw [htrim (trim s), hkeep, htrim s, List.rdropWhile_idempotent]

theorem stable_stringValue {schema : Schema Text}
    (h : ∀ v t, schema v = some t → schema (.string t) = some t) : Stable (stringValue schema) := by
  intro v w hw
  obtain ⟨t, ht, rfl⟩ := Schema.map_eq_some.mp hw
  exact Schema.map_eq_some.mpr ⟨t, h v t ht, rfl⟩

theorem stable_refinedString (p : Text → Bool) : Stable (stringValue (Schema.string.refine p)) := by
  refine stable_stringValue fun v t ht => ?_
  obtain ⟨-, hp⟩ := Schema.refine_eq_some.mp ht
  exact Schema.refine_of rfl hp

theorem stable_opaqueString (start : String) (lo hi : ℕ) : Stable (opaqueString start lo hi) := by
  refine stable_stringValue fun v t ht => ?_
  obtain ⟨hlength, hp⟩ := Schema.refine_eq_some.mp ht
  obtain ⟨-, hbounds⟩ := Schema.refine_eq_some.mp hlength
  exact Schema.refine_of (Schema.refine_of rfl hbounds) hp

theorem stable_trimmed (n : ℕ) : Stable (trimmed n) := by
  refine stable_stringValue fun v t ht => ?_
  obtain ⟨hmap, hbounds⟩ := Schema.refine_eq_some.mp ht
  obtain ⟨s, -, rfl⟩ := Schema.map_eq_some.mp hmap
  refine Schema.refine_of (Schema.map_eq_some.mpr ⟨trim s, rfl, trim_trim s⟩) hbounds

theorem stable_oneOf (names : List String) : Stable (oneOf names) := by
  intro v w hw
  obtain ⟨t, ht, rfl⟩ := Schema.map_eq_some.mp hw
  refine Schema.map_eq_some.mpr ⟨t, ?_, rfl⟩
  cases v with
  | string s =>
    obtain ⟨alternative, hfind, rfl⟩ := Option.map_eq_some_iff.mp ht
    obtain ⟨name, -, rfl⟩ := List.mem_map.mp (List.mem_of_find?_eq_some hfind)
    have hname : text name = s := by simpa using List.find?_some hfind
    subst hname
    exact ht
  | _ => cases ht

theorem stable_limitSchema {n : ℕ} (hpos : 1 ≤ n) (hsafe : n ≤ 9007199254740991) :
    Stable (limitSchema n) := by
  intro v w hw
  obtain ⟨k, hk, rfl⟩ := Schema.map_eq_some.mp hw
  have hbounds : 1 ≤ k ∧ k ≤ n := by
    cases v with
    | undefined =>
      cases hk
      exact ⟨hpos, le_rfl⟩
    | _ => exact Schema.natBetween_eq_some hk
  exact Schema.map_eq_some.mpr
    ⟨k, Schema.natBetween_ofNat hbounds.1 hbounds.2 (hbounds.2.trans hsafe), rfl⟩

/-! Combinators. -/

theorem Stable.refine {schema : Schema Value} (h : Stable schema) (p : Value → Bool) :
    Stable (schema.refine p) := by
  intro v w hw
  obtain ⟨hv, hp⟩ := Schema.refine_eq_some.mp hw
  exact Schema.refine_of (h v w hv) hp

theorem Stable.default {schema : Schema Value} (h : Stable schema) {d : Value}
    (hd : schema d = some d) (hundefined : schema .undefined = none) :
    Stable (schema.default d) := by
  intro v w hw
  have hschema : schema w = some w := by
    cases v with
    | undefined =>
      cases hw
      exact hd
    | _ => exact h _ w hw
  cases w with
  | undefined =>
    rw [hundefined] at hschema
    cases hschema
  | _ => exact hschema

theorem mapM_of_forall {α β : Type} {f : α → Option β} {g : α → β} {xs : List α}
    (h : ∀ x ∈ xs, f x = some (g x)) : xs.mapM f = some (xs.map g) := by
  induction xs with
  | nil => rfl
  | cons x rest ih =>
    rw [List.mapM_cons, h x List.mem_cons_self, ih fun y hy => h y (List.mem_cons_of_mem _ hy)]
    rfl

theorem stable_arrayValue {schema : Schema Value} (h : Stable schema) (n : ℕ) :
    Stable (arrayValue n schema) := by
  intro v w hw
  obtain ⟨items, hitems, rfl⟩ := Schema.map_eq_some.mp hw
  obtain ⟨harray, hlength⟩ := Schema.refine_eq_some.mp hitems
  refine Schema.map_eq_some.mpr ⟨items, Schema.refine_of ?_ hlength, rfl⟩
  have hall : ∀ w ∈ items, schema w = some w := by
    intro w hmem
    cases v with
    | array values =>
      obtain ⟨u, hu⟩ := Schema.array_eq_some harray w hmem
      exact h u w hu
    | _ => cases harray
  rw [Schema.array, mapM_of_forall hall, List.map_id']

/-! Shapes. -/

theorem Field.parse_keys {field : Field} {properties part : List (Text × Value)}
    (h : Field.parse properties field = some part) : ∀ p ∈ part, p.1 = field.key := by
  unfold Field.parse at h
  intro p hp
  split at h
  · split at h
    · cases h
      cases hp
    · obtain ⟨w, -, rfl⟩ := Option.map_eq_some_iff.mp h
      rw [List.mem_singleton.mp hp]
  · obtain ⟨w, -, rfl⟩ := Option.map_eq_some_iff.mp h
    rw [List.mem_singleton.mp hp]

/-- A part that was parsed is parsed again from properties that hold it, and one that was
absent is absent. -/
theorem Field.parse_again {field : Field} {properties part again : List (Text × Value)}
    (h : Field.parse properties field = some part) (hstable : Stable field.schema)
    (hpresent : ∀ p ∈ part, Value.property again p.1 = some p.2)
    (habsent : part = [] → Value.property again field.key = none) :
    Field.parse again field = some part := by
  have hparsed : ∀ {v w}, field.schema v = some w → part = [(field.key, w)] →
      Field.parse again field = some part := by
    rintro v w hw rfl
    have hlookup := hpresent _ List.mem_cons_self
    simp only [Field.parse, hlookup, hstable v w hw, Option.map_some]
  unfold Field.parse at h
  split at h
  · split at h
    · next hoptional =>
      cases h
      simp only [Field.parse, habsent rfl, hoptional, if_true]
    · obtain ⟨w, hw, hpart⟩ := Option.map_eq_some_iff.mp h
      exact hparsed hw hpart.symm
  · obtain ⟨w, hw, hpart⟩ := Option.map_eq_some_iff.mp h
    exact hparsed hw hpart.symm

theorem parsed_keys {fields : List Field} {properties : List (Text × Value)}
    {parts : List (List (Text × Value))} (h : fields.mapM (Field.parse properties) = some parts) :
    (parts.flatten.map Prod.fst).Sublist (fields.map Field.key) := by
  induction fields generalizing parts with
  | nil =>
    cases h
    exact List.Sublist.refl _
  | cons field rest ih =>
    rw [List.mapM_cons] at h
    obtain ⟨part, hpart, h⟩ := Option.bind_eq_some_iff.mp h
    obtain ⟨parts, hparts, h⟩ := Option.bind_eq_some_iff.mp h
    cases h
    have hkeys := Field.parse_keys hpart
    have hsingle : (part.map Prod.fst).Sublist [field.key] := by
      unfold Field.parse at hpart
      split at hpart
      · split at hpart
        · cases hpart
          exact List.nil_sublist _
        · obtain ⟨w, -, rfl⟩ := Option.map_eq_some_iff.mp hpart
          exact List.Sublist.refl _
      · obtain ⟨w, -, rfl⟩ := Option.map_eq_some_iff.mp hpart
        exact List.Sublist.refl _
    rw [List.flatten_cons, List.map_append, List.map_cons]
    exact hsingle.append (ih hparts)

/-- The fields of a shape are parsed again from what they were parsed to. -/
theorem mapM_parse_again {fields : List Field} {properties again : List (Text × Value)}
    {parts : List (List (Text × Value))} (h : fields.mapM (Field.parse properties) = some parts)
    (hkeys : (fields.map Field.key).Nodup) (hstable : ∀ field ∈ fields, Stable field.schema)
    (hpresent : ∀ p ∈ parts.flatten, Value.property again p.1 = some p.2)
    (habsent : ∀ field ∈ fields, field.key ∉ parts.flatten.map Prod.fst →
      Value.property again field.key = none) :
    fields.mapM (Field.parse again) = some parts := by
  induction fields generalizing parts with
  | nil =>
    cases h
    rfl
  | cons field rest ih =>
    rw [List.mapM_cons] at h
    obtain ⟨part, hpart, h⟩ := Option.bind_eq_some_iff.mp h
    obtain ⟨parts, hparts, h⟩ := Option.bind_eq_some_iff.mp h
    cases h
    rw [List.map_cons, List.nodup_cons] at hkeys
    have hrestKeys := (parsed_keys hparts).subset
    have hagain : Field.parse again field = some part := by
      refine Field.parse_again hpart (hstable field List.mem_cons_self)
        (fun p hp => hpresent p (List.mem_append_left _ hp)) ?_
      rintro rfl
      refine habsent field List.mem_cons_self fun hmem => ?_
      exact hkeys.1 (hrestKeys hmem)
    rw [List.mapM_cons, hagain, ih hparts hkeys.2
      (fun other hmem => hstable other (List.mem_cons_of_mem _ hmem))
      (fun p hp => hpresent p (List.mem_append_right _ hp)) ?_]
    · rfl
    · intro other hother hmem
      refine habsent other (List.mem_cons_of_mem _ hother) fun hkey => ?_
      rw [List.flatten_cons, List.map_append] at hkey
      rcases List.mem_append.mp hkey with hkey | hkey
      · obtain ⟨p, hp, heq⟩ := List.mem_map.mp hkey
        refine hkeys.1 (List.mem_map.mpr ⟨other, hother, ?_⟩)
        rw [← heq, Field.parse_keys hpart p hp]
      · exact hmem hkey

theorem stable_shape {fields : List Field} (hkeys : (fields.map Field.key).Nodup)
    (hstable : ∀ field ∈ fields, Stable field.schema) : Stable (shape fields) := by
  intro v w hw
  obtain ⟨properties, parts, rfl, hparts, rfl⟩ := shape_eq_some hw
  have hsub := parsed_keys hparts
  have hnodup := hkeys.sublist hsub
  have hagain : fields.mapM (Field.parse parts.flatten) = some parts := by
    refine mapM_parse_again hparts hkeys hstable (fun p hp => ?_) fun field _ hmem =>
      Value.property_eq_none hmem
    obtain ⟨i, hi, heq⟩ := List.mem_iff_getElem.mp hp
    exact Value.property_of_getElem? hnodup (i := i) (by rw [List.getElem?_eq_getElem hi, heq])
  have hallowed : (parts.flatten.all fun p => (fields.map Field.key).contains p.1) = true := by
    rw [List.all_eq_true]
    intro p hp
    exact List.contains_iff_mem.mpr (hsub.subset (List.mem_map_of_mem hp))
  simp only [shape, hallowed, if_true, hagain, Option.map_some]

/-- A parsed value with another first property is parsed to itself but for that one. -/
theorem shape_replaced {key : Text} {schema : Schema Value} {fields : List Field}
    {v u w data : Value} {rest : List (Text × Value)}
    (hkeys : (key :: fields.map Field.key).Nodup)
    (hstable : ∀ field ∈ fields, Stable field.schema)
    (hparsed : shape (⟨key, false, schema⟩ :: fields) v = some (.object ((key, w) :: rest)))
    (h : shape (⟨key, false, schema⟩ :: fields) (.object ((key, u) :: rest)) = some data) :
    ∃ w', schema u = some w' ∧ data = .object ((key, w') :: rest) := by
  obtain ⟨properties, _, parts, rfl, -, hparts, heq⟩ := shape_cons_eq_some hparsed
  obtain rfl : rest = parts.flatten := (List.cons.inj (Value.object.inj heq)).2
  obtain ⟨other, again, hother, hagain, rfl⟩ := shape_eq_some h
  cases hother
  rw [List.mapM_cons] at hagain
  obtain ⟨first, hfirst, hagain⟩ := Option.bind_eq_some_iff.mp hagain
  obtain ⟨others, hothers, hagain⟩ := Option.bind_eq_some_iff.mp hagain
  cases hagain
  have hnodup := List.nodup_cons.mp hkeys
  have hsub := parsed_keys hparts
  have hwhole : (((key, u) :: parts.flatten).map Prod.fst).Nodup :=
    List.nodup_cons.mpr ⟨fun hmem => hnodup.1 (hsub.subset hmem), hnodup.2.sublist hsub⟩
  -- The other fields are parsed from what they were parsed to.
  have hsame := mapM_parse_again hparts hnodup.2 hstable
    (fun p hp => Value.property_of_mem hwhole (List.mem_cons_of_mem _ hp)) fun field hfield hmem => by
      refine Value.property_eq_none fun hkey => ?_
      rcases List.mem_cons.mp hkey with hkey | hkey
      · obtain rfl : field.key = key := hkey
        exact hnodup.1 (List.mem_map_of_mem hfield)
      · exact hmem hkey
  cases hothers.symm.trans hsame
  have hlookup := Value.property_of_mem hwhole List.mem_cons_self
  simp only [Field.parse, hlookup] at hfirst
  obtain ⟨w', hw', rfl⟩ := Option.map_eq_some_iff.mp hfirst
  exact ⟨w', hw', rfl⟩

theorem optional_of_ne {schema : Schema Value} {v : Value} (h : v ≠ .undefined) :
    Schema.optional schema v = (schema v).map some := by
  cases v with
  | undefined => exact absurd rfl h
  | _ => rfl

theorem stable_optional {key : String} {schema : Schema Value} (h : Stable schema) :
    Stable (optional key schema).schema := by
  intro v w hw
  obtain ⟨parsed, hparsed, rfl⟩ := Option.map_eq_some_iff.mp hw
  by_cases hdefined : parsed.getD .undefined = .undefined
  · rw [hdefined]
    rfl
  · obtain ⟨u, rfl⟩ : ∃ u, parsed = some u := by
      refine Option.ne_none_iff_exists'.mp ?_
      rintro rfl
      exact hdefined rfl
    have hv : v ≠ .undefined := by
      rintro rfl
      cases hparsed
    rw [optional_of_ne hv] at hparsed
    obtain ⟨u, hu, heq⟩ := Option.map_eq_some_iff.mp hparsed
    cases heq
    refine Option.map_eq_some_iff.mpr ⟨some u, ?_, rfl⟩
    rw [optional_of_ne hdefined]
    exact congrArg _ (h v u hu)

/-! The inputs. -/

theorem stable_tagsField : Stable tagsField.schema :=
  stable_optional (stable_arrayValue (stable_trimmed 64) maxFilters)

theorem stable_searchFiltersSchema (platform : Platform) : Stable (searchFiltersSchema platform) := by
  refine ((stable_shape (by decide) ?_).refine _).refine _
  intro field hfield
  simp only [List.mem_cons, List.not_mem_nil, or_false] at hfield
  rcases hfield with rfl | rfl | rfl
  · exact stable_tagsField
  · exact stable_optional (stable_refinedString _)
  · exact stable_optional (stable_refinedString _)

/-- The fields of a search's input. -/
def memorySearchFields (platform : Platform) : List Field :=
  [required "query" (trimmed maxQueryLength),
    required "mode" ((oneOf ["text", "semantic"]).default (.string (text "text"))),
    optional "filters" (searchFiltersSchema platform), required "limit" (limitSchema maxSearchRows),
    optional "cursor" opaqueCursorSchema]

theorem nodup_memorySearchFields (platform : Platform) :
    ((memorySearchFields platform).map Field.key).Nodup := by
  have hkeys : [text "query", text "mode", text "filters", text "limit", text "cursor"].Nodup := by
    decide
  exact hkeys

theorem stable_memorySearchFields (platform : Platform) :
    ∀ field ∈ memorySearchFields platform, Stable field.schema := by
  intro field hfield
  simp only [memorySearchFields, List.mem_cons, List.not_mem_nil, or_false] at hfield
  rcases hfield with rfl | rfl | rfl | rfl | rfl
  · exact stable_trimmed maxQueryLength
  · exact (stable_oneOf _).default rfl rfl
  · exact stable_optional (stable_searchFiltersSchema platform)
  · exact stable_limitSchema (by decide) (by decide)
  · exact stable_optional (stable_opaqueString _ _ _)

theorem stable_memorySearchInputSchema (platform : Platform) :
    Stable (memorySearchInputSchema platform) :=
  stable_shape (nodup_memorySearchFields platform) (stable_memorySearchFields platform)

/-- A parsed search under another query keeps everything else as it was parsed. -/
theorem memorySearchInputSchema_replaced {platform : Platform} {v w data : Value} {query : Text}
    {rest : List (Text × Value)}
    (hparsed : memorySearchInputSchema platform v = some (.object ((text "query", w) :: rest)))
    (h : memorySearchInputSchema platform (.object ((text "query", .string query) :: rest)) =
      some data) :
    data = .object ((text "query", .string (trim query)) :: rest) := by
  have hstable := stable_memorySearchFields platform
  obtain ⟨w', hw', rfl⟩ := shape_replaced (nodup_memorySearchFields platform)
    (fun field hfield => hstable field (List.mem_cons_of_mem _ hfield)) hparsed h
  obtain ⟨t, ht, rfl⟩ := Schema.map_eq_some.mp hw'
  obtain ⟨hmap, -⟩ := Schema.refine_eq_some.mp ht
  obtain ⟨s, hs, rfl⟩ := Schema.map_eq_some.mp hmap
  cases hs
  rfl

theorem stable_memoryGetInputSchema : Stable memoryGetInputSchema := by
  refine stable_shape (by decide) fun field hfield => ?_
  rw [List.mem_singleton.mp hfield]
  exact stable_opaqueString _ _ _

theorem stable_memoryListRecentInputSchema : Stable memoryListRecentInputSchema := by
  refine stable_shape (by decide) fun field hfield => ?_
  simp only [List.mem_cons, List.not_mem_nil, or_false] at hfield
  rcases hfield with rfl | rfl | rfl
  · refine stable_optional (stable_shape (by decide) fun field hfield => ?_)
    rw [List.mem_singleton.mp hfield]
    exact stable_tagsField
  · exact stable_limitSchema (by decide) (by decide)
  · exact stable_optional (stable_opaqueString _ _ _)

end ReadTools
