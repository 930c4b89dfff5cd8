import SupabaseUserMcp.Js.SameJson
import SupabaseUserMcp.Js.Schema

/- What schemas read: a schema that reads records of a type accepts a value exactly
   when it is the same JSON as a valid record, and returns that record. Schemas of
   fields, arrays, strict objects and discriminated unions keep this. -/
namespace Js

namespace Schema

open Value (SameJson field sameJson_string_iff sameJson_natCast_iff sameJson_array_iff
  sameJson_record_iff)

/-- A schema of texts that returns the text it is given. -/
def Textual (schema : Schema Text) : Prop := ∀ v s, schema v = some s → v = .string s

theorem textual_string : Textual string := fun _ _ h => string_eq_some.mp h

theorem Textual.refine {schema : Schema Text} (h : Textual schema) (p : Text → Bool) :
    Textual (schema.refine p) := fun _ _ hs => h _ _ (refine_eq_some.mp hs).1

theorem Textual.lengthBetween {schema : Schema Text} (h : Textual schema) (lo hi : ℕ) :
    Textual (schema.lengthBetween lo hi) := h.refine _

theorem Textual.eq_some_iff {schema : Schema Text} (h : Textual schema) {v : Value} {s : Text} :
    schema v = some s ↔ SameJson v (.string s) ∧ (schema (.string s)).isSome = true := by
  rw [sameJson_string_iff]
  constructor
  · intro hs
    obtain rfl := h v s hs
    exact ⟨rfl, by rw [hs]; rfl⟩
  · rintro ⟨rfl, hsome⟩
    obtain ⟨t, ht⟩ := Option.isSome_iff_exists.mp hsome
    cases h _ _ ht
    exact ht

theorem nat_eq_some_iff {lo n : ℕ} {v : Value} : nat lo v = some n ↔
    SameJson v (.number (n : ℕ)) ∧ lo ≤ n ∧ Number.isSafeInteger (n : ℕ) = true := by
  rw [sameJson_natCast_iff]
  constructor
  · intro h
    obtain ⟨x, hx, rfl⟩ := map_eq_some.mp h
    obtain ⟨hint, hlo⟩ := refine_eq_some.mp hx
    obtain ⟨hnumber, hsafe⟩ := refine_eq_some.mp hint
    obtain ⟨m, rfl, hm⟩ := Number.eq_ofNat_of_isInteger (Number.isInteger_of_isSafeInteger hsafe)
      (by simpa using hlo)
    rw [Number.toNat_ofNat]
    refine ⟨?_, hm, hsafe⟩
    cases v with
    | number y =>
      cases y with
      | finite q =>
        cases hnumber
        rfl
      | _ => cases hnumber
    | _ => cases hnumber
  · rintro ⟨rfl, hlo, hsafe⟩
    exact map_eq_some.mpr ⟨n, refine_of (refine_of rfl hsafe) (by simpa using hlo),
      Number.toNat_ofNat n⟩

theorem literal_eq_some_iff {s : Text} {v : Value} {u : Unit} :
    literal s v = some u ↔ SameJson v (.string s) := by
  rw [sameJson_string_iff]
  cases v with
  | string t => simp [literal]
  | _ => simp [literal]

/-- A schema that accepts what is the same JSON as a value it stands for. -/
def Reads {α : Type} (schema : Schema α) (toValue : α → Value) (valid : α → Prop) : Prop :=
  ∀ v a, schema v = some a ↔ SameJson v (toValue a) ∧ valid a

section Reads

variable {α : Type}

/-- A record is read field by field. -/
theorem Reads.bind_eq_some_iff {β : Type} {schema : Schema α} {toValue : α → Value}
    {valid : α → Prop} (h : Reads schema toValue valid) {v : Value} {rest : α → Option β} {b : β} :
    (schema v).bind rest = some b ↔ ∃ a, (SameJson v (toValue a) ∧ valid a) ∧ rest a = some b := by
  simp only [Option.bind_eq_some_iff, h v _]

theorem mapM_eq_some_iff {f : Value → Option α} : ∀ {vs : List Value} {as : List α},
    vs.mapM f = some as ↔ List.Forall₂ (fun v a => f v = some a) vs as := by
  intro vs
  induction vs with
  | nil =>
    intro as
    rw [List.mapM_nil, List.forall₂_nil_left_iff]
    exact ⟨fun h => (Option.some.inj h).symm, fun h => h ▸ rfl⟩
  | cons v vs ih =>
    intro as
    rw [List.mapM_cons, List.forall₂_cons_left_iff]
    constructor
    · intro h
      obtain ⟨a, ha, h⟩ := Option.bind_eq_some_iff.mp h
      obtain ⟨rest, hrest, h⟩ := Option.bind_eq_some_iff.mp h
      cases h
      exact ⟨a, rest, ha, ih.mp hrest, rfl⟩
    · rintro ⟨a, rest, ha, hrest, rfl⟩
      exact Option.bind_eq_some_iff.mpr ⟨a, ha, Option.bind_eq_some_iff.mpr ⟨rest, ih.mpr hrest, rfl⟩⟩

theorem Reads.array {schema : Schema α} {toValue : α → Value} {valid : α → Prop}
    (h : Reads schema toValue valid) : Reads (array schema)
      (fun as => .array (as.map toValue)) (fun as => ∀ a ∈ as, valid a) := by
  intro v as
  rw [sameJson_array_iff]
  constructor
  · intro harray
    cases v with
    | array items =>
      have hall := mapM_eq_some_iff.mp harray
      refine ⟨⟨items, rfl, ?_⟩, ?_⟩
      · rw [List.forall₂_map_right_iff]
        exact hall.imp fun w a hw => ((h w a).mp hw).1
      · intro a ha
        obtain ⟨w, _, hw⟩ := exists_of_forall₂_right hall ha
        exact ((h w a).mp hw).2
    | _ => cases harray
  · rintro ⟨⟨items, rfl, hsame⟩, hvalid⟩
    refine mapM_eq_some_iff.mpr ?_
    rw [List.forall₂_map_right_iff] at hsame
    have hboth : List.Forall₂ (fun w a => SameJson w (toValue a) ∧ valid a) items as :=
      forall₂_and_right.mpr ⟨hsame, hvalid⟩
    exact hboth.imp fun w a hw => (h w a).mpr hw

theorem Reads.refine {schema : Schema α} {toValue : α → Value} {valid : α → Prop}
    (h : Reads schema toValue valid) (p : α → Bool) :
    Reads (schema.refine p) toValue (fun a => valid a ∧ p a = true) := by
  intro v a
  rw [refine_eq_some, h v a, and_assoc]

/-- A strict object reads a record when its fields are read. -/
theorem reads_strictObject {keys : List Text} {read : (Text → Value) → Option α}
    {fields : α → List (Text × Value)} {valid : α → Prop} (hnodup : keys.Nodup)
    (hkeys : ∀ a, valid a → (fields a).map Prod.fst = keys)
    (hread : ∀ ps a, read (field ps) = some a ↔
      (∀ f ∈ fields a, SameJson (field ps f.1) f.2) ∧ valid a) :
    Reads (strictObject keys read) (fun a => .object (fields a)) valid := by
  intro v a
  have hrecord : valid a → ((fields a).map Prod.fst).Nodup := by
    intro hvalid
    rw [hkeys a hvalid]
    exact hnodup
  have hall : ∀ ps : List (Text × Value),
      (ps.all fun p => keys.contains p.1) = true ↔ ∀ p ∈ ps, p.1 ∈ keys := by
    simp [List.all_eq_true]
  constructor
  · intro h
    cases v with
    | object ps =>
      rw [strictObject] at h
      split at h
      · next hin =>
        obtain ⟨hsame, hvalid⟩ := (hread ps a).mp h
        refine ⟨(sameJson_record_iff (hrecord hvalid)).mpr ⟨ps, rfl, ?_, hsame⟩, hvalid⟩
        rw [hkeys a hvalid]
        exact (hall ps).mp hin
      · cases h
    | _ => cases h
  · rintro ⟨hsame, hvalid⟩
    obtain ⟨ps, rfl, hin, hfields⟩ := (sameJson_record_iff (hrecord hvalid)).mp hsame
    rw [hkeys a hvalid] at hin
    rw [strictObject, if_pos ((hall ps).mpr hin)]
    exact (hread ps a).mpr ⟨hfields, hvalid⟩

/-- `z.discriminatedUnion(key, [...])`: the option that the property names reads the value. -/
def discriminatedUnion (key : Text) (options : List (Text × Schema α)) : Schema α
  | .object ps =>
    match field ps key with
    | .string s =>
      match options.find? fun option => option.1 == s with
      | some option => option.2 (.object ps)
      | none => none
    | _ => none
  | _ => none

/-- The value is read by one of the options. -/
theorem exists_of_discriminatedUnion {key : Text} {options : List (Text × Schema α)} {v : Value}
    {a : α} (h : discriminatedUnion key options v = some a) :
    ∃ option ∈ options, option.2 v = some a := by
  cases v with
  | object ps =>
    rw [discriminatedUnion] at h
    split at h
    · split at h
      · next option hfind => exact ⟨option, List.mem_of_find?_eq_some hfind, h⟩
      · cases h
    · cases h
  | _ => cases h

/-- A value whose property names an option is read by it. -/
theorem discriminatedUnion_of_sameJson {key name : Text} {options : List (Text × Schema α)}
    {option : Text × Schema α} {v : Value} {fields : List (Text × Value)}
    (hnodup : (fields.map Prod.fst).Nodup) (hname : (key, .string name) ∈ fields)
    (h : SameJson v (.object fields))
    (hfind : (options.find? fun option => option.1 == name) = some option) :
    discriminatedUnion key options v = option.2 v := by
  obtain ⟨ps, rfl, _, hsame⟩ := (sameJson_record_iff hnodup).mp h
  have hfield := sameJson_string_iff.mp (hsame _ hname)
  rw [discriminatedUnion, hfield]
  simp only [hfind]

end Reads

end Schema

end Js
