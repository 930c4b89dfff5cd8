import SupabaseUserMcp.Js.Value

/- Validators in the manner of `zod/v4`: a schema reads a value of unknown type
   and returns the typed value it stands for, or nothing where it reports an
   issue. Numbers are finite, integers are safe integers, lengths of texts count
   code units, objects are strict. -/
namespace Js

abbrev Schema (α : Type) := Value → Option α

namespace Schema

variable {α β : Type}

def map (f : α → β) (s : Schema α) : Schema β := fun v => (s v).map f

/-- `.refine(p)`. -/
def refine (s : Schema α) (p : α → Bool) : Schema α := fun v => (s v).filter p

/-- `z.string()`. -/
def string : Schema Text
  | .string s => some s
  | _ => none

/-- `z.number()`: a finite number. -/
def number : Schema Number
  | .number (.finite q) => some (.finite q)
  | _ => none

/-- `z.number().int()`. -/
def int : Schema Number := number.refine Number.isSafeInteger

/-- `z.number().int().min(lo)` with a natural bound, read as a natural number. -/
def nat (lo : ℕ) : Schema ℕ := (int.refine fun x => !x.lt (lo : ℕ)).map Number.toNat

/-- `z.number().int().min(lo).max(hi)` with natural bounds. -/
def natBetween (lo hi : ℕ) : Schema ℕ := (nat lo).refine fun n => n ≤ hi

/-- `z.boolean()`. -/
def boolean : Schema Bool
  | .bool b => some b
  | _ => none

/-- `z.literal(s)` for a string. -/
def literal (s : Text) : Schema Unit
  | .string t => if t = s then some () else none
  | _ => none

/-- `z.literal(b)` for a boolean. -/
def literalBool (b : Bool) : Schema Unit
  | .bool c => if c = b then some () else none
  | _ => none

/-- `z.null()`. -/
def null : Schema Unit
  | .null => some ()
  | _ => none

/-- `z.enum([...])`: the alternative whose name the value is. -/
def enum (alternatives : List (Text × α)) : Schema α
  | .string s => (alternatives.find? fun alternative => alternative.1 == s).map Prod.snd
  | _ => none

/-- `z.instanceof(Uint8Array)`. -/
def uint8Array : Schema Bytes
  | .bytes bytes => some bytes
  | _ => none

/-- `.optional()`. -/
def optional (s : Schema α) : Schema (Option α)
  | .undefined => some none
  | v => (s v).map some

/-- `.default(d)`. -/
def default (d : α) (s : Schema α) : Schema α
  | .undefined => some d
  | v => s v

/-- `.nullable()`. -/
def nullable (s : Schema α) : Schema (Option α)
  | .null => some none
  | v => (s v).map some

/-- `z.array(s)`. -/
def array (s : Schema α) : Schema (List α)
  | .array items => items.mapM s
  | _ => none

/-- `z.array(s).max(n)`. -/
def arrayMax (n : ℕ) (s : Schema α) : Schema (List α) :=
  (array s).refine fun items => items.length ≤ n

/-- `z.union([s, t])`. -/
def union (s t : Schema α) : Schema α := fun v => (s v).orElse fun _ => t v

/-- `z.object({...}).strict()`: every own property is among the keys, and the
properties, read through `field`, are accepted. -/
def strictObject (keys : List Text) (read : (Text → Value) → Option α) : Schema α
  | .object properties =>
    if properties.all fun p => keys.contains p.1 then
      read fun key => (Value.property properties key).getD .undefined
    else none
  | _ => none

/-- `.min(lo).max(hi)` on a string. -/
def lengthBetween (lo hi : ℕ) (s : Schema Text) : Schema Text :=
  s.refine fun t => lo ≤ t.length && t.length ≤ hi

/-- `.regex(/^first rest*$/)` for character classes of code units. -/
def headTail (first rest : UInt16 → Bool) : Text → Bool
  | [] => false
  | u :: us => first u && us.all rest

/-- `.regex(/^prefix[class]+$/)`. -/
def prefixed (start : Text) (rest : UInt16 → Bool) (t : Text) : Bool :=
  start.isPrefixOf t && start.length < t.length && (t.drop start.length).all rest

/-! What a schema lets through. -/

theorem refine_eq_some {s : Schema α} {p : α → Bool} {v : Value} {a : α} :
    s.refine p v = some a ↔ s v = some a ∧ p a = true := by
  simp [refine, Option.filter_eq_some_iff]

theorem map_eq_some {s : Schema α} {f : α → β} {v : Value} {b : β} :
    s.map f v = some b ↔ ∃ a, s v = some a ∧ f a = b := by
  simp [map]

theorem string_eq_some {v : Value} {s : Text} : string v = some s ↔ v = .string s := by
  cases v <;> simp [string]

theorem natBetween_eq_some {lo hi n : ℕ} {v : Value} (h : natBetween lo hi v = some n) :
    lo ≤ n ∧ n ≤ hi := by
  obtain ⟨hnat, hle⟩ := refine_eq_some.mp h
  obtain ⟨x, hx, rfl⟩ := map_eq_some.mp hnat
  obtain ⟨hint, hlo⟩ := refine_eq_some.mp hx
  have hinteger := Number.isInteger_of_isSafeInteger (refine_eq_some.mp hint).2
  obtain ⟨m, rfl, hm⟩ := Number.eq_ofNat_of_isInteger hinteger (by simpa using hlo)
  rw [Number.toNat_ofNat] at hle ⊢
  exact ⟨hm, by simpa using hle⟩

/-- Every item of an accepted array is accepted. -/
theorem array_eq_some {s : Schema α} : ∀ {items : List Value} {as : List α},
    items.mapM s = some as → ∀ a ∈ as, ∃ v, s v = some a := by
  intro items
  induction items with
  | nil =>
    intro as h a ha
    cases h
    cases ha
  | cons v rest ih =>
    intro as h a ha
    rw [List.mapM_cons] at h
    obtain ⟨b, hb, h⟩ := Option.bind_eq_some_iff.mp h
    obtain ⟨bs, hbs, h⟩ := Option.bind_eq_some_iff.mp h
    cases h
    rcases List.mem_cons.mp ha with rfl | hrest
    · exact ⟨v, hb⟩
    · exact ih hbs a hrest

theorem arrayMax_eq_some {n : ℕ} {s : Schema α} {v : Value} {as : List α}
    (h : arrayMax n s v = some as) : as.length ≤ n ∧ ∀ a ∈ as, ∃ w, s w = some a := by
  obtain ⟨harray, hle⟩ := refine_eq_some.mp h
  refine ⟨by simpa using hle, ?_⟩
  cases v with
  | array items => exact array_eq_some harray
  | _ => cases harray

/-! Values that a schema accepts. -/

theorem refine_of {s : Schema α} {p : α → Bool} {v : Value} {a : α} (h : s v = some a)
    (hp : p a = true) : s.refine p v = some a := refine_eq_some.mpr ⟨h, hp⟩

theorem natBetween_ofNat {lo hi n : ℕ} (hlo : lo ≤ n) (hhi : n ≤ hi)
    (hsafe : n ≤ 9007199254740991) : natBetween lo hi (.number n) = some n := by
  refine refine_of ?_ (by simpa using hhi)
  refine map_eq_some.mpr ⟨n, refine_of (refine_of rfl (Number.isSafeInteger_ofNat hsafe)) ?_,
    Number.toNat_ofNat n⟩
  simpa using hlo

theorem arrayMax_map {s : Schema α} {f : α → Value} {as : List α} {n : ℕ} (hlen : as.length ≤ n)
    (h : ∀ a ∈ as, s (f a) = some a) : arrayMax n s (.array (as.map f)) = some as := by
  refine refine_of ?_ (by simpa using hlen)
  show (as.map f).mapM s = some as
  clear hlen
  induction as with
  | nil => rfl
  | cons a rest ih =>
    rw [List.map_cons, List.mapM_cons, h a List.mem_cons_self,
      ih fun b hb => h b (List.mem_cons_of_mem _ hb)]
    rfl

theorem arrayMax_strings {s : Schema Text} {ts : List Text} {n : ℕ} (hlen : ts.length ≤ n)
    (h : ∀ t ∈ ts, s (.string t) = some t) : arrayMax n s (.array (ts.map .string)) = some ts :=
  arrayMax_map hlen h

end Schema

end Js
