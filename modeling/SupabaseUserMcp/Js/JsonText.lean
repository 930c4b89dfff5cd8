import SupabaseUserMcp.Js.NumberLiteral

/- JSON texts as a relation: which texts without blanks stand for which value. A
   string has many spellings and everything else has one. What `JSON.stringify` prints
   of a JSON value stands for it, and so does every respelling of that, which is a
   rewriting that leaves alone all that is outside of string literals and turns a
   spelling of a string into another one of it. -/
namespace Js

/-! JSON values. -/

/-- The number of a property key that is an array index. -/
def arrayIndex? (key : Text) : Option ℕ :=
  if key = decimal (decimalValue key) ∧ decimalValue key < 2 ^ 32 - 1 then some (decimalValue key)
  else none

/-- The order of own properties: indices ascending, then the others as they were added. -/
def precedes (first second : Text) : Bool :=
  match arrayIndex? first, arrayIndex? second with
  | some i, some j => i < j
  | some _, none => true
  | none, some _ => false
  | none, none => true

/-- The numbers in a value. -/
inductive Value.HasNumber (n : Number) : Value → Prop
  | here : HasNumber n (.number n)
  | item {items : List Value} {v : Value} : v ∈ items → HasNumber n v → HasNumber n (.array items)
  | property {properties : List (Text × Value)} {p : Text × Value} : p ∈ properties →
      HasNumber n p.2 → HasNumber n (.object properties)

/-- A JSON value: null, a boolean, a finite number, a string, an array or an object
of such values. Properties come in the order of own properties, once each. -/
inductive Value.IsJson : Value → Prop
  | null : IsJson .null
  | bool (b : Bool) : IsJson (.bool b)
  | number (q : ℚ) : IsJson (.number (.finite q))
  | string (s : Text) : IsJson (.string s)
  | array {items : List Value} : (∀ v ∈ items, IsJson v) → IsJson (.array items)
  | object {properties : List (Text × Value)} : (properties.map Prod.fst).Nodup →
      (properties.map Prod.fst).Pairwise (fun first second => precedes first second = true) →
      (∀ p ∈ properties, IsJson p.2) → IsJson (.object properties)

/-! Strings. -/

/-- The code units that stand for themselves. -/
def isUnescaped (u : UInt16) : Bool := 0x20 ≤ u && u ≠ 0x22 && u ≠ 0x5C

/-- What a backslash and a unit stand for. -/
def unescape? (u : UInt16) : Option UInt16 :=
  if u = 0x22 then some 0x22
  else if u = 0x5C then some 0x5C
  else if u = 0x2F then some 0x2F
  else if u = 0x62 then some 0x08
  else if u = 0x66 then some 0x0C
  else if u = 0x6E then some 0x0A
  else if u = 0x72 then some 0x0D
  else if u = 0x74 then some 0x09
  else none

/-- `Spells body s`: between quotes, `body` stands for `s`. -/
inductive Spells : Text → Text → Prop
  | nil : Spells [] []
  | unit {u : UInt16} {body s : Text} : isUnescaped u = true → Spells body s →
      Spells (u :: body) (u :: s)
  | escape {e u : UInt16} {body s : Text} : unescape? e = some u → Spells body s →
      Spells (0x5C :: e :: body) (u :: s)
  | unicode (u : UInt16) {body s : Text} : Spells body s →
      Spells (unicodeEscape u ++ body) (u :: s)

namespace Spells

theorem append {a b s t : Text} (ha : Spells a s) (hb : Spells b t) :
    Spells (a ++ b) (s ++ t) := by
  induction ha with
  | nil => exact hb
  | unit hu _ ih => exact .unit hu ih
  | escape he _ ih => exact .escape he ih
  | unicode u _ ih =>
    rw [List.append_assoc]
    exact .unicode u ih

theorem of_isUnescaped {s : Text} (h : ∀ u ∈ s, isUnescaped u = true) : Spells s s := by
  induction s with
  | nil => exact .nil
  | cons u s ih =>
    exact .unit (h u List.mem_cons_self) (ih fun v hv => h v (List.mem_cons_of_mem _ hv))

theorem quoteUnit (u : UInt16) : Spells (quoteUnit u) [u] := by
  rw [Js.quoteUnit]
  split_ifs with h1 h2 h3 h4 h5 h6 h7 h8
  · subst h1; exact .escape rfl .nil
  · subst h2; exact .escape rfl .nil
  · subst h3; exact .escape rfl .nil
  · subst h4; exact .escape rfl .nil
  · subst h5; exact .escape rfl .nil
  · subst h6; exact .escape rfl .nil
  · subst h7; exact .escape rfl .nil
  · rw [← List.append_nil (unicodeEscape u)]
    exact .unicode u .nil
  · refine .unit ?_ .nil
    simp only [isUnescaped, h1, h2, Bool.and_eq_true, decide_eq_true_eq, ne_eq, not_false_eq_true,
      and_true]
    exact UInt16.not_lt.mp h8

/-- A surrogate stands for itself. -/
theorem isUnescaped_of_surrogate {u : UInt16} (h : isHighSurrogate u || isLowSurrogate u) :
    isUnescaped u = true := by
  simp only [isHighSurrogate, isLowSurrogate, isUnescaped, Bool.or_eq_true, Bool.and_eq_true,
    decide_eq_true_eq, UInt16.le_iff_toNat_le, ne_eq, ← UInt16.toNat_inj] at h ⊢
  simp only [UInt16.reduceToNat] at h ⊢
  omega

theorem quoteUnits (s : Text) : Spells (quoteUnits s) s := by
  have hescape : ∀ (u : UInt16), Spells (unicodeEscape u) [u] := by
    intro u
    rw [← List.append_nil (unicodeEscape u)]
    exact .unicode u .nil
  fun_induction Js.quoteUnits s with
  | case1 => exact .nil
  | case2 u h => exact hescape u
  | case3 u h => exact quoteUnit u
  | case4 u v rest hhigh hlow ih =>
    exact .unit (isUnescaped_of_surrogate (by rw [hhigh]; rfl))
      (.unit (isUnescaped_of_surrogate (by rw [hlow, Bool.or_true])) ih)
  | case5 u v rest hhigh hlow ih => exact (hescape u).append ih
  | case6 u v rest hhigh hlow ih => exact (hescape u).append ih
  | case7 u v rest hhigh hlow ih => exact (quoteUnit u).append ih

end Spells

/-! Values. -/

@[simp] theorem commaJoin_singleton (part : Text) : commaJoin [part] = part := by
  simp [commaJoin, List.intercalate]

theorem commaJoin_cons_cons (part next : Text) (rest : List Text) :
    commaJoin (part :: next :: rest) = part ++ 0x2C :: commaJoin (next :: rest) := by
  simp [commaJoin, List.intercalate]

/-- A property and how it is spelled. -/
structure Member where
  body : Text
  key : Text
  value : Value
  json : Text

def Member.text (m : Member) : Text := 0x22 :: m.body ++ 0x22 :: 0x3A :: m.json

/-- `Encodes v json`: the JSON text without blanks stands for the value. -/
inductive Encodes : Value → Text → Prop
  | null : Encodes .null (text "null")
  | true : Encodes (.bool true) (text "true")
  | false : Encodes (.bool false) (text "false")
  | number (l : NumberLiteral) {q : ℚ} : nearestDouble l.value = .finite q →
      Encodes (.number (.finite q)) l.text
  | string {body s : Text} : Spells body s → Encodes (.string s) (0x22 :: body ++ [0x22])
  | array (items : List (Value × Text)) : (∀ p ∈ items, Encodes p.1 p.2) →
      Encodes (.array (items.map Prod.fst)) ([0x5B] ++ commaJoin (items.map Prod.snd) ++ [0x5D])
  | object (members : List Member) : (members.map Member.key).Nodup →
      (members.map Member.key).Pairwise (fun first second => precedes first second = Bool.true) →
      (∀ m ∈ members, Spells m.body m.key) → (∀ m ∈ members, Encodes m.value m.json) →
      Encodes (.object (members.map fun m => (m.key, m.value)))
        ([0x7B] ++ commaJoin (members.map Member.text) ++ [0x7D])

/-- The platform prints a number as a literal that is read back as it. -/
def Legible (fractionText : ℚ → Text) (q : ℚ) : Prop :=
  ∃ l : NumberLiteral, jsonNumber fractionText (.finite q) = l.text ∧
    nearestDouble l.value = .finite q

/-- Integers of up to 53 bits are legible on every platform. -/
theorem legible_intCast (fractionText : ℚ → Text) {n : ℤ} (h : n.natAbs ≤ 2 ^ 53) :
    Legible fractionText n := by
  refine ⟨.ofInt n, ?_, ?_⟩
  · rw [NumberLiteral.text_ofInt, jsonNumber, Rat.den_intCast, Rat.num_intCast, if_pos ⟨rfl, h⟩]
  · rw [NumberLiteral.value_ofInt]
    exact nearestDouble_intCast h

section Stringify

variable (fractionText : ℚ → Text)

theorem stringifyItems_of_forall {items : List Value}
    (h : ∀ v ∈ items, ∃ json, stringify? fractionText v = some json ∧ Encodes v json) :
    ∃ pairs : List (Value × Text), (∀ p ∈ pairs, Encodes p.1 p.2) ∧ pairs.map Prod.fst = items ∧
      stringifyItems fractionText items = pairs.map Prod.snd := by
  induction items with
  | nil => exact ⟨[], by simp, rfl, rfl⟩
  | cons v items ih =>
    obtain ⟨json, hjson, hencodes⟩ := h v List.mem_cons_self
    obtain ⟨pairs, hpairs, rfl, hitems⟩ := ih fun w hw => h w (List.mem_cons_of_mem _ hw)
    refine ⟨(v, json) :: pairs, List.forall_mem_cons.mpr ⟨hencodes, hpairs⟩, rfl, ?_⟩
    rw [stringifyItems, hjson, hitems]
    rfl

theorem stringifyProperties_of_forall {properties : List (Text × Value)}
    (h : ∀ p ∈ properties, ∃ json, stringify? fractionText p.2 = some json ∧ Encodes p.2 json) :
    ∃ members : List Member, (∀ m ∈ members, Spells m.body m.key) ∧
      (∀ m ∈ members, Encodes m.value m.json) ∧
      members.map (fun m => (m.key, m.value)) = properties ∧
      stringifyProperties fractionText properties = members.map Member.text := by
  induction properties with
  | nil => exact ⟨[], by simp, by simp, rfl, rfl⟩
  | cons p properties ih =>
    obtain ⟨json, hjson, hencodes⟩ := h p List.mem_cons_self
    obtain ⟨members, hkeys, hvalues, rfl, hmembers⟩ :=
      ih fun q hq => h q (List.mem_cons_of_mem _ hq)
    refine ⟨⟨quoteUnits p.1, p.1, p.2, json⟩ :: members,
      List.forall_mem_cons.mpr ⟨.quoteUnits p.1, hkeys⟩,
      List.forall_mem_cons.mpr ⟨hencodes, hvalues⟩, rfl, ?_⟩
    rw [stringifyProperties, hjson, hmembers]
    simp [Member.text, quote]

/-- What `JSON.stringify` prints of a JSON value stands for it. -/
theorem encodes_stringify? {v : Value} (hv : v.IsJson)
    (hlegible : ∀ q, v.HasNumber (.finite q) → Legible fractionText q) :
    ∃ json, stringify? fractionText v = some json ∧ Encodes v json := by
  induction hv with
  | null => exact ⟨_, rfl, .null⟩
  | bool b =>
    cases b with
    | true => exact ⟨_, rfl, .true⟩
    | false => exact ⟨_, rfl, .false⟩
  | number q =>
    obtain ⟨l, hl, hvalue⟩ := hlegible q .here
    refine ⟨_, rfl, ?_⟩
    rw [hl]
    exact .number l hvalue
  | string s => exact ⟨_, rfl, .string (.quoteUnits s)⟩
  | array hitems ih =>
    obtain ⟨pairs, hpairs, rfl, htexts⟩ := stringifyItems_of_forall fractionText
      fun v hv => ih v hv fun q hq => hlegible q (.item hv hq)
    refine ⟨_, rfl, ?_⟩
    rw [htexts]
    exact .array pairs hpairs
  | object hnodup horder hproperties ih =>
    obtain ⟨members, hkeys, hvalues, rfl, htexts⟩ :=
      stringifyProperties_of_forall fractionText
        fun p hp => ih p hp fun q hq => hlegible q (.property hp hq)
    rw [List.map_map] at hnodup horder
    refine ⟨_, rfl, ?_⟩
    rw [htexts]
    exact .object members hnodup horder hkeys hvalues

end Stringify

/-! Respelling. -/

/-- The code units outside of string literals, quotes included. -/
def isOutsideUnit (u : UInt16) : Bool :=
  isNumberUnit u || isLower u || u == 0x22 || u == 0x2C || u == 0x3A || u == 0x5B || u == 0x5D ||
  u == 0x7B || u == 0x7D

/-- A rewriting that changes no more of a JSON text than how its strings are spelled. -/
structure Respelling (f : Text → Text) : Prop where
  nil : f [] = []
  outside : ∀ (u : UInt16) (rest : Text), isOutsideUnit u = true → f (u :: rest) = u :: f rest
  body : ∀ {body s : Text}, Spells body s → ∃ body', Spells body' s ∧
    ∀ rest, f (body ++ 0x22 :: rest) = body' ++ 0x22 :: f rest

namespace Respelling

variable {f : Text → Text} (hf : Respelling f)

include hf

theorem append {s : Text} (h : ∀ u ∈ s, isOutsideUnit u = true) (rest : Text) :
    f (s ++ rest) = s ++ f rest := by
  induction s with
  | nil => rfl
  | cons u s ih =>
    rw [List.cons_append, hf.outside u _ (h u List.mem_cons_self),
      ih fun v hv => h v (List.mem_cons_of_mem _ hv)]
    rfl

theorem append_commaJoin {α : Type} {parts : List α} {before after : α → Text}
    (h : ∀ a ∈ parts, ∀ rest, f (before a ++ rest) = after a ++ f rest) (rest : Text) :
    f (commaJoin (parts.map before) ++ rest) = commaJoin (parts.map after) ++ f rest := by
  induction parts with
  | nil => rfl
  | cons a parts ih =>
    have ha := h a List.mem_cons_self
    have hparts := ih fun b hb => h b (List.mem_cons_of_mem _ hb)
    cases parts with
    | nil => simpa using ha rest
    | cons b parts =>
      simp only [List.map_cons, commaJoin_cons_cons, List.append_assoc, List.cons_append]
      rw [ha, hf.outside _ _ (by decide)]
      exact congrArg (after a ++ 0x2C :: ·) hparts

theorem append_member {m : Member} {body' json' : Text}
    (hbody : ∀ rest, f (m.body ++ 0x22 :: rest) = body' ++ 0x22 :: f rest)
    (hjson : ∀ rest, f (m.json ++ rest) = json' ++ f rest) (rest : Text) :
    f (m.text ++ rest) = Member.text ⟨body', m.key, m.value, json'⟩ ++ f rest := by
  simp only [Member.text, List.cons_append, List.append_assoc]
  rw [hf.outside _ _ (by decide), hbody, hf.outside _ _ (by decide), hjson]

/-- A respelled JSON text stands for the same value. -/
theorem encodes {v : Value} {json : Text} (h : Encodes v json) :
    ∃ json', Encodes v json' ∧ ∀ rest, f (json ++ rest) = json' ++ f rest := by
  induction h with
  | null => exact ⟨_, .null, hf.append (List.all_eq_true.mp rfl)⟩
  | true => exact ⟨_, .true, hf.append (List.all_eq_true.mp rfl)⟩
  | false => exact ⟨_, .false, hf.append (List.all_eq_true.mp rfl)⟩
  | number l hl =>
    refine ⟨_, .number l hl, hf.append fun u hu => ?_⟩
    simp only [isOutsideUnit, l.isNumberUnit_of_mem_text hu, Bool.true_or]
  | string hs =>
    obtain ⟨body', hbody', hrewrite⟩ := hf.body hs
    refine ⟨_, .string hbody', fun rest => ?_⟩
    simp only [List.cons_append, List.append_assoc, List.nil_append]
    rw [hf.outside _ _ (by decide), hrewrite]
  | array items _ ih =>
    choose! json' hencodes hrewrite using ih
    have harray := Encodes.array (items.map fun p => (p.1, json' p)) (by
      simp only [List.mem_map, forall_exists_index, and_imp, forall_apply_eq_imp_iff₂]
      exact hencodes)
    simp only [List.map_map, Function.comp_def] at harray
    refine ⟨_, harray, fun rest => ?_⟩
    simp only [List.cons_append, List.append_assoc, List.nil_append]
    rw [hf.outside _ _ (by decide), hf.append_commaJoin hrewrite, hf.outside _ _ (by decide)]
  | object members hnodup horder hkeys _ ih =>
    choose! json' hencodes hrewrite using ih
    choose! body' hspells hbody using fun m hm => hf.body (hkeys m hm)
    have hobject := Encodes.object (members.map fun m => ⟨body' m, m.key, m.value, json' m⟩)
    simp only [List.map_map, Function.comp_def, List.mem_map, forall_exists_index, and_imp,
      forall_apply_eq_imp_iff₂] at hobject
    refine ⟨_, hobject hnodup horder hspells hencodes, fun rest => ?_⟩
    have hmembers := hf.append_commaJoin fun m hm =>
      hf.append_member (hbody m hm) (hrewrite m hm)
    simp only [List.cons_append, List.append_assoc, List.nil_append]
    rw [hf.outside _ _ (by decide), hmembers, hf.outside _ _ (by decide)]

theorem encodes_apply {v : Value} {json : Text} (h : Encodes v json) : Encodes v (f json) := by
  obtain ⟨json', hjson', hrewrite⟩ := hf.encodes h
  have hall := hrewrite []
  rw [List.append_nil, hf.nil, List.append_nil] at hall
  rwa [hall]

end Respelling

end Js
