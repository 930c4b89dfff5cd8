import Mathlib.Data.List.TakeWhile
import SupabaseUserMcp.Js.JsonText

/- `JSON.parse`, by recursive descent. Every call consumes a code unit, so that the
   length of the text is fuel enough: a text that stands for a value is read as it,
   and so printing and parsing a JSON value is no change. -/
namespace Js

/-! Tokens. -/

def isJsonBlank (u : UInt16) : Bool := u == 0x20 || u == 0x09 || u == 0x0A || u == 0x0D

def skipBlanks (s : Text) : Text := s.dropWhile isJsonBlank

/-- What follows the token `u`. -/
def token (u : UInt16) (s : Text) : Option Text :=
  match skipBlanks s with
  | [] => none
  | v :: rest => if v = u then some rest else none

/-- What follows a word. -/
def word (w s : Text) : Option Text := if w.isPrefixOf s then some (s.drop w.length) else none

/-- The four digits of a `\\uXXXX`, in either case. -/
def readUnicode : Text → Option (UInt16 × Text)
  | a :: b :: c :: d :: rest => do
    let a ← hexValue a
    let b ← hexValue b
    let c ← hexValue c
    let d ← hexValue d
    some (UInt16.ofNat (4096 * a + 256 * b + 16 * c + d), rest)
  | _ => none

def readEscape : Text → Option (UInt16 × Text)
  | [] => none
  | e :: rest => if e = 0x75 then readUnicode rest else (unescape? e).map fun u => (u, rest)

/-- One code unit of a string. -/
def readUnit : Text → Option (UInt16 × Text)
  | [] => none
  | u :: rest =>
    if u = 0x5C then readEscape rest else if isUnescaped u then some (u, rest) else none

/-- A string up to its closing quote. -/
def readBody : ℕ → Text → Option (Text × Text)
  | 0, _ => none
  | _ + 1, [] => none
  | fuel + 1, u :: rest =>
    if u = 0x22 then some ([], rest)
    else do
      let (v, rest) ← readUnit (u :: rest)
      let (s, rest) ← readBody fuel rest
      some (v :: s, rest)

/-! Values. -/

/-- `object[key] = v`: an own property keeps its place, a new one gets it by its key. -/
def setProperty (properties : List (Text × Value)) (key : Text) (v : Value) :
    List (Text × Value) :=
  if key ∈ properties.map Prod.fst then
    properties.map fun p => if p.1 = key then (key, v) else p
  else properties.takeWhile (fun p => precedes p.1 key) ++
    (key, v) :: properties.dropWhile fun p => precedes p.1 key

mutual

/-- The value at the head of a text. -/
def readValue : ℕ → Text → Option (Value × Text)
  | 0, _ => none
  | fuel + 1, s =>
    match skipBlanks s with
    | [] => none
    | u :: rest =>
      if u = 0x22 then (readBody (rest.length + 1) rest).map fun p => (.string p.1, p.2)
      else if u = 0x5B then
        match token 0x5D rest with
        | some rest => some (.array [], rest)
        | none => (readItems fuel rest).map fun p => (.array p.1, p.2)
      else if u = 0x7B then
        match token 0x7D rest with
        | some rest => some (.object [], rest)
        | none => (readMembers fuel [] rest).map fun p => (.object p.1, p.2)
      else if u = 0x6E then (word (text "null") (u :: rest)).map fun rest => (.null, rest)
      else if u = 0x74 then (word (text "true") (u :: rest)).map fun rest => (.bool true, rest)
      else if u = 0x66 then (word (text "false") (u :: rest)).map fun rest => (.bool false, rest)
      else (readNumber (u :: rest)).map fun p => (.number (nearestDouble p.1), p.2)

/-- The items of an array up to its closing bracket. -/
def readItems : ℕ → Text → Option (List Value × Text)
  | 0, _ => none
  | fuel + 1, s => do
    let (v, s) ← readValue fuel s
    match token 0x2C s with
    | some s =>
      let (items, s) ← readItems fuel s
      some (v :: items, s)
    | none => (token 0x5D s).map fun s => ([v], s)

/-- The properties of an object up to its closing brace, after those before. -/
def readMembers : ℕ → List (Text × Value) → Text → Option (List (Text × Value) × Text)
  | 0, _, _ => none
  | fuel + 1, properties, s => do
    let s ← token 0x22 s
    let (key, s) ← readBody (s.length + 1) s
    let s ← token 0x3A s
    let (v, s) ← readValue fuel s
    match token 0x2C s with
    | some s => readMembers fuel (setProperty properties key v) s
    | none => (token 0x7D s).map fun s => (setProperty properties key v, s)

end

/-- `JSON.parse(s)`, `none` where it throws. -/
def jsonParse (s : Text) : Option Value :=
  match readValue (s.length + 1) s with
  | some (v, rest) => if skipBlanks rest = [] then some v else none
  | none => none

example : (jsonParse (text "[10e-1 , [ ], -0,\"\\u004F\\t\",false]")).map (stringify fun _ => []) =
    some (text "[1,[],0,\"O\\t\",false]") := by decide +kernel

/-! Reading what stands for a value. -/

theorem skipBlanks_cons {u : UInt16} (h : isJsonBlank u = false) (rest : Text) :
    skipBlanks (u :: rest) = u :: rest := by
  rw [skipBlanks, List.dropWhile_cons, h]
  rfl

theorem token_cons {u : UInt16} (h : isJsonBlank u = false) (rest : Text) :
    token u (u :: rest) = some rest := by
  rw [token, skipBlanks_cons h]
  exact if_pos rfl

theorem token_cons_of_ne {u v : UInt16} (h : isJsonBlank v = false) (hne : v ≠ u) (rest : Text) :
    token u (v :: rest) = none := by
  rw [token, skipBlanks_cons h]
  exact if_neg hne

theorem word_append (w rest : Text) : word w (w ++ rest) = some rest := by
  rw [word, if_pos (List.isPrefixOf_iff_prefix.mpr (List.prefix_append w rest)),
    List.drop_left]

theorem endsNumber_cons {u : UInt16} (h : isNumberUnit u = false) (rest : Text) :
    EndsNumber (u :: rest) := by
  intro v hv
  obtain rfl : u = v := by simpa using hv
  exact h

theorem readUnicode_unicodeEscape (u : UInt16) (rest : Text) :
    readEscape ((unicodeEscape u).tail ++ rest) = some (u, rest) := by
  have hu := u.toNat_lt
  have hdigits : 4096 * (u.toNat / 4096) + 256 * (u.toNat / 256 % 16) + 16 * (u.toNat / 16 % 16) +
      u.toNat % 16 = u.toNat := by omega
  have htail : (unicodeEscape u).tail = 0x75 :: [hexDigit (u.toNat / 4096),
    hexDigit (u.toNat / 256 % 16), hexDigit (u.toNat / 16 % 16), hexDigit (u.toNat % 16)] := rfl
  rw [htail]
  simp only [List.cons_append, List.nil_append, readEscape, if_true, readUnicode]
  rw [hexValue_hexDigit (by omega), hexValue_hexDigit (by omega), hexValue_hexDigit (by omega),
    hexValue_hexDigit (by omega)]
  simp only [Option.bind_eq_bind, Option.bind_some, hdigits, UInt16.ofNat_toNat]

/-- A spelled string is read as what it spells. -/
theorem readBody_of_spells {body s : Text} (h : Spells body s) {fuel : ℕ}
    (hfuel : body.length < fuel) (rest : Text) :
    readBody fuel (body ++ 0x22 :: rest) = some (s, rest) := by
  induction h generalizing fuel with
  | nil =>
    obtain ⟨fuel, rfl⟩ : ∃ k, fuel = k + 1 := ⟨fuel - 1, by omega⟩
    exact if_pos rfl
  | @unit u body s hu _ ih =>
    obtain ⟨fuel, rfl⟩ : ∃ k, fuel = k + 1 := ⟨fuel - 1, by omega⟩
    rw [List.length_cons] at hfuel
    have hne : u ≠ 0x22 ∧ u ≠ 0x5C := by
      constructor <;> (rintro rfl; exact absurd hu (by decide))
    rw [List.cons_append, readBody, if_neg hne.1, readUnit, if_neg hne.2, if_pos hu]
    simp only [Option.bind_eq_bind, Option.bind_some, ih (show body.length < fuel by omega)]
  | @escape e u body s he _ ih =>
    obtain ⟨fuel, rfl⟩ : ∃ k, fuel = k + 1 := ⟨fuel - 1, by omega⟩
    rw [List.length_cons, List.length_cons] at hfuel
    have hne : e ≠ 0x75 := by
      rintro rfl
      exact absurd he (by simp [unescape?])
    rw [List.cons_append, List.cons_append, readBody, if_neg (by decide), readUnit, if_pos rfl,
      readEscape, if_neg hne, he]
    simp only [Option.map_some, Option.bind_eq_bind, Option.bind_some,
      ih (show body.length < fuel by omega)]
  | @unicode u body s _ ih =>
    obtain ⟨fuel, rfl⟩ : ∃ k, fuel = k + 1 := ⟨fuel - 1, by omega⟩
    have hescape : unicodeEscape u = 0x5C :: (unicodeEscape u).tail := rfl
    rw [List.length_append, hescape, List.length_cons] at hfuel
    rw [hescape, List.cons_append, List.cons_append, readBody, if_neg (by decide), readUnit,
      if_pos rfl, List.append_assoc, readUnicode_unicodeEscape]
    simp only [Option.bind_eq_bind, Option.bind_some, ih (show body.length < fuel by omega)]

theorem readBody_length {body s : Text} (h : Spells body s) (rest : Text) :
    readBody ((body ++ 0x22 :: rest).length + 1) (body ++ 0x22 :: rest) = some (s, rest) := by
  refine readBody_of_spells h ?_ rest
  rw [List.length_append]
  omega

/-- A new property that comes last stands last. -/
theorem setProperty_of_precedes {properties : List (Text × Value)} {key : Text}
    (hnew : key ∉ properties.map Prod.fst)
    (hlast : ∀ first ∈ properties.map Prod.fst, precedes first key = true) (v : Value) :
    setProperty properties key v = properties ++ [(key, v)] := by
  have hall : ∀ p ∈ properties, precedes p.1 key = true := fun p hp =>
    hlast p.1 (List.mem_map.mpr ⟨p, hp, rfl⟩)
  rw [setProperty, if_neg hnew, List.takeWhile_eq_self_iff.mpr hall,
    List.dropWhile_eq_nil_iff.mpr hall]

/-- The first unit of what stands for a value. -/
def isValueHead (u : UInt16) : Bool :=
  u == 0x22 || u == 0x2D || isDigit u || u == 0x5B || u == 0x66 || u == 0x6E || u == 0x74 || u == 0x7B

theorem NumberLiteral.head_text (l : NumberLiteral) :
    ∃ u rest, l.text = u :: rest ∧ (u = 0x2D ∨ isDigit u = true) := by
  rw [text]
  split
  · exact ⟨_, _, rfl, Or.inl rfl⟩
  · obtain ⟨u, us, hdigits⟩ := List.exists_cons_of_ne_nil l.integer.prop.1
    refine ⟨u, us ++ l.fractionPart ++ l.exponentPart, ?_, Or.inr ?_⟩
    · rw [unsignedText, hdigits]
      simp only [List.cons_append]
    · exact l.integer.prop.2 u (by rw [hdigits]; exact List.mem_cons_self)

theorem head_of_encodes {v : Value} {json : Text} (h : Encodes v json) :
    ∃ u rest, json = u :: rest ∧ isValueHead u = true := by
  cases h with
  | null => exact ⟨_, _, rfl, by decide⟩
  | true => exact ⟨_, _, rfl, by decide⟩
  | false => exact ⟨_, _, rfl, by decide⟩
  | number l _ =>
    obtain ⟨u, rest, htext, hu⟩ := l.head_text
    refine ⟨u, rest, htext, ?_⟩
    rcases hu with rfl | hu
    · decide
    · simp [isValueHead, hu]
  | string _ => exact ⟨_, _, rfl, by decide⟩
  | array _ _ => exact ⟨_, _, rfl, by decide⟩
  | object _ _ _ _ _ => exact ⟨_, _, rfl, by decide⟩

theorem isJsonBlank_of_isValueHead {u : UInt16} (h : isValueHead u = true) :
    isJsonBlank u = false ∧ u ≠ 0x5D := by
  simp only [isValueHead, isDigit, isJsonBlank, Bool.or_eq_true, Bool.or_eq_false_iff,
    Bool.and_eq_true, beq_iff_eq, beq_eq_false_iff_ne, decide_eq_true_eq, UInt16.le_iff_toNat_le,
    ne_eq, ← UInt16.toNat_inj] at h ⊢
  simp only [UInt16.reduceToNat] at h ⊢
  omega

/-- A number is read where the first unit is none of the others. -/
theorem readValue_number (l : NumberLiteral) {rest : Text} (hends : EndsNumber rest) (fuel : ℕ) :
    readValue (fuel + 1) (l.text ++ rest) = some (.number (nearestDouble l.value), rest) := by
  have hread := l.readNumber_append hends
  obtain ⟨u, us, htext, hu⟩ := l.head_text
  have hne : isJsonBlank u = false ∧ u ≠ 0x22 ∧ u ≠ 0x5B ∧ u ≠ 0x7B ∧ u ≠ 0x6E ∧ u ≠ 0x74 ∧
      u ≠ 0x66 := by
    simp only [isDigit, isJsonBlank, Bool.or_eq_false_iff, Bool.and_eq_true, beq_eq_false_iff_ne,
      decide_eq_true_eq, UInt16.le_iff_toNat_le, ne_eq, ← UInt16.toNat_inj] at hu ⊢
    simp only [UInt16.reduceToNat] at hu ⊢
    omega
  rw [htext, List.cons_append] at hread ⊢
  rw [readValue, skipBlanks_cons hne.1]
  simp only [if_neg hne.2.1, if_neg hne.2.2.1, if_neg hne.2.2.2.1, if_neg hne.2.2.2.2.1,
    if_neg hne.2.2.2.2.2.1, if_neg hne.2.2.2.2.2.2, hread, Option.map_some]

/-- With the fuel of its length, `readValue` reads `json` as `v` whatever follows. -/
def ReadAs (v : Value) (json : Text) : Prop :=
  ∀ {fuel : ℕ} {rest : Text}, json.length < fuel → EndsNumber rest →
    readValue fuel (json ++ rest) = some (v, rest)

theorem readItems_commaJoin {items : List (Value × Text)} (hne : items ≠ [])
    (h : ∀ p ∈ items, ReadAs p.1 p.2) {fuel : ℕ}
    (hfuel : (commaJoin (items.map Prod.snd)).length + 1 < fuel) (rest : Text) :
    readItems fuel (commaJoin (items.map Prod.snd) ++ 0x5D :: rest) =
      some (items.map Prod.fst, rest) := by
  induction items generalizing fuel with
  | nil => exact absurd rfl hne
  | cons p items ih =>
    obtain ⟨fuel, rfl⟩ : ∃ k, fuel = k + 1 := ⟨fuel - 1, by omega⟩
    obtain ⟨hp, hitems⟩ := List.forall_mem_cons.mp h
    cases items with
    | nil =>
      simp only [List.map_cons, List.map_nil, commaJoin_singleton] at hfuel ⊢
      rw [readItems, hp (by omega) (endsNumber_cons (by decide) rest)]
      simp only [Option.bind_eq_bind, Option.bind_some]
      rw [token_cons_of_ne (by decide) (by decide), token_cons (by decide)]
      rfl
    | cons q items =>
      have htail := fun hlength : (commaJoin ((q :: items).map Prod.snd)).length + 1 < fuel =>
        ih (List.cons_ne_nil q items) hitems hlength
      simp only [List.map_cons, commaJoin_cons_cons, List.length_append, List.length_cons,
        List.append_assoc, List.cons_append] at hfuel htail ⊢
      rw [readItems, hp (by omega) (endsNumber_cons (by decide) _)]
      simp only [Option.bind_eq_bind, Option.bind_some]
      rw [token_cons (by decide)]
      simp only [htail (by omega), Option.bind_some]

theorem token_member (m : Member) (rest : Text) : token 0x22 (m.text ++ rest) =
    some (m.body ++ 0x22 :: 0x3A :: (m.json ++ rest)) := by
  simp only [Member.text, List.cons_append, List.append_assoc]
  exact token_cons (by decide) _

theorem readMembers_commaJoin {members : List Member} (hne : members ≠ [])
    (hkeys : ∀ m ∈ members, Spells m.body m.key) (h : ∀ m ∈ members, ReadAs m.value m.json)
    {before : List (Text × Value)}
    (hnodup : (before.map Prod.fst ++ members.map Member.key).Nodup)
    (horder : (before.map Prod.fst ++ members.map Member.key).Pairwise
      fun first second => precedes first second = true) {fuel : ℕ}
    (hfuel : (commaJoin (members.map Member.text)).length + 1 < fuel) (rest : Text) :
    readMembers fuel before (commaJoin (members.map Member.text) ++ 0x7D :: rest) =
      some (before ++ members.map fun m => (m.key, m.value), rest) := by
  induction members generalizing fuel before with
  | nil => exact absurd rfl hne
  | cons m members ih =>
    obtain ⟨fuel, rfl⟩ : ∃ k, fuel = k + 1 := ⟨fuel - 1, by omega⟩
    obtain ⟨hm, hmembers⟩ := List.forall_mem_cons.mp h
    obtain ⟨hkey, hothers⟩ := List.forall_mem_cons.mp hkeys
    have hlength : m.text.length = m.body.length + m.json.length + 3 := by
      simp only [Member.text, List.cons_append, List.length_cons, List.length_append]
      omega
    have hset : setProperty before m.key m.value = before ++ [(m.key, m.value)] := by
      refine setProperty_of_precedes ?_ ?_ m.value
      · intro hmem
        exact (List.nodup_append.mp hnodup).2.2 m.key hmem m.key List.mem_cons_self rfl
      · intro first hfirst
        exact (List.pairwise_append.mp horder).2.2 first hfirst m.key List.mem_cons_self
    cases members with
    | nil =>
      simp only [List.map_cons, List.map_nil, commaJoin_singleton] at hfuel ⊢
      rw [readMembers, token_member]
      simp only [Option.bind_eq_bind, Option.bind_some]
      rw [readBody_length hkey]
      simp only [Option.bind_some]
      rw [token_cons (by decide)]
      simp only [Option.bind_some]
      rw [hm (by omega) (endsNumber_cons (by decide) rest)]
      simp only [Option.bind_some]
      rw [token_cons_of_ne (by decide) (by decide), token_cons (by decide), hset]
      rfl
    | cons next members =>
      have hkeysEq : before.map Prod.fst ++ (m :: next :: members).map Member.key =
          (before ++ [(m.key, m.value)]).map Prod.fst ++ (next :: members).map Member.key := by
        simp
      rw [hkeysEq] at hnodup horder
      have htail := fun hlength : (commaJoin ((next :: members).map Member.text)).length + 1 < fuel =>
        ih (List.cons_ne_nil next members) hothers hmembers hnodup horder hlength
      simp only [List.map_cons, commaJoin_cons_cons, List.length_append, List.length_cons,
        List.append_assoc, List.cons_append, List.nil_append] at hfuel htail ⊢
      rw [readMembers, token_member]
      simp only [Option.bind_eq_bind, Option.bind_some]
      rw [readBody_length hkey]
      simp only [Option.bind_some]
      rw [token_cons (by decide)]
      simp only [Option.bind_some]
      rw [hm (by omega) (endsNumber_cons (by decide) _)]
      simp only [Option.bind_some]
      rw [token_cons (by decide), hset]
      exact htail (by omega)

theorem readAs_of_encodes {v : Value} {json : Text} (h : Encodes v json) : ReadAs v json := by
  induction h with
  | null =>
    intro fuel rest hfuel _
    obtain ⟨fuel, rfl⟩ : ∃ k, fuel = k + 1 := ⟨fuel - 1, by omega⟩
    exact congrArg (Option.map _) (word_append (text "null") rest)
  | true =>
    intro fuel rest hfuel _
    obtain ⟨fuel, rfl⟩ : ∃ k, fuel = k + 1 := ⟨fuel - 1, by omega⟩
    exact congrArg (Option.map _) (word_append (text "true") rest)
  | false =>
    intro fuel rest hfuel _
    obtain ⟨fuel, rfl⟩ : ∃ k, fuel = k + 1 := ⟨fuel - 1, by omega⟩
    exact congrArg (Option.map _) (word_append (text "false") rest)
  | number l hl =>
    intro fuel rest hfuel hends
    obtain ⟨fuel, rfl⟩ : ∃ k, fuel = k + 1 := ⟨fuel - 1, by omega⟩
    rw [readValue_number l hends, hl]
  | @string body s hs =>
    intro fuel rest hfuel _
    obtain ⟨fuel, rfl⟩ : ∃ k, fuel = k + 1 := ⟨fuel - 1, by omega⟩
    simp only [List.cons_append, List.append_assoc, List.nil_append]
    rw [readValue, skipBlanks_cons (by decide)]
    simp only [if_true]
    rw [readBody_length hs]
    rfl
  | array items hitems ih =>
    intro fuel rest hfuel _
    obtain ⟨fuel, rfl⟩ : ∃ k, fuel = k + 1 := ⟨fuel - 1, by omega⟩
    simp only [List.length_cons, List.length_append, List.cons_append, List.nil_append,
      List.append_assoc, List.length_nil] at hfuel ⊢
    rw [readValue, skipBlanks_cons (by decide)]
    simp only [show ¬ ((0x5B : UInt16) = 0x22) by decide, if_false, if_true]
    cases items with
    | nil => rfl
    | cons p items =>
      obtain ⟨u, us, hhead, hu⟩ := head_of_encodes (hitems p List.mem_cons_self)
      have hblank := isJsonBlank_of_isValueHead hu
      have hnone : token 0x5D (commaJoin ((p :: items).map Prod.snd) ++ 0x5D :: rest) = none := by
        cases items with
        | nil =>
          rw [List.map_cons, List.map_nil, commaJoin_singleton, hhead]
          exact token_cons_of_ne hblank.1 hblank.2 _
        | cons q items =>
          rw [List.map_cons, List.map_cons, commaJoin_cons_cons, hhead]
          exact token_cons_of_ne hblank.1 hblank.2 _
      rw [hnone, readItems_commaJoin (List.cons_ne_nil p items) ih (by omega)]
      rfl
  | object members hnodup horder hkeys _ ih =>
    intro fuel rest hfuel _
    obtain ⟨fuel, rfl⟩ : ∃ k, fuel = k + 1 := ⟨fuel - 1, by omega⟩
    simp only [List.length_cons, List.length_append, List.cons_append, List.nil_append,
      List.append_assoc, List.length_nil] at hfuel ⊢
    rw [readValue, skipBlanks_cons (by decide)]
    simp only [show ¬ ((0x7B : UInt16) = 0x22) by decide, show ¬ ((0x7B : UInt16) = 0x5B) by decide,
      if_false, if_true]
    cases members with
    | nil => rfl
    | cons m members =>
      have hnone : token 0x7D (commaJoin ((m :: members).map Member.text) ++ 0x7D :: rest) =
          none := by
        cases members with
        | nil =>
          rw [List.map_cons, List.map_nil, commaJoin_singleton]
          exact token_cons_of_ne (by decide) (by decide) _
        | cons next members =>
          rw [List.map_cons, List.map_cons, commaJoin_cons_cons]
          exact token_cons_of_ne (by decide) (by decide) _
      have hmembers := @readMembers_commaJoin (m :: members) (List.cons_ne_nil m members) hkeys ih []
        hnodup horder fuel (by omega) rest
      rw [hnone, hmembers]
      rfl

/-- A text that stands for a value is parsed as it. -/
theorem jsonParse_of_encodes {v : Value} {json : Text} (h : Encodes v json) :
    jsonParse json = some v := by
  have hread : readValue (json.length + 1) (json ++ []) = some (v, []) :=
    readAs_of_encodes h (Nat.lt_succ_self _) (by simp [EndsNumber])
  rw [List.append_nil] at hread
  rw [jsonParse, hread]
  rfl

/-- Printing a JSON value and parsing the text gives the value back. -/
theorem jsonParse_stringify (fractionText : ℚ → Text) {v : Value} (hv : v.IsJson)
    (hlegible : ∀ q, v.HasNumber (.finite q) → Legible fractionText q) :
    jsonParse (stringify fractionText v) = some v := by
  obtain ⟨json, hjson, hencodes⟩ := encodes_stringify? fractionText hv hlegible
  rw [stringify, hjson, Option.getD_some]
  exact jsonParse_of_encodes hencodes

end Js
