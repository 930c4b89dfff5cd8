import SupabaseUserMcp.Js.Json

/- How long a text is. The UTF-8 length of a concatenation is the sum of the
   lengths where no surrogate pair is split. A JSON text that stands in a frame
   twice, once as it is and once inside a string literal, costs its weight: each
   plain unit counts two, a quote or a backslash three. The weight of a value is
   that of its JSON, computed on the value. -/
namespace Js

/-! UTF-8 lengths. -/

/-- A concatenation that splits no surrogate pair. -/
theorem scalars_append : ∀ {a b : Text},
    (a.getLast?.any isHighSurrogate && b.head?.any isLowSurrogate) = false →
    scalars (a ++ b) = scalars a ++ scalars b := by
  intro a b
  induction a using scalars.induct with
  | case1 =>
    intro _
    rfl
  | case2 u =>
    intro h
    cases b with
    | nil => simp [scalars]
    | cons v rest =>
      have hpair : (isHighSurrogate u && isLowSurrogate v) = false := by simpa using h
      by_cases hu : isHighSurrogate u = true
      · have hv : isLowSurrogate v = false := by simpa [hu] using hpair
        simp [scalars, hu, hv]
      · by_cases hl : isLowSurrogate u = true
        · simp [scalars, hu, hl]
        · simp [scalars, hu, hl]
  | case3 u v rest hu hv ih =>
    intro h
    have hrest : (rest.getLast?.any isHighSurrogate && b.head?.any isLowSurrogate) = false := by
      cases rest with
      | nil => rfl
      | cons w rest => simpa using h
    simp [scalars, hu, hv, ih hrest]
  | case4 u v rest hu hv ih =>
    intro h
    have hrest := ih (by simpa using h)
    rw [List.cons_append] at hrest
    simp [scalars, hu, hv, hrest]
  | case5 u v rest hu hl ih =>
    intro h
    have hrest := ih (by simpa using h)
    rw [List.cons_append] at hrest
    simp [scalars, hu, hl, hrest]
  | case6 u v rest hu hl ih =>
    intro h
    have hrest := ih (by simpa using h)
    rw [List.cons_append] at hrest
    simp [scalars, hu, hl, hrest]

theorem utf8Length_append {a b : Text}
    (h : (a.getLast?.any isHighSurrogate && b.head?.any isLowSurrogate) = false) :
    utf8Length (a ++ b) = utf8Length a + utf8Length b := by
  simp [utf8Length, encodeUtf8, scalars_append h]

def isAscii (u : UInt16) : Bool := u < 0x80

theorem not_surrogate_of_isAscii {u : UInt16} (h : isAscii u = true) :
    isHighSurrogate u = false ∧ isLowSurrogate u = false := by
  simp only [isAscii, isHighSurrogate, isLowSurrogate, decide_eq_true_eq, UInt16.lt_iff_toNat_lt,
    UInt16.le_iff_toNat_le, Bool.and_eq_false_iff, decide_eq_false_iff_not] at h ⊢
  simp only [UInt16.reduceToNat] at h ⊢
  omega

theorem scalars_cons_ascii {u : UInt16} (h : isAscii u = true) (s : Text) :
    scalars (u :: s) = Char.ofNat u.toNat :: scalars s := by
  have hu := not_surrogate_of_isAscii h
  cases s <;> simp [scalars, hu]

theorem scalars_ascii {s : Text} (h : s.all isAscii = true) :
    scalars s = s.map fun u => Char.ofNat u.toNat := by
  induction s with
  | nil => rfl
  | cons u rest ih =>
    rw [List.all_cons, Bool.and_eq_true] at h
    rw [scalars_cons_ascii h.1, ih h.2, List.map_cons]

theorem utf8EncodeChar_isAscii {u : UInt16} (h : isAscii u = true) :
    String.utf8EncodeChar (Char.ofNat u.toNat) = [UInt8.ofNat u.toNat] := by
  refine utf8EncodeChar_ascii ?_
  simpa [isAscii, UInt16.lt_iff_toNat_lt] using h

/-- An ASCII text: its units are its bytes. -/
theorem encodeUtf8_ascii {s : Text} (h : s.all isAscii = true) :
    encodeUtf8 s = s.map fun u => UInt8.ofNat u.toNat := by
  rw [encodeUtf8, scalars_ascii h, List.flatMap_map]
  induction s with
  | nil => rfl
  | cons u rest ih =>
    rw [List.all_cons, Bool.and_eq_true] at h
    rw [List.flatMap_cons, ih h.2, utf8EncodeChar_isAscii h.1]
    rfl

theorem utf8Length_ascii {s : Text} (h : s.all isAscii = true) : utf8Length s = s.length := by
  rw [utf8Length, encodeUtf8_ascii h, List.length_map]

/-- ASCII bytes decode to themselves. -/
theorem decodeUtf8_ascii {bytes : Bytes} (h : ∀ b ∈ bytes, b < 0x80) :
    decodeUtf8 bytes = some (bytes.map fun b => UInt16.ofNat b.toNat) := by
  have hsmall : ∀ b ∈ bytes, b.toNat < 0x80 := fun b hb => by
    simpa [UInt8.lt_iff_toNat_lt] using h b hb
  have hencoded : (bytes.map fun b => Char.ofNat b.toNat).flatMap String.utf8EncodeChar = bytes := by
    rw [List.flatMap_map, List.flatMap_congr (g := fun b => [b])]
    · simp
    · intro b hb
      rw [utf8EncodeChar_ascii (hsmall b hb), UInt8.ofNat_toNat]
  have hunits : utf16 (bytes.map fun b => Char.ofNat b.toNat) =
      bytes.map fun b => UInt16.ofNat b.toNat := by
    rw [utf16, List.flatMap_map, List.flatMap_congr (g := fun b => [UInt16.ofNat b.toNat])]
    · exact List.map_eq_flatMap.symm
    · intro b hb
      have hb := hsmall b hb
      interval_cases b.toNat <;> decide
  rw [← hunits, ← decodeUtf8_encoded, hencoded]

/-! Weights. -/

/-- A printable ASCII unit that is no space. -/
def isPlain (u : UInt16) : Bool := 0x21 ≤ u && u < 0x7F

/-- One for the unit itself, and one or two for it in a string literal. -/
def unitWeight (u : UInt16) : ℕ := if u = 0x22 ∨ u = 0x5C then 3 else 2

def weight (s : Text) : ℕ := (s.map unitWeight).sum

@[simp] theorem weight_nil : weight [] = 0 := rfl

@[simp] theorem weight_cons (u : UInt16) (s : Text) : weight (u :: s) = unitWeight u + weight s := rfl

@[simp] theorem weight_append (a b : Text) : weight (a ++ b) = weight a + weight b := by
  simp [weight]

/-- What a unit below U+007F other than the space weighs as part of a literal. -/
def isQuotable (u : UInt16) : Bool := u < 0x7F && u != 0x20

theorem isAscii_of_isPlain {u : UInt16} (h : isPlain u = true) : isAscii u = true := by
  simp only [isPlain, isAscii, Bool.and_eq_true, decide_eq_true_eq, UInt16.lt_iff_toNat_lt] at h ⊢
  simp only [UInt16.reduceToNat] at h ⊢
  omega

theorem isAscii_of_isQuotable {u : UInt16} (h : isQuotable u = true) : isAscii u = true := by
  simp only [isQuotable, isAscii, Bool.and_eq_true, decide_eq_true_eq, UInt16.lt_iff_toNat_lt] at h ⊢
  simp only [UInt16.reduceToNat] at h ⊢
  omega

theorem all_isAscii_of_isPlain {s : Text} (h : s.all isPlain = true) : s.all isAscii = true := by
  rw [List.all_eq_true] at h ⊢
  exact fun u hu => isAscii_of_isPlain (h u hu)

theorem quoteUnits_cons_ascii {u : UInt16} (h : isAscii u = true) (s : Text) :
    quoteUnits (u :: s) = quoteUnit u ++ quoteUnits s := by
  have hu := not_surrogate_of_isAscii h
  cases s <;> simp [quoteUnits, hu]

/-- Without surrogates a literal is quoted unit by unit. -/
theorem quoteUnits_ascii {s : Text} (h : s.all isAscii = true) :
    quoteUnits s = s.flatMap quoteUnit := by
  induction s with
  | nil => rfl
  | cons u rest ih =>
    rw [List.all_cons, Bool.and_eq_true] at h
    rw [quoteUnits_cons_ascii h.1, ih h.2, List.flatMap_cons]

/-- The literal of an ASCII text is ASCII. -/
theorem isAscii_quote {s : Text} (h : s.all isAscii = true) : (quote s).all isAscii = true := by
  have hsmall : ∀ n < 0x80, (quoteUnit (UInt16.ofNat n)).all isAscii = true := by decide
  have hunits : (s.flatMap quoteUnit).all isAscii = true := by
    rw [List.all_flatMap, List.all_eq_true]
    intro u hu
    have hascii := List.all_eq_true.mp h u hu
    rw [isAscii, decide_eq_true_eq, UInt16.lt_iff_toNat_lt] at hascii
    rw [← UInt16.ofNat_toNat (x := u)]
    exact hsmall u.toNat hascii
  rw [quote, quoteUnits_ascii h, List.all_append, List.all_cons, hunits]
  decide

/-- Every escape has at most six units. -/
theorem length_quote_le {s : Text} (h : s.all isAscii = true) : (quote s).length ≤ 6 * s.length + 2 := by
  have hsmall : ∀ n < 0x80, (quoteUnit (UInt16.ofNat n)).length ≤ 6 := by decide
  have hunits : (s.flatMap quoteUnit).length ≤ 6 * s.length := by
    induction s with
    | nil => rfl
    | cons u rest ih =>
      rw [List.all_cons, Bool.and_eq_true] at h
      have hu : u.toNat < 0x80 := by simpa [isAscii, UInt16.lt_iff_toNat_lt] using h.1
      have hunit := hsmall u.toNat hu
      rw [UInt16.ofNat_toNat] at hunit
      have hrest := ih h.2
      rw [List.flatMap_cons, List.length_append, List.length_cons]
      omega
  rw [quote, quoteUnits_ascii h, List.length_append, List.length_cons, List.length_singleton]
  omega

theorem length_quote_append {a b : Text} (ha : a.all isAscii = true) (hb : b.all isAscii = true) :
    (quote (a ++ b)).length + 2 = (quote a).length + (quote b).length := by
  have hab : (a ++ b).all isAscii = true := by rw [List.all_append, ha, hb, Bool.true_and]
  simp only [quote, quoteUnits_ascii ha, quoteUnits_ascii hb, quoteUnits_ascii hab,
    List.flatMap_append, List.length_append, List.length_cons, List.length_nil]
  omega

/-! Literals of any text. -/

theorem utf8Length_cons_ascii {u : UInt16} (h : isAscii u = true) (s : Text) :
    utf8Length (u :: s) = utf8Length s + 1 := by
  rw [utf8Length, encodeUtf8, scalars_cons_ascii h, List.flatMap_cons, utf8EncodeChar_isAscii h]
  simp [utf8Length, encodeUtf8]

theorem utf8Length_append_ascii {a : Text} (h : a.all isAscii = true) (b : Text) :
    utf8Length (a ++ b) = a.length + utf8Length b := by
  induction a with
  | nil => simp
  | cons u rest ih =>
    rw [List.all_cons, Bool.and_eq_true] at h
    rw [List.cons_append, utf8Length_cons_ascii h.1, ih h.2, List.length_cons]
    omega

/-- Every code point takes a byte at least. -/
theorem utf8Length_scalars {c : Char} {s t : Text} (h : scalars s = c :: scalars t) :
    utf8Length t < utf8Length s := by
  rw [utf8Length, encodeUtf8, utf8Length, encodeUtf8, h, List.flatMap_cons, List.length_append,
    String.length_utf8EncodeChar]
  have hpos := c.utf8Size_pos
  omega

theorem isAscii_unicodeEscape (u : UInt16) : (unicodeEscape u).all isAscii = true := by
  have hdigit : ∀ n < 16, isAscii (hexDigit n) = true := by decide
  have hlt := u.toNat_lt
  have hhead : (text "\\u").all isAscii = true := by decide
  rw [unicodeEscape, List.all_append, hhead]
  simp [hdigit _ (by omega : u.toNat / 4096 < 16), hdigit _ (Nat.mod_lt _ (by decide))]

/-- A unit is escaped in ASCII, with at most six units, or stays. -/
theorem quoteUnit_cases (u : UInt16) :
    ((quoteUnit u).all isAscii = true ∧ (quoteUnit u).length ≤ 6) ∨ quoteUnit u = [u] := by
  unfold quoteUnit
  split_ifs
  · exact .inl (by decide)
  · exact .inl (by decide)
  · exact .inl (by decide)
  · exact .inl (by decide)
  · exact .inl (by decide)
  · exact .inl (by decide)
  · exact .inl (by decide)
  · exact .inl ⟨isAscii_unicodeEscape u, le_rfl⟩
  · exact .inr rfl

/-- An escape takes at most six bytes for one. -/
theorem utf8Length_quoteUnits_le (s : Text) : utf8Length (quoteUnits s) ≤ 6 * utf8Length s := by
  -- the escape of a unit that is a code point by itself
  have hescaped : ∀ {e : Text} {c : Char} {s rest : Text}, e.all isAscii = true → e.length ≤ 6 →
      scalars s = c :: scalars rest → utf8Length (quoteUnits rest) ≤ 6 * utf8Length rest →
      utf8Length (e ++ quoteUnits rest) ≤ 6 * utf8Length s := by
    intro e c s rest hascii hlength hs hrest
    rw [utf8Length_append_ascii hascii]
    have hlt := utf8Length_scalars hs
    omega
  have hunit : ∀ {u : UInt16} (rest : Text), isHighSurrogate u = false → isLowSurrogate u = false →
      utf8Length (quoteUnits rest) ≤ 6 * utf8Length rest →
      utf8Length (quoteUnit u ++ quoteUnits rest) ≤ 6 * utf8Length (u :: rest) := by
    intro u rest hhigh hlow hrest
    rcases quoteUnit_cases u with ⟨hascii, hlength⟩ | hsame
    · exact hescaped hascii hlength (scalars_cons_scalar hhigh hlow rest) hrest
    · have hkeep : ∀ t, utf8Length (u :: t) = utf8Length [u] + utf8Length t := by
        intro t
        rw [← List.singleton_append, utf8Length_append (by simp [hhigh])]
      rw [hsame, List.singleton_append, hkeep, hkeep rest]
      omega
  induction s using scalars.induct with
  | case1 => exact Nat.zero_le _
  | case2 u =>
    by_cases hsurrogate : (isHighSurrogate u || isLowSurrogate u) = true
    · have hlone : ∃ c, scalars [u] = c :: scalars [] := by
        simp only [scalars, hsurrogate, if_true]
        exact ⟨_, rfl⟩
      obtain ⟨c, hc⟩ := hlone
      have h := hescaped (isAscii_unicodeEscape u) le_rfl hc (Nat.zero_le _)
      simpa [quoteUnits, hsurrogate] using h
    · rw [Bool.not_eq_true, Bool.or_eq_false_iff] at hsurrogate
      have h := hunit [] hsurrogate.1 hsurrogate.2 (Nat.zero_le _)
      simpa [quoteUnits, hsurrogate] using h
  | case3 u v rest hu hv ih =>
    have hkeep : ∀ t, utf8Length (u :: v :: t) = utf8Length [u, v] + utf8Length t := by
      intro t
      simp [utf8Length, encodeUtf8, scalars, hu, hv]
    rw [quoteUnits, if_pos hu, if_pos hv, hkeep, hkeep rest]
    omega
  | case4 u v rest hu hv ih =>
    rw [quoteUnits, if_pos hu, if_neg hv]
    exact hescaped (isAscii_unicodeEscape u) le_rfl (by simp [scalars, hu, hv]; rfl) ih
  | case5 u v rest hu hl ih =>
    rw [quoteUnits, if_neg hu, if_pos hl]
    exact hescaped (isAscii_unicodeEscape u) le_rfl (by simp [scalars, hu, hl]; rfl) ih
  | case6 u v rest hu hl ih =>
    rw [quoteUnits, if_neg hu, if_neg hl]
    exact hunit _ (by simpa using hu) (by simpa using hl) ih

theorem utf8Length_quote_le (s : Text) : utf8Length (quote s) ≤ 6 * utf8Length s + 2 := by
  have hquote : ((quoteUnits s).getLast?.any isHighSurrogate &&
      (List.head? [(0x22 : UInt16)]).any isLowSurrogate) = false := by
    have hlow : (List.head? [(0x22 : UInt16)]).any isLowSurrogate = false := rfl
    rw [hlow, Bool.and_false]
  have hle := utf8Length_quoteUnits_le s
  have hone : utf8Length [0x22] = 1 := rfl
  rw [quote, List.cons_append, utf8Length_cons_ascii rfl, utf8Length_append hquote, hone]
  omega

/-- The weight of the units of a string inside its literal. -/
def leafWeight (s : Text) : ℕ := (s.map fun u => weight (quoteUnit u)).sum

@[simp] theorem leafWeight_append (a b : Text) : leafWeight (a ++ b) = leafWeight a + leafWeight b := by
  simp [leafWeight]

theorem isPlain_quoteUnit {u : UInt16} (h : isQuotable u = true) :
    (quoteUnit u).all isPlain = true := by
  have hsmall : ∀ n < 0x7F, n ≠ 0x20 → (quoteUnit (UInt16.ofNat n)).all isPlain = true := by decide
  simp only [isQuotable, Bool.and_eq_true, decide_eq_true_eq, bne_iff_ne, ne_eq,
    UInt16.lt_iff_toNat_lt] at h
  rw [← UInt16.ofNat_toNat (x := u)]
  refine hsmall u.toNat h.1 fun hspace => h.2 ?_
  rw [← UInt16.ofNat_toNat (x := u), hspace]
  rfl

/-- The literal of a text of quotable units. -/
theorem quote_measure {s : Text} (h : s.all isQuotable = true) :
    (quote s).all isPlain = true ∧ weight (quote s) = 6 + leafWeight s := by
  have hquote : quote s = 0x22 :: s.flatMap quoteUnit ++ [0x22] := by
    rw [quote, quoteUnits_ascii]
    rw [List.all_eq_true] at h ⊢
    exact fun u hu => isAscii_of_isQuotable (h u hu)
  have hweight : weight (s.flatMap quoteUnit) = leafWeight s := by
    clear h hquote
    induction s with
    | nil => rfl
    | cons u rest ih =>
      rw [List.flatMap_cons, weight_append, ih]
      rfl
  constructor
  · rw [hquote]
    simp only [List.all_cons, List.all_append, List.all_flatMap, List.all_nil, Bool.and_true,
      Bool.and_eq_true]
    refine ⟨⟨by decide, ?_⟩, by decide⟩
    rw [List.all_eq_true] at h ⊢
    exact fun u hu => isPlain_quoteUnit (h u hu)
  · rw [hquote, List.cons_append, weight_cons, weight_append, hweight]
    simp only [weight_cons, weight_nil]
    have : unitWeight 0x22 = 3 := by decide
    omega

/-- Inside another literal a plain text grows to the rest of its weight. -/
theorem length_quote_plain {s : Text} (h : s.all isPlain = true) :
    s.length + (quote s).length = weight s + 2 := by
  rw [quote, quoteUnits_ascii (all_isAscii_of_isPlain h)]
  have hunits : s.length + (s.flatMap quoteUnit).length = weight s := by
    induction s with
    | nil => rfl
    | cons u rest ih =>
      rw [List.all_cons, Bool.and_eq_true] at h
      have hunit : 1 + (quoteUnit u).length = unitWeight u := by
        have hsmall : ∀ n < 0x7F, 0x21 ≤ n → 1 + (quoteUnit (UInt16.ofNat n)).length =
            unitWeight (UInt16.ofNat n) := by decide
        have hu := h.1
        simp only [isPlain, Bool.and_eq_true, decide_eq_true_eq, UInt16.lt_iff_toNat_lt,
          UInt16.le_iff_toNat_le] at hu
        rw [← UInt16.ofNat_toNat (x := u)]
        exact hsmall u.toNat hu.2 hu.1
      have hrest := ih h.2
      simp only [List.flatMap_cons, List.length_cons, List.length_append, weight_cons]
      omega
  simp only [List.length_append, List.length_cons, List.length_nil]
  omega

/-! Numbers and digests. -/

theorem jsonNumber_ofNat (fractionText : ℚ → Text) {n : ℕ} (h : n ≤ 2 ^ 53) :
    jsonNumber fractionText (n : ℕ) = decimal n := by
  have hn : ¬ ((n : ℤ) < 0) := by omega
  show (if ((n : ℚ)).den = 1 ∧ ((n : ℚ)).num.natAbs ≤ 2 ^ 53 then decimalInt (n : ℚ).num
    else _) = _
  rw [if_pos (by simpa using h), decimalInt, Rat.num_natCast, if_neg hn, Int.natAbs_natCast]

theorem isPlain_decimal (n : ℕ) : (decimal n).all isPlain = true := by
  rw [decimal, List.all_map, List.all_eq_true]
  intro c hc
  have hdigit := Nat.isDigit_of_mem_toDigits (by decide) (by decide) hc
  have hplain : ∀ n < 58, 48 ≤ n → isPlain (UInt16.ofNat n) = true := by decide
  simp only [Char.isDigit, Bool.and_eq_true, decide_eq_true_eq, ge_iff_le,
    UInt32.le_iff_toNat_le] at hdigit
  have hle : c.toNat ≤ 57 := hdigit.2
  exact hplain c.toNat (by omega) hdigit.1

theorem leafWeight_toHex (bytes : Bytes) : leafWeight (toHex bytes) = 4 * bytes.length := by
  have hdigit : ∀ n < 16, weight (quoteUnit (hexDigit n)) = 2 := by decide
  induction bytes with
  | nil => rfl
  | cons b rest ih =>
    have hb := b.toNat_lt
    have hcons : toHex (b :: rest) =
        [hexDigit (b.toNat / 16), hexDigit (b.toNat % 16)] ++ toHex rest := rfl
    have hpair : leafWeight [hexDigit (b.toNat / 16), hexDigit (b.toNat % 16)] = 4 := by
      simp [leafWeight, hdigit (b.toNat / 16) (by omega), hdigit (b.toNat % 16) (by omega)]
    rw [hcons, leafWeight_append, ih, hpair, List.length_cons]
    omega

theorem isQuotable_toHex (bytes : Bytes) : (toHex bytes).all isQuotable = true := by
  have hdigit : ∀ n < 16, isQuotable (hexDigit n) = true := by decide
  rw [toHex, List.all_flatMap, List.all_eq_true]
  intro b _
  have hb := b.toNat_lt
  simp [hdigit (b.toNat / 16) (by omega), hdigit (b.toNat % 16) (by omega)]

/-! The weight of a value. -/

/-- Parts joined by commas weigh what they and the commas do. -/
theorem weight_commaJoin (parts : List Text) : weight (commaJoin parts) + 2 =
    max 2 (parts.map fun part => weight part + 2).sum := by
  have hcomma : unitWeight 0x2C = 2 := by decide
  induction parts with
  | nil => rfl
  | cons part rest ih =>
    cases rest with
    | nil => simp [commaJoin]
    | cons next rest =>
      have hjoin : commaJoin (part :: next :: rest) = part ++ [0x2C] ++ commaJoin (next :: rest) := by
        simp [commaJoin, List.intercalate_cons_cons]
      rw [hjoin]
      simp only [weight_append, weight_cons, weight_nil, List.map_cons, List.sum_cons] at ih ⊢
      omega

theorem isPlain_commaJoin {parts : List Text} (h : ∀ part ∈ parts, part.all isPlain = true) :
    (commaJoin parts).all isPlain = true := by
  induction parts with
  | nil => rfl
  | cons part rest ih =>
    cases rest with
    | nil => simpa [commaJoin] using h
    | cons next rest =>
      have hjoin : commaJoin (part :: next :: rest) = part ++ [0x2C] ++ commaJoin (next :: rest) := by
        simp [commaJoin, List.intercalate_cons_cons]
      rw [hjoin, List.all_append, List.all_append, h part List.mem_cons_self,
        ih fun part hpart => h part (List.mem_cons_of_mem _ hpart)]
      decide

section Values

variable (fractionText : ℚ → Text)

mutual

/-- The weight of the JSON of a value. -/
def jsonWeight : Value → ℕ
  | .null => 8
  | .bool true => 8
  | .bool false => 10
  | .number n => weight (jsonNumber fractionText n)
  | .string s => 6 + leafWeight s
  | .array items => 2 + max 2 (itemsWeight items)
  | .object properties => 2 + max 2 (propertiesWeight properties)
  | _ => 0

def itemsWeight : List Value → ℕ
  | [] => 0
  | v :: rest => jsonWeight v + 2 + itemsWeight rest

def propertiesWeight : List (Text × Value) → ℕ
  | [] => 0
  | (key, v) :: rest => 6 + leafWeight key + 2 + jsonWeight v + 2 + propertiesWeight rest

end

mutual

/-- A value whose strings are quotable and whose numbers print in plain units. -/
def isPlainJson : Value → Bool
  | .null | .bool _ => true
  | .number n => (jsonNumber fractionText n).all isPlain
  | .string s => s.all isQuotable
  | .array items => arePlainItems items
  | .object properties => arePlainProperties properties
  | _ => false

def arePlainItems : List Value → Bool
  | [] => true
  | v :: rest => isPlainJson v && arePlainItems rest

def arePlainProperties : List (Text × Value) → Bool
  | [] => true
  | (key, v) :: rest => key.all isQuotable && isPlainJson v && arePlainProperties rest

end

mutual

/-- The JSON of a plain value is plain and has the value's weight. -/
theorem stringify_measure : ∀ v : Value, isPlainJson fractionText v = true →
    ∃ json, stringify? fractionText v = some json ∧ json.all isPlain = true ∧
      weight json = jsonWeight fractionText v
  | .null, _ => ⟨text "null", rfl, by decide, rfl⟩
  | .bool true, _ => ⟨text "true", rfl, by decide, rfl⟩
  | .bool false, _ => ⟨text "false", rfl, by decide, rfl⟩
  | .number n, h => ⟨jsonNumber fractionText n, rfl, by simpa [isPlainJson] using h, rfl⟩
  | .string s, h => ⟨quote s, rfl, quote_measure (by simpa [isPlainJson] using h)⟩
  | .array items, h => by
    obtain ⟨hplain, hweight⟩ := items_measure items (by simpa [isPlainJson] using h)
    have hjoin := weight_commaJoin (stringifyItems fractionText items)
    have hopen : unitWeight 0x5B = 2 := by decide
    have hclose : unitWeight 0x5D = 2 := by decide
    refine ⟨_, rfl, ?_, ?_⟩
    · rw [List.all_append, List.all_append, isPlain_commaJoin hplain]
      decide
    · rw [jsonWeight, ← hweight, ← hjoin]
      simp only [weight_append, weight_cons, weight_nil]
      omega
  | .object properties, h => by
    obtain ⟨hplain, hweight⟩ := properties_measure properties (by simpa [isPlainJson] using h)
    have hjoin := weight_commaJoin (stringifyProperties fractionText properties)
    have hopen : unitWeight 0x7B = 2 := by decide
    have hclose : unitWeight 0x7D = 2 := by decide
    refine ⟨_, rfl, ?_, ?_⟩
    · rw [List.all_append, List.all_append, isPlain_commaJoin hplain]
      decide
    · rw [jsonWeight, ← hweight, ← hjoin]
      simp only [weight_append, weight_cons, weight_nil]
      omega
  | .undefined, h | .bytes _, h | .foreign, h => by simp [isPlainJson] at h

theorem items_measure : ∀ items : List Value, arePlainItems fractionText items = true →
    (∀ part ∈ stringifyItems fractionText items, part.all isPlain = true) ∧
      ((stringifyItems fractionText items).map fun part => weight part + 2).sum =
        itemsWeight fractionText items
  | [], _ => ⟨by simp [stringifyItems], rfl⟩
  | v :: rest, h => by
    rw [arePlainItems, Bool.and_eq_true] at h
    obtain ⟨json, hjson, hplain, hweight⟩ := stringify_measure v h.1
    obtain ⟨hrest, hsum⟩ := items_measure rest h.2
    constructor
    · simp only [stringifyItems, hjson, Option.getD_some, List.forall_mem_cons]
      exact ⟨hplain, hrest⟩
    · simp [stringifyItems, hjson, hweight, hsum, itemsWeight]

theorem properties_measure : ∀ properties : List (Text × Value),
    arePlainProperties fractionText properties = true →
    (∀ part ∈ stringifyProperties fractionText properties, part.all isPlain = true) ∧
      ((stringifyProperties fractionText properties).map fun part => weight part + 2).sum =
        propertiesWeight fractionText properties
  | [], _ => ⟨by simp [stringifyProperties], rfl⟩
  | (key, v) :: rest, h => by
    rw [arePlainProperties, Bool.and_eq_true, Bool.and_eq_true] at h
    obtain ⟨json, hjson, hplain, hweight⟩ := stringify_measure v h.1.2
    obtain ⟨hrest, hsum⟩ := properties_measure rest h.2
    obtain ⟨hkey, hkeyWeight⟩ := quote_measure h.1.1
    have hcolon : unitWeight 0x3A = 2 := by decide
    constructor
    · simp only [stringifyProperties, hjson, List.forall_mem_cons]
      refine ⟨?_, hrest⟩
      rw [List.all_append, List.all_append, hkey, hplain]
      decide
    · simp [stringifyProperties, hjson, hweight, hsum, hkeyWeight, hcolon, propertiesWeight]
      omega

end

theorem stringify?_object (properties : List (Text × Value)) :
    stringify? fractionText (.object properties) =
      some ([0x7B] ++ commaJoin (stringifyProperties fractionText properties) ++ [0x7D]) := rfl

theorem stringify?_array (items : List Value) :
    stringify? fractionText (.array items) =
      some ([0x5B] ++ commaJoin (stringifyItems fractionText items) ++ [0x5D]) := rfl

variable {fractionText}

theorem stringifyItems_cons {json : Text} {v : Value} (h : stringify? fractionText v = some json)
    (rest : List Value) : stringifyItems fractionText (v :: rest) =
      json :: stringifyItems fractionText rest := by
  simp only [stringifyItems, h, Option.getD_some]

theorem stringifyProperties_cons {key json : Text} {v : Value}
    (h : stringify? fractionText v = some json) (rest : List (Text × Value)) :
    stringifyProperties fractionText ((key, v) :: rest) =
      (quote key ++ [0x3A] ++ json) :: stringifyProperties fractionText rest := by
  simp only [stringifyProperties, h]

end Values

end Js
