import SupabaseUserMcp.Js.JsonText
import SupabaseUserMcp.Js.Measure

/- Texts in which every surrogate has its other half. They are what a sequence of code
   points is written as, so encoding them in UTF-8 loses nothing. The literals of
   `JSON.stringify` are all of them. -/
namespace Js

theorem toNat_charOfNat {n : ℕ} (h : n.isValidChar) : (Char.ofNat n).toNat = n := by
  rw [Char.ofNat, dif_pos h]
  rfl

/-- The text is well-formed UTF-16. -/
def IsUtf16 (s : Text) : Prop := ∃ cs, s = utf16 cs

namespace IsUtf16

theorem nil : IsUtf16 [] := ⟨[], rfl⟩

theorem append {s t : Text} (hs : IsUtf16 s) (ht : IsUtf16 t) : IsUtf16 (s ++ t) := by
  obtain ⟨cs, rfl⟩ := hs
  obtain ⟨ds, rfl⟩ := ht
  exact ⟨cs ++ ds, by rw [utf16, utf16, utf16, List.flatMap_append]⟩

/-- A code unit that is no surrogate is a code point. -/
theorem singleton {u : UInt16} (hhigh : isHighSurrogate u = false)
    (hlow : isLowSurrogate u = false) : IsUtf16 [u] := by
  have hu := u.toNat_lt
  have hvalid : u.toNat.isValidChar := by
    simp only [isHighSurrogate, isLowSurrogate, UInt16.le_iff_toNat_le, UInt16.reduceToNat,
      Bool.and_eq_false_iff, decide_eq_false_iff_not] at hhigh hlow
    simp only [Nat.isValidChar]
    omega
  refine ⟨[Char.ofNat u.toNat], ?_⟩
  rw [utf16, List.flatMap_singleton, codeUnits, toNat_charOfNat hvalid, if_pos (by omega),
    UInt16.ofNat_toNat]

theorem ascii {s : Text} (h : s.all isAscii = true) : IsUtf16 s := by
  induction s with
  | nil => exact nil
  | cons u s ih =>
    rw [List.all_cons, Bool.and_eq_true] at h
    have hu := not_surrogate_of_isAscii h.1
    exact (singleton hu.1 hu.2).append (ih h.2)

/-- A pair of surrogates is a code point. -/
theorem pair {hi lo : UInt16} (hhigh : isHighSurrogate hi = true)
    (hlow : isLowSurrogate lo = true) : IsUtf16 [hi, lo] := by
  simp only [isHighSurrogate, isLowSurrogate, UInt16.le_iff_toNat_le, UInt16.reduceToNat,
    Bool.and_eq_true, decide_eq_true_eq] at hhigh hlow
  have hvalid : (0x10000 + (hi.toNat - 0xD800) * 0x400 + (lo.toNat - 0xDC00)).isValidChar := by
    simp only [Nat.isValidChar]
    omega
  have hfirst : 0xD800 + (0x10000 + (hi.toNat - 0xD800) * 0x400 + (lo.toNat - 0xDC00) - 0x10000) /
      0x400 = hi.toNat := by omega
  have hsecond : 0xDC00 + (0x10000 + (hi.toNat - 0xD800) * 0x400 + (lo.toNat - 0xDC00) - 0x10000) %
      0x400 = lo.toNat := by omega
  refine ⟨[surrogatePair hi lo], ?_⟩
  rw [utf16, List.flatMap_singleton, codeUnits, surrogatePair, toNat_charOfNat hvalid,
    if_neg (by omega), hfirst, hsecond, UInt16.ofNat_toNat, UInt16.ofNat_toNat]

theorem quoteUnit {u : UInt16} (hhigh : isHighSurrogate u = false)
    (hlow : isLowSurrogate u = false) : IsUtf16 (quoteUnit u) := by
  rcases quoteUnit_cases u with ⟨hascii, _⟩ | hsame
  · exact ascii hascii
  · rw [hsame]
    exact singleton hhigh hlow

theorem quoteUnits (s : Text) : IsUtf16 (quoteUnits s) := by
  fun_induction Js.quoteUnits s with
  | case1 => exact nil
  | case2 u h => exact ascii (isAscii_unicodeEscape u)
  | case3 u h =>
    rw [Bool.or_eq_true, not_or, Bool.not_eq_true, Bool.not_eq_true] at h
    exact quoteUnit h.1 h.2
  | case4 u v rest hhigh hlow ih => exact (pair hhigh hlow).append ih
  | case5 u v rest hhigh hlow ih => exact (ascii (isAscii_unicodeEscape u)).append ih
  | case6 u v rest hhigh hlow ih => exact (ascii (isAscii_unicodeEscape u)).append ih
  | case7 u v rest hhigh hlow ih =>
    exact (quoteUnit (Bool.eq_false_iff.mpr hhigh) (Bool.eq_false_iff.mpr hlow)).append ih

theorem quote (s : Text) : IsUtf16 (quote s) :=
  ((ascii (s := [0x22]) (by decide)).append (quoteUnits s)).append (ascii (by decide))

theorem commaJoin {parts : List Text} (h : ∀ part ∈ parts, IsUtf16 part) :
    IsUtf16 (commaJoin parts) := by
  induction parts with
  | nil => exact nil
  | cons part rest ih =>
    have hpart := h part List.mem_cons_self
    have hrest := ih fun other hother => h other (List.mem_cons_of_mem _ hother)
    cases rest with
    | nil =>
      rw [commaJoin_singleton]
      exact hpart
    | cons next rest =>
      rw [commaJoin_cons_cons]
      exact hpart.append ((ascii (s := [0x2C]) (by decide)).append hrest)

/-- Well-formed text is decoded from what it is encoded as. -/
theorem decodeUtf8_encodeUtf8 {s : Text} (h : IsUtf16 s) : decodeUtf8 (encodeUtf8 s) = some s := by
  obtain ⟨cs, rfl⟩ := h
  rw [encodeUtf8, scalars_utf16, decodeUtf8_encoded]

end IsUtf16

theorem isAscii_of_isNumberUnit {u : UInt16} (h : isNumberUnit u = true) : isAscii u = true := by
  simp only [isNumberUnit, isDigit, isAscii, Bool.or_eq_true, Bool.and_eq_true, beq_iff_eq,
    decide_eq_true_eq, UInt16.le_iff_toNat_le, UInt16.lt_iff_toNat_lt, ← UInt16.toNat_inj] at h ⊢
  simp only [UInt16.reduceToNat] at h ⊢
  omega

section Stringify

variable {fractionText : ℚ → Text}

theorem mem_stringifyItems {items : List Value} {part : Text}
    (h : part ∈ stringifyItems fractionText items) :
    ∃ v ∈ items, part = (stringify? fractionText v).getD (text "null") := by
  induction items with
  | nil => cases h
  | cons v rest ih =>
    rw [stringifyItems] at h
    cases List.mem_cons.mp h with
    | inl heq => exact ⟨v, List.mem_cons_self, heq⟩
    | inr hrest =>
      obtain ⟨w, hw, heq⟩ := ih hrest
      exact ⟨w, List.mem_cons_of_mem _ hw, heq⟩

theorem mem_stringifyProperties {properties : List (Text × Value)} {part : Text}
    (h : part ∈ stringifyProperties fractionText properties) :
    ∃ p ∈ properties, ∃ json, stringify? fractionText p.2 = some json ∧
      part = quote p.1 ++ [0x3A] ++ json := by
  induction properties with
  | nil => cases h
  | cons p rest ih =>
    have hrest : part ∈ stringifyProperties fractionText rest →
        ∃ q ∈ p :: rest, ∃ json, stringify? fractionText q.2 = some json ∧
          part = quote q.1 ++ [0x3A] ++ json := by
      intro hmem
      obtain ⟨q, hq, hpart⟩ := ih hmem
      exact ⟨q, List.mem_cons_of_mem _ hq, hpart⟩
    rw [stringifyProperties] at h
    cases hjson : stringify? fractionText p.2 with
    | none =>
      rw [hjson] at h
      exact hrest h
    | some json =>
      rw [hjson] at h
      cases List.mem_cons.mp h with
      | inl heq => exact ⟨p, List.mem_cons_self, json, hjson, heq⟩
      | inr hmem => exact hrest hmem

/-- What `JSON.stringify` prints of a JSON value can be encoded without loss. -/
theorem isUtf16_stringify? {v : Value} (hv : v.IsJson)
    (hlegible : ∀ q, v.HasNumber (.finite q) → Legible fractionText q) :
    ∃ json, stringify? fractionText v = some json ∧ IsUtf16 json := by
  induction hv with
  | null => exact ⟨_, rfl, .ascii (by decide)⟩
  | bool b =>
    cases b with
    | true => exact ⟨_, rfl, .ascii (by decide)⟩
    | false => exact ⟨_, rfl, .ascii (by decide)⟩
  | number q =>
    obtain ⟨l, hl, -⟩ := hlegible q .here
    refine ⟨_, rfl, ?_⟩
    rw [hl]
    refine .ascii (List.all_eq_true.mpr fun u hu => ?_)
    exact isAscii_of_isNumberUnit (l.isNumberUnit_of_mem_text hu)
  | string s => exact ⟨_, rfl, .quote s⟩
  | array _ ih =>
    refine ⟨_, rfl, ((IsUtf16.ascii (s := [0x5B]) (by decide)).append (.commaJoin ?_)).append
      (.ascii (by decide))⟩
    intro part hpart
    obtain ⟨v, hv, rfl⟩ := mem_stringifyItems hpart
    obtain ⟨json, hjson, hutf16⟩ := ih v hv fun q hq => hlegible q (.item hv hq)
    rw [hjson]
    exact hutf16
  | object _ _ _ ih =>
    refine ⟨_, rfl, ((IsUtf16.ascii (s := [0x7B]) (by decide)).append (.commaJoin ?_)).append
      (.ascii (by decide))⟩
    intro part hpart
    obtain ⟨p, hp, json, hjson, rfl⟩ := mem_stringifyProperties hpart
    obtain ⟨json', hjson', hutf16⟩ := ih p hp fun q hq => hlegible q (.property hp hq)
    obtain rfl : json = json' := Option.some.inj (hjson.symm.trans hjson')
    exact ((IsUtf16.quote p.1).append (.ascii (by decide))).append hutf16

theorem isUtf16_stringify {v : Value} (hv : v.IsJson)
    (hlegible : ∀ q, v.HasNumber (.finite q) → Legible fractionText q) :
    IsUtf16 (stringify fractionText v) := by
  obtain ⟨json, hjson, hutf16⟩ := isUtf16_stringify? hv hlegible
  rw [stringify, hjson]
  exact hutf16

end Stringify

/-! Surrogates without their other halves. -/

/-- The code unit at an index is a surrogate without its other half. -/
def IsUnpairedAt (s : Text) (i : ℕ) : Prop :=
  ∃ u, s[i]? = some u ∧
    ((isHighSurrogate u = true ∧ ¬∃ v, s[i + 1]? = some v ∧ isLowSurrogate v = true) ∨
      (isLowSurrogate u = true ∧ ¬∃ j v, i = j + 1 ∧ s[j]? = some v ∧ isHighSurrogate v = true))

section Unpaired

variable {u v : UInt16} {s : Text}

/-- After a unit that begins no pair the text is read on its own. -/
theorem isUnpairedAt_cons (hhigh : isHighSurrogate u = false) (i : ℕ) :
    IsUnpairedAt (u :: s) (i + 1) ↔ IsUnpairedAt s i := by
  have hlead : (∃ j v, i + 1 = j + 1 ∧ (u :: s)[j]? = some v ∧ isHighSurrogate v = true) ↔
      ∃ j v, i = j + 1 ∧ s[j]? = some v ∧ isHighSurrogate v = true := by
    constructor
    · intro ⟨j, v, hj, hv, hvhigh⟩
      cases j with
      | zero =>
        obtain rfl : u = v := by simpa using hv
        rw [hhigh] at hvhigh
        cases hvhigh
      | succ j => exact ⟨j, v, Nat.succ.inj hj, by simpa using hv, hvhigh⟩
    · intro ⟨j, v, hj, hv, hvhigh⟩
      exact ⟨j + 1, v, congrArg Nat.succ hj, by simpa using hv, hvhigh⟩
  simp only [IsUnpairedAt, List.getElem?_cons_succ, hlead]

theorem not_isUnpairedAt_scalar (hhigh : isHighSurrogate u = false)
    (hlow : isLowSurrogate u = false) : ¬IsUnpairedAt (u :: s) 0 := by
  intro ⟨w, hw, hcase⟩
  obtain rfl : u = w := by simpa using hw
  rw [hhigh, hlow] at hcase
  simp at hcase

theorem forall_not_isUnpairedAt_scalar (hhigh : isHighSurrogate u = false)
    (hlow : isLowSurrogate u = false) :
    (∀ i, ¬IsUnpairedAt (u :: s) i) ↔ ∀ i, ¬IsUnpairedAt s i := by
  constructor
  · intro h i
    exact (isUnpairedAt_cons hhigh i).not.mp (h (i + 1))
  · intro h i
    cases i with
    | zero => exact not_isUnpairedAt_scalar hhigh hlow
    | succ i => exact (isUnpairedAt_cons hhigh i).not.mpr (h i)

theorem not_high_of_low (hlow : isLowSurrogate v = true) : isHighSurrogate v = false := by
  simp only [isHighSurrogate, isLowSurrogate, UInt16.le_iff_toNat_le, UInt16.reduceToNat,
    Bool.and_eq_true, Bool.and_eq_false_iff, decide_eq_true_eq, decide_eq_false_iff_not] at hlow ⊢
  omega

theorem forall_not_isUnpairedAt_pair (hhigh : isHighSurrogate u = true)
    (hlow : isLowSurrogate v = true) :
    (∀ i, ¬IsUnpairedAt (u :: v :: s) i) ↔ ∀ i, ¬IsUnpairedAt s i := by
  have hvhigh := not_high_of_low hlow
  have hulow : isLowSurrogate u = false := by
    cases hu : isLowSurrogate u with
    | false => rfl
    | true => rw [not_high_of_low hu] at hhigh; cases hhigh
  -- past the pair neither half is looked at
  have hpast : ∀ i, IsUnpairedAt (u :: v :: s) (i + 2) ↔ IsUnpairedAt (v :: s) (i + 1) := by
    intro i
    have hlead : (∃ j w, i + 2 = j + 1 ∧ (u :: v :: s)[j]? = some w ∧ isHighSurrogate w = true) ↔
        ∃ j w, i + 1 = j + 1 ∧ (v :: s)[j]? = some w ∧ isHighSurrogate w = true := by
      constructor
      · intro ⟨j, w, hj, hw, hwhigh⟩
        obtain rfl : j = i + 1 := by omega
        exact ⟨i, w, rfl, by simpa using hw, hwhigh⟩
      · intro ⟨j, w, hj, hw, hwhigh⟩
        obtain rfl : j = i := by omega
        exact ⟨j + 1, w, rfl, by simpa using hw, hwhigh⟩
    simp only [IsUnpairedAt, List.getElem?_cons_succ, hlead]
  constructor
  · intro h i hi
    exact h (i + 2) ((hpast i).mpr ((isUnpairedAt_cons hvhigh i).mpr hi))
  · intro h i
    match i with
    | 0 =>
      intro ⟨w, hw, hcase⟩
      obtain rfl : u = w := by simpa using hw
      obtain ⟨-, htrail⟩ | ⟨hbad, -⟩ := hcase
      · exact htrail ⟨v, rfl, hlow⟩
      · rw [hulow] at hbad
        cases hbad
    | 1 =>
      intro ⟨w, hw, hcase⟩
      obtain rfl : v = w := by simpa using hw
      obtain ⟨hbad, -⟩ | ⟨-, hlead⟩ := hcase
      · rw [hvhigh] at hbad
        cases hbad
      · exact hlead ⟨0, u, rfl, rfl, hhigh⟩
    | i + 2 => exact fun hi => h i ((isUnpairedAt_cons hvhigh i).mp ((hpast i).mp hi))

theorem isUnpairedAt_low (hlow : isLowSurrogate u = true) : IsUnpairedAt (u :: s) 0 := by
  refine ⟨u, rfl, .inr ⟨hlow, ?_⟩⟩
  intro ⟨j, v, hj, _⟩
  exact absurd hj (Nat.zero_ne_add_one j)

theorem isUnpairedAt_high (hhigh : isHighSurrogate u = true)
    (hnext : ∀ v, s.head? = some v → isLowSurrogate v = false) : IsUnpairedAt (u :: s) 0 := by
  refine ⟨u, rfl, .inl ⟨hhigh, ?_⟩⟩
  intro ⟨v, hv, hvlow⟩
  rw [hnext v (by simpa [List.head?_eq_getElem?] using hv)] at hvlow
  cases hvlow

end Unpaired

/-- A text is well-formed when no surrogate in it lacks its other half. -/
theorem isUtf16_iff {s : Text} : IsUtf16 s ↔ ∀ i, ¬IsUnpairedAt s i := by
  constructor
  · intro ⟨cs, hs⟩
    rw [hs]
    clear hs
    induction cs with
    | nil =>
      intro i ⟨u, hu, _⟩
      simp [utf16] at hu
    | cons c cs ih =>
      rw [utf16, List.flatMap_cons, ← utf16]
      obtain ⟨u, hunits, -, hhigh, hlow⟩ | ⟨hi, lo, hunits, hhigh, hlow, -⟩ := codeUnits_cases c
      · rw [hunits]
        exact (forall_not_isUnpairedAt_scalar hhigh hlow).mpr ih
      · rw [hunits]
        exact (forall_not_isUnpairedAt_pair hhigh hlow).mpr ih
  · fun_induction scalars s with
    | case1 => exact fun _ => .nil
    | case2 u =>
      intro h
      have hhigh : isHighSurrogate u = false :=
        Bool.eq_false_iff.mpr fun hu => h 0 (isUnpairedAt_high hu (by simp))
      have hlow : isLowSurrogate u = false :=
        Bool.eq_false_iff.mpr fun hu => h 0 (isUnpairedAt_low hu)
      exact .singleton hhigh hlow
    | case3 u v rest hhigh hlow ih =>
      intro h
      exact (IsUtf16.pair hhigh hlow).append (ih ((forall_not_isUnpairedAt_pair hhigh hlow).mp h))
    | case4 u v rest hhigh hlow ih =>
      intro h
      refine absurd (isUnpairedAt_high hhigh ?_) (h 0)
      intro w hw
      obtain rfl : v = w := by simpa using hw
      exact Bool.eq_false_iff.mpr hlow
    | case5 u v rest hhigh hlow ih => exact fun h => absurd (isUnpairedAt_low hlow) (h 0)
    | case6 u v rest hhigh hlow ih =>
      intro h
      have hhigh := Bool.eq_false_iff.mpr hhigh
      have hlow := Bool.eq_false_iff.mpr hlow
      exact (IsUtf16.singleton hhigh hlow).append
        (ih ((forall_not_isUnpairedAt_scalar hhigh hlow).mp h))

end Js
