import Mathlib.Data.Int.Log
import SupabaseUserMcp.Js.Digits

/- Number literals of JSON: their syntax, the decimal each of them denotes, and the
   double it is read as, which is the nearest one with ties to an even significand.
   A literal that a platform printed is read back whatever follows it, as long as
   that does not go on with it. -/
namespace Js

/-! Doubles. -/

/-- The integer nearest to a number, the even one where two are as near. -/
def roundHalfEven (q : ℚ) : ℤ :=
  if q - ⌊q⌋ < 1 / 2 ∨ q - ⌊q⌋ = 1 / 2 ∧ ⌊q⌋ % 2 = 0 then ⌊q⌋ else ⌊q⌋ + 1

theorem roundHalfEven_intCast (n : ℤ) : roundHalfEven n = n := by
  rw [roundHalfEven, Int.floor_intCast, sub_self, if_pos (Or.inl (by norm_num))]

/-- The place of a number's last significant bit; doubles below `2 ^ -1022` have all
the same one. -/
def ulpExponent (q : ℚ) : ℤ := max (Int.log 2 |q| - 52) (-1074)

/-- The double nearest to a number. -/
def nearestDouble (q : ℚ) : Number :=
  let ulp : ℚ := 2 ^ ulpExponent q
  let rounded := roundHalfEven (q / ulp) * ulp
  if 2 ^ 1024 ≤ rounded then .infinity
  else if rounded ≤ -2 ^ 1024 then .negInfinity
  else .finite rounded

theorem nearestDouble_of_dvd {q : ℚ} {m : ℤ} (hm : q = m * 2 ^ ulpExponent q)
    (hbound : |q| < 2 ^ 1024) : nearestDouble q = .finite q := by
  have hulp : (2 : ℚ) ^ ulpExponent q ≠ 0 := zpow_ne_zero _ (by norm_num)
  have hdiv : q / 2 ^ ulpExponent q = m := by
    rw [div_eq_iff hulp]
    exact hm
  obtain ⟨hlow, hhigh⟩ := abs_lt.mp hbound
  simp only [nearestDouble]
  rw [hdiv, roundHalfEven_intCast, ← hm, if_neg (not_le.mpr hhigh), if_neg (not_le.mpr hlow)]

/-- An integer of up to 53 bits is a double. -/
theorem nearestDouble_intCast {n : ℤ} (h : n.natAbs ≤ 2 ^ 53) :
    nearestDouble n = .finite n := by
  have habs : |(n : ℚ)| = (n.natAbs : ℚ) := by
    rw [← Int.cast_abs, Int.abs_eq_natAbs, Int.cast_natCast]
  have hbound : |(n : ℚ)| < 2 ^ 1024 := by
    rw [habs]
    calc (n.natAbs : ℚ) ≤ 2 ^ 53 := by exact_mod_cast h
      _ < 2 ^ 1024 := pow_lt_pow_right₀ (by norm_num) (by norm_num)
  have hlog : Int.log 2 |(n : ℚ)| = Nat.log 2 n.natAbs := by
    rw [habs, Int.log_natCast]
  rcases h.lt_or_eq with hlt | heq
  · -- the place of the last bit is a fraction, so every integer is a multiple of it
    have hsmall : Nat.log 2 n.natAbs < 53 := Nat.log_lt_of_lt_pow' (by norm_num) hlt
    obtain ⟨k, hk⟩ : ∃ k : ℕ, ulpExponent n = -k := by
      refine ⟨(-ulpExponent n).toNat, ?_⟩
      rw [ulpExponent, hlog]
      omega
    refine nearestDouble_of_dvd (m := n * 2 ^ k) ?_ hbound
    rw [hk]
    push_cast
    rw [mul_assoc, zpow_neg, zpow_natCast, mul_inv_cancel₀ (by positivity), mul_one]
  · have hone : ulpExponent n = 1 := by
      rw [ulpExponent, hlog, heq, Nat.log_pow (by norm_num)]
      rfl
    obtain ⟨m, hm⟩ : ∃ m, n = m * 2 := ⟨n / 2, by omega⟩
    refine nearestDouble_of_dvd (m := m) ?_ hbound
    rw [hone]
    exact_mod_cast hm

/-! Literals. -/

/-- A nonempty run of digits. -/
abbrev Digits := { s : Text // s ≠ [] ∧ ∀ u ∈ s, isDigit u = true }

/-- A number literal of JSON. -/
structure NumberLiteral where
  negative : Bool
  integer : Digits
  /-- The digits after the point. -/
  fraction : Option Digits
  /-- `e` or `E`, the sign and the digits. -/
  exponent : Option (Bool × Option Bool × Digits)
  /-- A literal has no leading zeros. -/
  leading : integer.val.head? = some 0x30 → integer.val.length = 1

namespace NumberLiteral

def fractionDigits (l : NumberLiteral) : Text := l.fraction.elim [] Subtype.val

def fractionPart (l : NumberLiteral) : Text := l.fraction.elim [] fun digits => 0x2E :: digits.val

def exponentPart (l : NumberLiteral) : Text :=
  l.exponent.elim [] fun e => (if e.1 then 0x45 else 0x65) ::
    (e.2.1.elim [] fun minus => [if minus then 0x2D else 0x2B]) ++ e.2.2.val

def exponentValue (l : NumberLiteral) : ℤ :=
  l.exponent.elim 0 fun e =>
    if e.2.1 = some true then -decimalValue e.2.2.val else decimalValue e.2.2.val

def unsignedText (l : NumberLiteral) : Text := l.integer.val ++ l.fractionPart ++ l.exponentPart

def text (l : NumberLiteral) : Text :=
  if l.negative then 0x2D :: l.unsignedText else l.unsignedText

end NumberLiteral

/-- The number that digits before and after a point denote with an exponent. -/
def scientific (integer fraction : Text) (exponent : ℤ) : ℚ :=
  decimalValue (integer ++ fraction) * 10 ^ (exponent - fraction.length)

/-- The decimal a literal denotes. -/
def NumberLiteral.value (l : NumberLiteral) : ℚ :=
  let magnitude := scientific l.integer.val l.fractionDigits l.exponentValue
  if l.negative then -magnitude else magnitude

/-! Reading. -/

def readDigits (s : Text) : Option (Text × Text) :=
  if s.takeWhile isDigit = [] then none else some (s.takeWhile isDigit, s.dropWhile isDigit)

/-- The digits before the point. What follows a zero is not its number's next digit,
and no digit may follow a number. -/
def readInteger (s : Text) : Option (Text × Text) := do
  let (digits, rest) ← readDigits s
  if digits.head? = some 0x30 ∧ digits.length ≠ 1 then none else some (digits, rest)

def readFraction : Text → Option (Text × Text)
  | [] => some ([], [])
  | u :: rest => if u = 0x2E then readDigits rest else some ([], u :: rest)

def readSigned : Text → Option (ℤ × Text)
  | [] => none
  | u :: rest =>
    if u = 0x2D then (readDigits rest).map fun p => (-decimalValue p.1, p.2)
    else if u = 0x2B then (readDigits rest).map fun p => (decimalValue p.1, p.2)
    else (readDigits (u :: rest)).map fun p => (decimalValue p.1, p.2)

def readExponent : Text → Option (ℤ × Text)
  | [] => some (0, [])
  | u :: rest => if u = 0x65 ∨ u = 0x45 then readSigned rest else some (0, u :: rest)

def readUnsigned (s : Text) : Option (ℚ × Text) := do
  let (integer, s) ← readInteger s
  let (fraction, s) ← readFraction s
  let (exponent, s) ← readExponent s
  some (scientific integer fraction exponent, s)

/-- The decimal at the head of a text. -/
def readNumber : Text → Option (ℚ × Text)
  | [] => none
  | u :: rest =>
    if u = 0x2D then (readUnsigned rest).map fun p => (-p.1, p.2) else readUnsigned (u :: rest)

/-- The code units number literals are made of. -/
def isNumberUnit (u : UInt16) : Bool :=
  isDigit u || u == 0x2B || u == 0x2D || u == 0x2E || u == 0x45 || u == 0x65

/-- Nothing at the head of the text goes on with a number before it. -/
def EndsNumber (s : Text) : Prop := ∀ u ∈ s.head?, isNumberUnit u = false

theorem EndsNumber.isDigit {s : Text} (h : EndsNumber s) : ∀ u ∈ s.head?, isDigit u = false := by
  intro u hu
  have hunit := h u hu
  simp only [isNumberUnit, Bool.or_eq_false_iff] at hunit
  exact hunit.1.1.1.1.1

theorem readDigits_append (digits : Digits) {rest : Text}
    (h : ∀ u ∈ rest.head?, isDigit u = false) :
    readDigits (digits.val ++ rest) = some (digits.val, rest) := by
  have hrest : rest.takeWhile isDigit = [] ∧ rest.dropWhile isDigit = rest := by
    cases rest with
    | nil => exact ⟨rfl, rfl⟩
    | cons u rest =>
      have hu := h u rfl
      rw [List.takeWhile_cons, List.dropWhile_cons, hu]
      exact ⟨rfl, rfl⟩
  rw [readDigits, List.takeWhile_append_of_pos digits.prop.2,
    List.dropWhile_append_of_pos digits.prop.2, hrest.1, hrest.2, List.append_nil,
    if_neg digits.prop.1]

/-- The units of a literal. -/
theorem NumberLiteral.isNumberUnit_of_mem_text (l : NumberLiteral) {u : UInt16}
    (hu : u ∈ l.text) : isNumberUnit u = true := by
  have hdigits : ∀ (digits : Digits) {u : UInt16}, u ∈ digits.val → isNumberUnit u = true := by
    intro digits u hu
    simp [isNumberUnit, digits.prop.2 u hu]
  have hunsigned : ∀ u ∈ l.unsignedText, isNumberUnit u = true := by
    intro u hu
    simp only [unsignedText, fractionPart, exponentPart, List.mem_append] at hu
    rcases hu with (hu | hu) | hu
    · exact hdigits _ hu
    · cases hfraction : l.fraction with
      | none => simp [hfraction] at hu
      | some digits =>
        rw [hfraction, Option.elim_some, List.mem_cons] at hu
        rcases hu with rfl | hu
        · decide
        · exact hdigits _ hu
    · cases hexponent : l.exponent with
      | none => simp [hexponent] at hu
      | some e =>
        obtain ⟨upper, sign, digits⟩ := e
        rw [hexponent, Option.elim_some, List.cons_append, List.mem_cons, List.mem_append] at hu
        rcases hu with rfl | hu | hu
        · cases upper <;> rfl
        · match sign with
          | none => simp at hu
          | some true =>
            obtain rfl : u = 0x2D := by simpa using hu
            decide
          | some false =>
            obtain rfl : u = 0x2B := by simpa using hu
            decide
        · exact hdigits _ hu
  rw [text] at hu
  split at hu
  · rcases List.mem_cons.mp hu with rfl | hu
    · decide
    · exact hunsigned u hu
  · exact hunsigned u hu

namespace NumberLiteral

variable (l : NumberLiteral) {rest : Text} (hends : EndsNumber rest)

/-- What follows the digits of the fraction. -/
theorem head_exponentPart_append {u : UInt16} (hu : u ∈ (l.exponentPart ++ rest).head?) :
    u = 0x45 ∨ u = 0x65 ∨ u ∈ rest.head? := by
  cases hexponent : l.exponent with
  | none =>
    simp only [exponentPart, hexponent, Option.elim_none, List.nil_append] at hu
    exact Or.inr (Or.inr hu)
  | some e =>
    simp only [exponentPart, hexponent, Option.elim_some, List.cons_append, List.head?_cons,
      Option.mem_some] at hu
    obtain ⟨upper, sign, digits⟩ := e
    cases upper with
    | true => exact Or.inl hu.symm
    | false => exact Or.inr (Or.inl hu.symm)

/-- What follows the digits before the point. -/
theorem head_fractionPart_append {u : UInt16}
    (hu : u ∈ (l.fractionPart ++ (l.exponentPart ++ rest)).head?) :
    u = 0x2E ∨ u = 0x45 ∨ u = 0x65 ∨ u ∈ rest.head? := by
  cases hfraction : l.fraction with
  | none =>
    simp only [fractionPart, hfraction, Option.elim_none, List.nil_append] at hu
    exact Or.inr (l.head_exponentPart_append hu)
  | some digits =>
    simp only [fractionPart, hfraction, Option.elim_some, List.cons_append, List.head?_cons,
      Option.mem_some] at hu
    exact Or.inl hu.symm

include hends

theorem readExponent_append :
    readExponent (l.exponentPart ++ rest) = some (l.exponentValue, rest) := by
  cases hexponent : l.exponent with
  | none =>
    simp only [exponentPart, exponentValue, hexponent, Option.elim_none, List.nil_append]
    cases rest with
    | nil => rfl
    | cons u rest =>
      have hu := hends u rfl
      rw [readExponent, if_neg]
      rintro (rfl | rfl) <;> exact absurd hu (by decide)
  | some e =>
    obtain ⟨upper, sign, digits⟩ := e
    have hread := readDigits_append digits hends.isDigit
    have hsigned : readSigned ((sign.elim [] fun minus => [if minus then 0x2D else 0x2B]) ++
        digits.val ++ rest) =
        some (if sign = some true then -(decimalValue digits.val : ℤ) else decimalValue digits.val,
          rest) := by
      match sign with
      | none =>
        -- a digit is no sign
        obtain ⟨u, us, hdigits⟩ := List.exists_cons_of_ne_nil digits.prop.1
        have hu : isDigit u = true := digits.prop.2 u (by rw [hdigits]; exact List.mem_cons_self)
        have hminus : u ≠ 0x2D := by rintro rfl; exact absurd hu (by decide)
        have hplus : u ≠ 0x2B := by rintro rfl; exact absurd hu (by decide)
        rw [hdigits] at hread ⊢
        simp only [Option.elim_none, List.nil_append, List.cons_append] at hread ⊢
        rw [readSigned, if_neg hminus, if_neg hplus, hread]
        rfl
      | some true => simp [readSigned, hread]
      | some false => simp [readSigned, hread]
    simp only [exponentPart, exponentValue, hexponent, Option.elim_some, List.cons_append]
    cases upper <;> simpa [readExponent] using hsigned

theorem readFraction_append : readFraction (l.fractionPart ++ (l.exponentPart ++ rest)) =
    some (l.fractionDigits, l.exponentPart ++ rest) := by
  have hnext : ∀ u ∈ (l.exponentPart ++ rest).head?, isDigit u = false ∧ u ≠ 0x2E := by
    intro u hu
    rcases l.head_exponentPart_append hu with rfl | rfl | hu
    · decide
    · decide
    · refine ⟨hends.isDigit u hu, ?_⟩
      rintro rfl
      exact absurd (hends _ hu) (by decide)
  cases hfraction : l.fraction with
  | none =>
    simp only [fractionPart, fractionDigits, hfraction, Option.elim_none, List.nil_append]
    cases hrest : l.exponentPart ++ rest with
    | nil => rfl
    | cons u tail =>
      rw [readFraction, if_neg (hnext u (by rw [hrest]; rfl)).2]
  | some digits =>
    simp only [fractionPart, fractionDigits, hfraction, Option.elim_some, List.cons_append]
    rw [readFraction, if_pos rfl]
    exact readDigits_append digits fun u hu => (hnext u hu).1

theorem readUnsigned_append : readUnsigned (l.unsignedText ++ rest) =
    some (scientific l.integer.val l.fractionDigits l.exponentValue, rest) := by
  have hnext : ∀ u ∈ (l.fractionPart ++ (l.exponentPart ++ rest)).head?, isDigit u = false := by
    intro u hu
    rcases l.head_fractionPart_append hu with rfl | rfl | rfl | hu
    · decide
    · decide
    · decide
    · exact hends.isDigit u hu
  have hinteger : readInteger (l.integer.val ++ (l.fractionPart ++ (l.exponentPart ++ rest))) =
      some (l.integer.val, l.fractionPart ++ (l.exponentPart ++ rest)) := by
    have hleading : ¬ (l.integer.val.head? = some 0x30 ∧ l.integer.val.length ≠ 1) :=
      fun h => h.2 (l.leading h.1)
    rw [readInteger, readDigits_append l.integer hnext]
    exact if_neg hleading
  rw [unsignedText, List.append_assoc, List.append_assoc, readUnsigned, hinteger]
  simp only [Option.bind_eq_bind, Option.bind_some, l.readFraction_append hends,
    l.readExponent_append hends]

/-- A literal is read as the decimal it denotes. -/
theorem readNumber_append : readNumber (l.text ++ rest) = some (l.value, rest) := by
  have hread := l.readUnsigned_append hends
  cases hnegative : l.negative with
  | true =>
    simp only [text, value, hnegative, if_true, List.cons_append]
    rw [readNumber, if_pos rfl, hread]
    rfl
  | false =>
    simp only [text, value, hnegative, Bool.false_eq_true, if_false]
    -- a digit is no sign
    obtain ⟨u, us, hdigits⟩ := List.exists_cons_of_ne_nil l.integer.prop.1
    have hu : isDigit u = true := l.integer.prop.2 u (by rw [hdigits]; exact List.mem_cons_self)
    have hminus : u ≠ 0x2D := by rintro rfl; exact absurd hu (by decide)
    have hcons : l.unsignedText ++ rest = u :: (us ++ l.fractionPart ++ l.exponentPart ++ rest) := by
      rw [unsignedText, hdigits]
      simp only [List.cons_append]
    rw [hcons] at hread ⊢
    rw [readNumber, if_neg hminus, hread]

end NumberLiteral

/-! Integers. -/

/-- The digits of a positive number begin with another one than zero. -/
theorem head_decimal {n : ℕ} (h : 0 < n) : (decimal n).head? ≠ some 0x30 := by
  induction n using Nat.strong_induction_on with
  | _ n ih =>
    rw [decimal, Nat.toDigits_eq_if (by decide)]
    split
    · next hlt => interval_cases n <;> decide
    · next hge =>
      have hhead := ih (n / 10) (Nat.div_lt_self h (by decide)) (by omega)
      obtain ⟨u, us, hdigits⟩ := List.exists_cons_of_ne_nil (decimal_ne_nil (n / 10))
      rw [decimal] at hdigits
      rw [decimal, hdigits] at hhead
      rw [List.map_append, hdigits]
      exact hhead

/-- The literal of an integer. -/
def NumberLiteral.ofInt (n : ℤ) : NumberLiteral where
  negative := n < 0
  integer := ⟨decimal n.natAbs, decimal_ne_nil _, fun _ hu => isDigit_of_mem_decimal hu⟩
  fraction := none
  exponent := none
  leading := by
    intro h
    rcases Nat.eq_zero_or_pos n.natAbs with hzero | hpos
    · rw [hzero]
      rfl
    · exact absurd h (head_decimal hpos)

@[simp] theorem NumberLiteral.text_ofInt (n : ℤ) : (ofInt n).text = decimalInt n := by
  simp [text, unsignedText, fractionPart, exponentPart, ofInt, decimalInt]

@[simp] theorem NumberLiteral.value_ofInt (n : ℤ) : (ofInt n).value = n := by
  have habs : ((n.natAbs : ℕ) : ℚ) = if n < 0 then -(n : ℚ) else n := by
    rw [Nat.cast_natAbs]
    split
    · next hneg => rw [abs_of_neg hneg, Int.cast_neg]
    · next hpos => rw [abs_of_nonneg (not_lt.mp hpos)]
  simp only [value, scientific, fractionDigits, exponentValue, ofInt, Option.elim_none,
    List.append_nil, List.length_nil, decimalValue_decimal, Nat.cast_zero, sub_zero, zpow_zero,
    mul_one, decide_eq_true_eq]
  rw [habs]
  split
  · rw [neg_neg]
  · rfl

end Js
