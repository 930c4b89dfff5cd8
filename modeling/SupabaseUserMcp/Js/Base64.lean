import SupabaseUserMcp.Js.Text

/- The base64 codec of `Buffer`: the encoder pads its last group, the decoder reads both
   alphabets up to the first `=` and passes over what is in neither. -/
namespace Js

/-- The digit of six bits. -/
def base64Digit (n : ℕ) : UInt16 :=
  if n < 26 then UInt16.ofNat (0x41 + n)
  else if n < 52 then UInt16.ofNat (0x47 + n)
  else if n < 62 then UInt16.ofNat (n - 4)
  else if n = 62 then 0x2B
  else 0x2F

/-- `buffer.toString('base64')`. -/
def toBase64 : Bytes → Text
  | [] => []
  | [a] => [base64Digit (a.toNat / 4), base64Digit (a.toNat % 4 * 16), 0x3D, 0x3D]
  | [a, b] => [base64Digit (a.toNat / 4), base64Digit (a.toNat % 4 * 16 + b.toNat / 16),
      base64Digit (b.toNat % 16 * 4), 0x3D]
  | a :: b :: c :: rest =>
    base64Digit (a.toNat / 4) :: base64Digit (a.toNat % 4 * 16 + b.toNat / 16) ::
      base64Digit (b.toNat % 16 * 4 + c.toNat / 64) :: base64Digit (c.toNat % 64) :: toBase64 rest

/-- The six bits of a digit of either alphabet. -/
def base64Value (u : UInt16) : Option ℕ :=
  if isUpper u then some (u.toNat - 0x41)
  else if isLower u then some (u.toNat - 0x47)
  else if isDigit u then some (u.toNat + 4)
  else if u == 0x2B || u == 0x2D then some 62
  else if u == 0x2F || u == 0x5F then some 63
  else none

/-- The bytes of six-bit values; what does not fill a byte is dropped. -/
def sextets : List ℕ → Bytes
  | a :: b :: c :: d :: rest => UInt8.ofNat (a * 4 + b / 16) :: UInt8.ofNat (b % 16 * 16 + c / 4) ::
      UInt8.ofNat (c % 4 * 64 + d) :: sextets rest
  | [a, b, c] => [UInt8.ofNat (a * 4 + b / 16), UInt8.ofNat (b % 16 * 16 + c / 4)]
  | [a, b] => [UInt8.ofNat (a * 4 + b / 16)]
  | _ => []

/-- `Buffer.from(s, 'base64')`. -/
def fromBase64 (s : Text) : Bytes := sextets ((s.takeWhile (· != 0x3D)).filterMap base64Value)

/-- `[A-Za-z0-9+/]`. -/
def isBase64Unit (u : UInt16) : Bool := isAlphanumeric u || u == 0x2B || u == 0x2F

/-! Digits. -/

theorem base64Digit_spec {n : ℕ} (h : n < 64) : isBase64Unit (base64Digit n) = true ∧
    base64Value (base64Digit n) = some n ∧ base64Digit n ≠ 0x3D := by
  interval_cases n <;> decide

/-- A digit of the standard alphabet is the digit of its value. -/
theorem base64Value_spec {u : UInt16} (h : isBase64Unit u = true) :
    ∃ n, n < 64 ∧ base64Value u = some n ∧ base64Digit n = u ∧ u ≠ 0x3D := by
  have hall : ∀ m < 0x7B, isBase64Unit (UInt16.ofNat m) = true → ∃ n < 64,
      base64Value (UInt16.ofNat m) = some n ∧ base64Digit n = UInt16.ofNat m ∧
        UInt16.ofNat m ≠ 0x3D := by
    decide +kernel
  have hbound : u.toNat < 0x7B := by
    simp only [isBase64Unit, isAlphanumeric, isUpper, isLower, isDigit, Bool.or_eq_true,
      Bool.and_eq_true, decide_eq_true_eq, beq_iff_eq, UInt16.le_iff_toNat_le,
      ← UInt16.toNat_inj, UInt16.reduceToNat] at h
    omega
  have hu := hall u.toNat hbound
  rw [UInt16.ofNat_toNat] at hu
  exact hu h

/-! Groups of four digits. -/

section Groups

variable {a b c d : UInt16} {w x y z : ℕ}

theorem fromBase64_group (ha : base64Value a = some w ∧ a ≠ 0x3D)
    (hb : base64Value b = some x ∧ b ≠ 0x3D) (hc : base64Value c = some y ∧ c ≠ 0x3D)
    (hd : base64Value d = some z ∧ d ≠ 0x3D) (rest : Text) :
    fromBase64 (a :: b :: c :: d :: rest) = UInt8.ofNat (w * 4 + x / 16) ::
      UInt8.ofNat (x % 16 * 16 + y / 4) :: UInt8.ofNat (y % 4 * 64 + z) :: fromBase64 rest := by
  simp [fromBase64, sextets, ha, hb, hc, hd]

theorem fromBase64_onePad (ha : base64Value a = some w ∧ a ≠ 0x3D)
    (hb : base64Value b = some x ∧ b ≠ 0x3D) (hc : base64Value c = some y ∧ c ≠ 0x3D) :
    fromBase64 [a, b, c, 0x3D] =
      [UInt8.ofNat (w * 4 + x / 16), UInt8.ofNat (x % 16 * 16 + y / 4)] := by
  simp [fromBase64, sextets, ha, hb, hc]

theorem fromBase64_twoPads (ha : base64Value a = some w ∧ a ≠ 0x3D)
    (hb : base64Value b = some x ∧ b ≠ 0x3D) :
    fromBase64 [a, b, 0x3D, 0x3D] = [UInt8.ofNat (w * 4 + x / 16)] := by
  simp [fromBase64, sextets, ha, hb]

end Groups

theorem base64Digit_value {n : ℕ} (h : n < 64) :
    base64Value (base64Digit n) = some n ∧ base64Digit n ≠ 0x3D :=
  (base64Digit_spec h).2

/-- The bytes of four digits are written as the digits. -/
theorem toBase64_group {w x y z : ℕ} (hw : w < 64) (hx : x < 64) (hy : y < 64) (hz : z < 64)
    (rest : Bytes) :
    toBase64 (UInt8.ofNat (w * 4 + x / 16) :: UInt8.ofNat (x % 16 * 16 + y / 4) ::
        UInt8.ofNat (y % 4 * 64 + z) :: rest) =
      base64Digit w :: base64Digit x :: base64Digit y :: base64Digit z :: toBase64 rest := by
  have hfirst : (UInt8.ofNat (w * 4 + x / 16)).toNat = w * 4 + x / 16 := by
    rw [UInt8.toNat_ofNat']
    omega
  have hsecond : (UInt8.ofNat (x % 16 * 16 + y / 4)).toNat = x % 16 * 16 + y / 4 := by
    rw [UInt8.toNat_ofNat']
    omega
  have hthird : (UInt8.ofNat (y % 4 * 64 + z)).toNat = y % 4 * 64 + z := by
    rw [UInt8.toNat_ofNat']
    omega
  rw [toBase64, hfirst, hsecond, hthird]
  congr 2
  · omega
  congr 2
  · omega
  congr 2
  · omega
  congr 2
  omega

/-- Bytes are read back from their base64. -/
theorem fromBase64_toBase64 (bytes : Bytes) : fromBase64 (toBase64 bytes) = bytes := by
  have hjoin : ∀ (u : UInt8) {m : ℕ}, m = u.toNat → UInt8.ofNat m = u := by
    intro u m hm
    rw [hm, UInt8.ofNat_toNat]
  fun_induction toBase64 bytes with
  | case1 => rfl
  | case2 a =>
    have ha := a.toNat_lt
    rw [fromBase64_twoPads (base64Digit_value (by omega)) (base64Digit_value (by omega)),
      hjoin a (by omega)]
  | case3 a b =>
    have ha := a.toNat_lt
    have hb := b.toNat_lt
    rw [fromBase64_onePad (base64Digit_value (by omega)) (base64Digit_value (by omega))
      (base64Digit_value (by omega)), hjoin a (by omega), hjoin b (by omega)]
  | case4 a b c rest ih =>
    have ha := a.toNat_lt
    have hb := b.toNat_lt
    have hc := c.toNat_lt
    rw [fromBase64_group (base64Digit_value (by omega)) (base64Digit_value (by omega))
      (base64Digit_value (by omega)) (base64Digit_value (by omega)), ih, hjoin a (by omega),
      hjoin b (by omega), hjoin c (by omega)]

theorem length_toBase64 (bytes : Bytes) :
    (toBase64 bytes).length = (bytes.length + 2) / 3 * 4 := by
  fun_induction toBase64 bytes with
  | case1 => rfl
  | case2 => simp
  | case3 => simp
  | case4 a b c rest ih =>
    simp only [List.length_cons, ih]
    omega

end Js
