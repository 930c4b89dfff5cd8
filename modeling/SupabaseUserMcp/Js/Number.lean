import Mathlib.Data.Rat.Floor

/- JavaScript numbers, as far as validators compare and combine them. A finite
   double is its rational value and `-0` is `0`, as under `===`. Arithmetic is
   exact: the programs verified here add, subtract and multiply only numbers
   they have already checked to be integers below `2^53`, where doubles are
   exact too. A sum of natural numbers that may pass `2^53` is rounded by
   `toDouble`. -/
namespace Js

/-- A JavaScript number. -/
inductive Number where
  | nan
  | negInfinity
  | finite (q : ℚ)
  | infinity
  deriving DecidableEq, Repr

namespace Number

/-- The number an integer literal denotes. -/
def ofInt (n : ℤ) : Number := .finite n

/-- The number a length or an index denotes. -/
def ofNat (n : ℕ) : Number := .finite n

instance : Coe ℕ Number := ⟨ofNat⟩

/-- `a === b`: `NaN` equals nothing, itself included. -/
def strictEq (a b : Number) : Bool := a ≠ .nan && a == b

/-- `a < b`, false as soon as one side is `NaN`. -/
def lt : Number → Number → Bool
  | .nan, _ | _, .nan => false
  | _, .negInfinity | .infinity, _ => false
  | .negInfinity, _ | _, .infinity => true
  | .finite p, .finite q => p < q

/-- `a > b`. -/
def gt (a b : Number) : Bool := lt b a

/-- `a <= b`: on numbers that are not `NaN`, not `b < a`. -/
def le (a b : Number) : Bool := a ≠ .nan && b ≠ .nan && !lt b a

/-- `Number.isInteger`. -/
def isInteger : Number → Bool
  | .finite q => q.den == 1
  | _ => false

/-- `Number.MAX_SAFE_INTEGER`. -/
def maxSafeInteger : ℤ := 9007199254740991

/-- `Number.isSafeInteger`. -/
def isSafeInteger : Number → Bool
  | .finite q => q.den == 1 && -maxSafeInteger ≤ q.num && q.num ≤ maxSafeInteger
  | _ => false

/-- `a - b` on finite numbers; the validators reach it with integers only. -/
def sub : Number → Number → Number
  | .finite p, .finite q => .finite (p - q)
  | _, _ => .nan

/-- `a * b` on finite numbers; the validators reach it with integers only. -/
def mul : Number → Number → Number
  | .finite p, .finite q => .finite (p * q)
  | _, _ => .nan

/-- `a + b` on finite numbers; the validators reach it with integers only. -/
def add : Number → Number → Number
  | .finite p, .finite q => .finite (p + q)
  | _, _ => .nan

/-- `Math.ceil(a / b)` on finite numbers and a nonzero divisor. -/
def ceilDiv : Number → Number → Number
  | .finite p, .finite q => .ofInt ⌈p / q⌉
  | _, _ => .nan

/-- The index or length a number stands for once it has been checked to be a
natural number. -/
def toNat : Number → ℕ
  | .finite q => q.num.toNat
  | _ => 0

/-! The natural numbers among them. -/

theorem ofNat_injective : Function.Injective ofNat := fun a b h => by
  simpa [ofNat] using h

@[simp] theorem ofNat_inj {a b : ℕ} : ofNat a = ofNat b ↔ a = b := ofNat_injective.eq_iff

@[simp] theorem ofNat_ne_nan (n : ℕ) : ofNat n ≠ .nan := by simp [ofNat]

@[simp] theorem strictEq_ofNat (a b : ℕ) : strictEq (ofNat a) (ofNat b) = decide (a = b) := by
  by_cases h : a = b <;> simp [strictEq, h]

@[simp] theorem lt_ofNat (a b : ℕ) : lt (ofNat a) (ofNat b) = decide (a < b) := by
  simp [lt, ofNat]

@[simp] theorem gt_ofNat (a b : ℕ) : gt (ofNat a) (ofNat b) = decide (b < a) := by
  simp [gt]

@[simp] theorem le_ofNat (a b : ℕ) : le (ofNat a) (ofNat b) = decide (a ≤ b) := by
  by_cases h : b < a
  · simp [le, h]
  · simp [le, h, Nat.not_lt.mp h]

@[simp] theorem isInteger_ofNat (n : ℕ) : isInteger (ofNat n) = true := by
  simp [isInteger, ofNat]

theorem isSafeInteger_ofNat {n : ℕ} (h : n ≤ 9007199254740991) : isSafeInteger (ofNat n) = true := by
  have hnum : ((n : ℕ) : ℚ).num = (n : ℤ) := Rat.num_natCast n
  have hden : ((n : ℕ) : ℚ).den = 1 := Rat.den_natCast n
  simp only [isSafeInteger, ofNat, hnum, hden, maxSafeInteger, Bool.and_eq_true, beq_self_eq_true,
    decide_eq_true_eq, true_and]
  omega

@[simp] theorem mul_ofNat (a b : ℕ) : mul (ofNat a) (ofNat b) = ofNat (a * b) := by
  simp [mul, ofNat]

@[simp] theorem add_ofNat (a b : ℕ) : add (ofNat a) (ofNat b) = ofNat (a + b) := by
  simp [add, ofNat]

theorem sub_ofNat {a b : ℕ} (h : b ≤ a) : sub (ofNat a) (ofNat b) = ofNat (a - b) := by
  simp [sub, ofNat, Nat.cast_sub h]

/-- Division of naturals, rounded up. -/
theorem ceilDiv_ofNat (a b : ℕ) (hb : 0 < b) :
    ceilDiv (ofNat a) (ofNat b) = ofNat ((a + b - 1) / b) := by
  have hb' : (0 : ℚ) < b := by exact_mod_cast hb
  have hdiv := Nat.div_add_mod (a + b - 1) b
  have hmod := Nat.mod_lt (a + b - 1) hb
  have hle : a ≤ b * ((a + b - 1) / b) := by omega
  have hlt : b * ((a + b - 1) / b) < a + b := by omega
  have hceil : ⌈(a : ℚ) / b⌉ = (((a + b - 1) / b : ℕ) : ℤ) := by
    rw [Int.ceil_eq_iff]
    constructor
    · rw [Int.cast_natCast, lt_div_iff₀ hb', sub_mul, sub_lt_iff_lt_add]
      have : ((b * ((a + b - 1) / b) : ℕ) : ℚ) < ((a + b : ℕ) : ℚ) := by exact_mod_cast hlt
      push_cast at this
      linarith
    · rw [Int.cast_natCast, div_le_iff₀ hb', mul_comm]
      exact_mod_cast hle
  simp only [ceilDiv, ofNat, ofInt, hceil]
  norm_cast

@[simp] theorem toNat_ofNat (n : ℕ) : toNat (ofNat n) = n := by
  simp [toNat, ofNat]

theorem isInteger_of_isSafeInteger {x : Number} (h : isSafeInteger x = true) :
    isInteger x = true := by
  cases x with
  | finite q =>
    simp only [isSafeInteger, Bool.and_eq_true] at h
    exact h.1.1
  | _ => cases h

/-- An integer that is not below a natural number is itself one. -/
theorem eq_ofNat_of_isInteger {x : Number} {k : ℕ} (hi : isInteger x = true)
    (hk : lt x (ofNat k) = false) : ∃ n : ℕ, x = ofNat n ∧ k ≤ n := by
  cases x with
  | finite q =>
    have hden : q.den = 1 := by simpa [isInteger] using hi
    have hq : (k : ℚ) ≤ q := by simpa [lt, ofNat] using hk
    have hnum : 0 ≤ q.num := Rat.num_nonneg.mpr (le_trans (Nat.cast_nonneg k) hq)
    have hcast : ((q.num.toNat : ℕ) : ℚ) = q := by
      rw [← Int.cast_natCast, Int.toNat_of_nonneg hnum]
      exact (Rat.den_eq_one_iff q).mp hden
    refine ⟨q.num.toNat, by rw [ofNat, hcast], ?_⟩
    rw [← hcast] at hq
    exact_mod_cast hq
  | _ => simp [isInteger] at hi

/-- Strict equality with a natural number is equality. -/
theorem strictEq_right_ofNat {x : Number} {n : ℕ} : strictEq x (ofNat n) = true ↔ x = ofNat n := by
  constructor
  · intro h
    simp only [strictEq, Bool.and_eq_true, beq_iff_eq] at h
    exact h.2
  · rintro rfl
    simp

/-! Sums that pass `2^53`. -/

/-- The double nearest to a natural number, the one with an even significand
where two are as near. -/
def toDouble (n : ℕ) : ℕ :=
  let ulp := 2 ^ (Nat.log2 n - 52)
  if 2 * (n % ulp) < ulp ∨ 2 * (n % ulp) = ulp ∧ n / ulp % 2 = 0 then n / ulp * ulp
  else (n / ulp + 1) * ulp

theorem toDouble_of_lt {n : ℕ} (h : n < 2 ^ 53) : toDouble n = n := by
  have hlog : Nat.log2 n - 52 = 0 := by
    rcases Nat.eq_zero_or_pos n with rfl | hpos
    · rfl
    · have := (Nat.log2_lt hpos.ne').mpr h
      omega
  simp [toDouble, hlog, Nat.mod_one]

/-- From `2^53` to `2^54` only the even numbers are doubles. -/
theorem toDouble_of_le {n : ℕ} (hlow : 2 ^ 53 ≤ n) (hhigh : n < 2 ^ 54) :
    toDouble n = if n % 4 = 1 then n - 1 else if n % 4 = 3 then n + 1 else n := by
  have hlog : Nat.log2 n = 53 := by
    have hne : n ≠ 0 := by omega
    have hlt := (Nat.log2_lt hne).mpr hhigh
    have hle := (Nat.le_log2 hne).mpr hlow
    omega
  simp only [toDouble, hlog, show 53 - 52 = 1 from rfl, Nat.pow_one]
  split_ifs <;> omega

/-- `n` is past `m`, and no double tells them apart. -/
def LostPast (m n : ℕ) : Prop := 2 ^ 53 ≤ m ∧ m < n ∧ (n + 1) / 4 = (m + 1) / 4 ∧ n % 4 ≠ 2

theorem toDouble_le_toDouble {n m : ℕ} (hn : n < 2 ^ 54) (hm : m < 2 ^ 54) :
    toDouble n ≤ toDouble m ↔ n ≤ m ∨ LostPast m n := by
  rw [LostPast]
  rcases Nat.lt_or_ge n (2 ^ 53) with hn' | hn'
  · rcases Nat.lt_or_ge m (2 ^ 53) with hm' | hm'
    · rw [toDouble_of_lt hn', toDouble_of_lt hm']
      omega
    · rw [toDouble_of_lt hn', toDouble_of_le hm' hm]
      split_ifs <;> omega
  · rcases Nat.lt_or_ge m (2 ^ 53) with hm' | hm'
    · rw [toDouble_of_le hn' hn, toDouble_of_lt hm']
      split_ifs <;> omega
    · rw [toDouble_of_le hn' hn, toDouble_of_le hm' hm]
      split_ifs <;> omega

/-- A sum equal to a safe integer was not rounded. -/
theorem eq_toDouble_iff {n m : ℕ} (hn : n < 2 ^ 53) (hm : m < 2 ^ 54) :
    n = toDouble m ↔ n = m := by
  rcases Nat.lt_or_ge m (2 ^ 53) with hm' | hm'
  · rw [toDouble_of_lt hm']
  · rw [toDouble_of_le hm' hm]
    split_ifs <;> omega

end Number
end Js
