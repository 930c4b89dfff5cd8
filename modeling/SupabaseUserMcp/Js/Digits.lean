import SupabaseUserMcp.Js.Json

/- The digits numbers are printed in. A decimal is a nonempty run of digits that names
   its number; a hexadecimal is a nonempty run of lowercase digits. -/
namespace Js

/-! Decimals. -/

theorem toNat_of_mem_toDigits {n : ℕ} {c : Char} (h : c ∈ Nat.toDigits 10 n) :
    48 ≤ c.toNat ∧ c.toNat ≤ 57 := by
  have hdigit := Nat.isDigit_of_mem_toDigits (by decide) (by decide) h
  simp only [Char.isDigit, Bool.and_eq_true, decide_eq_true_eq, ge_iff_le,
    UInt32.le_iff_toNat_le] at hdigit
  exact hdigit

theorem isDigit_of_mem_decimal {n : ℕ} {u : UInt16} (h : u ∈ decimal n) : isDigit u = true := by
  obtain ⟨c, hc, rfl⟩ := List.mem_map.mp h
  obtain ⟨hlo, hhi⟩ := toNat_of_mem_toDigits hc
  have key : ∀ n < 58, 48 ≤ n → isDigit (UInt16.ofNat n) = true := by decide
  exact key c.toNat (by omega) hlo

theorem decimal_ne_nil (n : ℕ) : decimal n ≠ [] := by
  rw [decimal, Ne, List.map_eq_nil_iff]
  exact Nat.toDigits_ne_nil

theorem length_decimal_le {n k : ℕ} (hk : 0 < k) (h : n < 10 ^ k) : (decimal n).length ≤ k := by
  rw [decimal, List.length_map]
  exact (Nat.length_toDigits_le_iff (by decide) hk).mpr h

/-- The number a run of digits names. -/
def decimalValue (s : Text) : ℕ := Nat.ofDigitChars 10 (s.map fun u => Char.ofNat u.toNat) 0

theorem decimalValue_decimal (n : ℕ) : decimalValue (decimal n) = n := by
  have hread : (decimal n).map (fun u => Char.ofNat u.toNat) = Nat.toDigits 10 n := by
    rw [decimal, List.map_map]
    refine (List.map_congr_left fun c hc => ?_).trans (List.map_id _)
    have hsmall := (toNat_of_mem_toDigits hc).2
    have hunit : (UInt16.ofNat c.toNat).toNat = c.toNat := by
      rw [UInt16.toNat_ofNat']
      omega
    rw [Function.comp_apply, hunit, Char.ofNat_toNat, id]
  rw [decimalValue, hread, Nat.ofDigitChars_ten_toDigits]

theorem decimal_injective : Function.Injective decimal :=
  Function.LeftInverse.injective decimalValue_decimal

/-! Hexadecimals. -/

/-- Printing in a base up to 16 uses the digits below it. -/
theorem exists_digit_of_mem_toDigits {b : ℕ} (hb : 1 < b) : ∀ {n : ℕ} {c : Char},
    c ∈ Nat.toDigits b n → ∃ d < b, c = d.digitChar := by
  intro n
  induction n using Nat.strong_induction_on with
  | _ n ih =>
    intro c hc
    rw [Nat.toDigits_eq_if hb] at hc
    split at hc
    · next hlt => exact ⟨n, hlt, List.mem_singleton.mp hc⟩
    · next hge =>
      rcases List.mem_append.mp hc with hlead | hlast
      · exact ih (n / b) (Nat.div_lt_self (by omega) hb) hlead
      · exact ⟨n % b, Nat.mod_lt _ (by omega), List.mem_singleton.mp hlast⟩

theorem isLowerHexDigit_digitChar {d : ℕ} (h : d < 16) :
    isLowerHexDigit (UInt16.ofNat d.digitChar.toNat) = true := by
  interval_cases d <;> decide

/-- The number a run of lowercase hexadecimal digits names. -/
def hexadecimalValue (s : Text) : ℕ :=
  s.foldl (fun n u => 16 * n + (hexValue u).getD 0) 0

theorem hexValue_digitChar {d : ℕ} (h : d < 16) :
    hexValue (UInt16.ofNat d.digitChar.toNat) = some d := by
  interval_cases d <;> decide

theorem hexadecimalValue_toDigits (n : ℕ) :
    hexadecimalValue ((Nat.toDigits 16 n).map fun c => UInt16.ofNat c.toNat) = n := by
  induction n using Nat.strong_induction_on with
  | _ n ih =>
    rw [Nat.toDigits_eq_if (by decide)]
    split
    · next hlt => simp [hexadecimalValue, hexValue_digitChar hlt]
    · next hge =>
      have hlast : hexValue (UInt16.ofNat (n % 16).digitChar.toNat) = some (n % 16) :=
        hexValue_digitChar (Nat.mod_lt _ (by decide))
      have hfirst := ih (n / 16) (Nat.div_lt_self (by omega) (by decide))
      rw [hexadecimalValue] at hfirst
      rw [hexadecimalValue, List.map_append, List.foldl_append, hfirst, List.map_singleton,
        List.foldl_cons, List.foldl_nil, hlast]
      exact Nat.div_add_mod n 16

end Js
