import SupabaseUserMcp.Js.Platform

/- The dates that a clock can print. Every time of a year of four digits prints as a
   date that exists, at a time of day that exists, in the form the schema reads. -/
namespace Js

/-! Days. -/

/-- The months of a year that begins in March, by its days; only a leap year has day 365. -/
theorem civil_month : ∀ dayOfYear < 366,
    let monthFromMarch := (5 * dayOfYear + 2) / 153
    let month := if monthFromMarch < 10 then monthFromMarch + 3 else monthFromMarch - 9
    let dayOfMonth := dayOfYear - (153 * monthFromMarch + 2) / 5 + 1
    1 ≤ month ∧ month ≤ 12 ∧ 1 ≤ dayOfMonth ∧
      dayOfMonth ≤ (if month = 2 then (if dayOfYear = 365 then 29 else 28)
        else if month = 4 ∨ month = 6 ∨ month = 9 ∨ month = 11 then 30 else 31) := by
  decide +kernel

/-- A day as the era, the year and the day of the year it is in, counted from March. -/
structure FromMarch (day : ℤ) (era : ℤ) (yearOfEra dayOfYear : ℕ) : Prop where
  civil : civil day =
    (let monthFromMarch := (5 * dayOfYear + 2) / 153
     let month := if monthFromMarch < 10 then monthFromMarch + 3 else monthFromMarch - 9
     (if month ≤ 2 then 400 * era + (yearOfEra : ℕ) + 1 else 400 * era + (yearOfEra : ℕ), month,
       dayOfYear - (153 * monthFromMarch + 2) / 5 + 1))
  yearOfEra_lt : yearOfEra < 400
  dayOfYear_lt : dayOfYear < 366
  -- the year that begins in the March after a leap day
  leap : dayOfYear = 365 → (yearOfEra + 1) % 4 = 0 ∧
    ((yearOfEra + 1) % 100 ≠ 0 ∨ yearOfEra + 1 = 400)

theorem exists_fromMarch (day : ℤ) : ∃ era yearOfEra dayOfYear,
    FromMarch day era yearOfEra dayOfYear := by
  have hday : ((day + 719468) % 146097).toNat < 146097 := by omega
  let dayOfEra := ((day + 719468) % 146097).toNat
  let century := min (dayOfEra / 36524) 3
  let fourYears := (dayOfEra - 36524 * century) / 1461
  let yearOfFour := min ((dayOfEra - 36524 * century - 1461 * fourYears) / 365) 3
  refine ⟨(day + 719468) / 146097, 100 * century + 4 * fourYears + yearOfFour,
    dayOfEra - 36524 * century - 1461 * fourYears - 365 * yearOfFour, rfl, ?_, ?_, ?_⟩
  · omega
  · omega
  · omega

/-- A day of the calendar is one that its month has. -/
theorem civil_valid (day : ℤ) : 1 ≤ (civil day).2.1 ∧ (civil day).2.1 ≤ 12 ∧
    1 ≤ (civil day).2.2 ∧
    (0 ≤ (civil day).1 → (civil day).2.2 ≤ daysInMonth (civil day).1.toNat (civil day).2.1) := by
  obtain ⟨era, yearOfEra, dayOfYear, h⟩ := exists_fromMarch day
  obtain ⟨hmonth, hmonth', hdom, hdom'⟩ := civil_month dayOfYear h.dayOfYear_lt
  rw [h.civil]
  refine ⟨hmonth, hmonth', hdom, fun hpositive => hdom'.trans ?_⟩
  dsimp only at hpositive ⊢
  generalize (if (5 * dayOfYear + 2) / 153 < 10 then (5 * dayOfYear + 2) / 153 + 3
    else (5 * dayOfYear + 2) / 153 - 9) = month at hpositive ⊢
  by_cases hfebruary : month = 2
  · subst hfebruary
    simp only [daysInMonth, if_true, Nat.le_refl] at hpositive ⊢
    by_cases hleap : dayOfYear = 365
    · have := h.leap hleap
      have hyear : isLeapYear (400 * era + yearOfEra + 1).toNat = true := by
        simp only [isLeapYear, Bool.and_eq_true, Bool.or_eq_true, beq_iff_eq, bne_iff_ne]
        omega
      rw [hyear, if_pos hleap, if_pos rfl]
    · rw [if_neg hleap]
      split <;> omega
  · simp only [daysInMonth, hfebruary, if_false, Nat.le_refl]

/-! Digits. -/

theorem twoDigits_digits : ∀ a < 10, ∀ b < 10,
    twoDigits (UInt16.ofNat (0x30 + a)) (UInt16.ofNat (0x30 + b)) = some (10 * a + b) := by
  decide +kernel

theorem twoDigits_padded {n : ℕ} (h : n < 100) :
    twoDigits (UInt16.ofNat (0x30 + n / 10 % 10)) (UInt16.ofNat (0x30 + n % 10)) = some n := by
  rw [twoDigits_digits _ (Nat.mod_lt _ (by decide)) _ (Nat.mod_lt _ (by decide))]
  congr 1
  omega

theorem isDigit_digit : ∀ a < 10, isDigit (UInt16.ofNat (0x30 + a)) = true := by decide +kernel

theorem paddedDecimal_two (n : ℕ) : paddedDecimal 2 n =
    [UInt16.ofNat (0x30 + n / 10 % 10), UInt16.ofNat (0x30 + n % 10)] := by
  show [UInt16.ofNat (0x30 + n / 10 ^ 1 % 10), UInt16.ofNat (0x30 + n / 10 ^ 0 % 10)] = _
  rw [pow_one, pow_zero, Nat.div_one]

theorem paddedDecimal_three (n : ℕ) : paddedDecimal 3 n =
    [UInt16.ofNat (0x30 + n / 100 % 10), UInt16.ofNat (0x30 + n / 10 % 10),
      UInt16.ofNat (0x30 + n % 10)] := by
  show [UInt16.ofNat (0x30 + n / 10 ^ 2 % 10), UInt16.ofNat (0x30 + n / 10 ^ 1 % 10),
    UInt16.ofNat (0x30 + n / 10 ^ 0 % 10)] = _
  rw [pow_one, pow_zero, Nat.div_one]
  rfl

theorem paddedDecimal_four (n : ℕ) : paddedDecimal 4 n =
    paddedDecimal 2 (n / 100) ++ paddedDecimal 2 (n % 100) := by
  rw [paddedDecimal_two, paddedDecimal_two]
  show [UInt16.ofNat (0x30 + n / 10 ^ 3 % 10), UInt16.ofNat (0x30 + n / 10 ^ 2 % 10),
    UInt16.ofNat (0x30 + n / 10 ^ 1 % 10), UInt16.ofNat (0x30 + n / 10 ^ 0 % 10)] = _
  have h3 : n / 10 ^ 3 % 10 = n / 100 / 10 % 10 := by omega
  have h1 : n / 10 ^ 1 % 10 = n % 100 / 10 % 10 := by omega
  have h0 : n / 10 ^ 0 % 10 = n % 100 % 10 := by omega
  rw [h3, h1, h0]
  rfl

theorem isoFraction_millis (n : ℕ) : isoFraction (paddedDecimal 3 n ++ [0x5A]) = true := by
  have hdigit : ∀ m, isDigit (UInt16.ofNat (0x30 + m % 10)) = true :=
    fun m => isDigit_digit _ (Nat.mod_lt m (by decide))
  rw [paddedDecimal_three]
  simp only [List.cons_append, List.nil_append, isoFraction, hdigit, Bool.true_and,
    List.dropWhile_cons, if_true]
  rfl

/-- The time of day that a clock prints. -/
theorem isoTime_printed {hour minute second : ℕ} (hhour : hour < 24) (hminute : minute < 60)
    (hsecond : second < 60) (millis : ℕ) :
    isoTime (paddedDecimal 2 hour ++ 0x3A :: paddedDecimal 2 minute ++ 0x3A ::
      paddedDecimal 2 second ++ 0x2E :: paddedDecimal 3 millis ++ [0x5A]) = true := by
  rw [paddedDecimal_two hour, paddedDecimal_two minute, paddedDecimal_two second]
  simp only [List.cons_append, List.nil_append, isoTime, @twoDigits_padded hour (by omega),
    @twoDigits_padded minute (by omega), @twoDigits_padded second (by omega),
    Option.any_some, isoFraction_millis, decide_eq_true (show hour ≤ 23 by omega),
    decide_eq_true (show minute ≤ 59 by omega), decide_eq_true (show second ≤ 59 by omega),
    Bool.or_true, Bool.and_true]

/-- Every time of a year of four digits prints as a datetime. -/
theorem isoDatetime_toISOString {time : ℤ} (hlow : 0 ≤ (civil (time / 86400000)).1)
    (hhigh : (civil (time / 86400000)).1 ≤ 9999) : isoDatetime (toISOString time) = true := by
  have hvalid := civil_valid (time / 86400000)
  rw [toISOString]
  generalize civil (time / 86400000) = date at hlow hhigh hvalid
  obtain ⟨year, month, day⟩ := date
  dsimp only at hlow hhigh hvalid ⊢
  obtain ⟨hmonth, hmonth', hday, hday'⟩ := hvalid
  have hmillis : (time % 86400000).toNat < 86400000 := by omega
  generalize (time % 86400000).toNat = millis at hmillis
  have hdays : day ≤ 31 := by
    have := hday' hlow
    rw [daysInMonth] at this
    split at this <;> split at this <;> omega
  have htime := @isoTime_printed (millis / 3600000) (millis / 60000 % 60) (millis / 1000 % 60)
    (by omega) (by omega) (by omega) (millis % 1000)
  rw [isoYear, if_pos ⟨hlow, hhigh⟩, paddedDecimal_four, paddedDecimal_two (year.toNat / 100),
    paddedDecimal_two (year.toNat % 100), paddedDecimal_two month, paddedDecimal_two day]
  have hyear : 100 * (year.toNat / 100) + year.toNat % 100 = year.toNat := Nat.div_add_mod _ _
  simp only [List.cons_append, List.nil_append, List.append_assoc] at htime ⊢
  simp only [isoDatetime, @twoDigits_padded (year.toNat / 100) (by omega),
    @twoDigits_padded (year.toNat % 100) (by omega), @twoDigits_padded month (by omega),
    @twoDigits_padded day (by omega), htime, hyear, Bool.and_true, Bool.and_eq_true,
    decide_eq_true_eq]
  exact ⟨⟨⟨hmonth, hmonth'⟩, hday⟩, hday' hlow⟩

end Js
