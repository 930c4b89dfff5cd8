import SupabaseUserMcp.Js.Dates
import SupabaseUserMcp.Js.Utf16
import SupabaseUserMcp.PolicyLab

/- How a timestamp stands in JSON in a session whose time zone is UTC, and that these
   texts, read from left to right, come in the order of time. A date is longer the later
   it is in its year, and a fraction that goes on comes after one that ends. -/
namespace MemoryRpc.UtcTime

open Js (Text civil isAscii paddedDecimal)
open PolicyLab (Timestamp)

/-! ## Dates -/

/-- Dates as year, month and day are compared. -/
def DateLt (a b : ℤ × ℕ × ℕ) : Prop :=
  a.1 < b.1 ∨ a.1 = b.1 ∧ (a.2.1 < b.2.1 ∨ a.2.1 = b.2.1 ∧ a.2.2 < b.2.2)

/-- The date of a day, from its year and its day of the year, both counted from March. -/
def dateFromMarch (year : ℤ) (dayOfYear : ℕ) : ℤ × ℕ × ℕ :=
  let monthFromMarch := (5 * dayOfYear + 2) / 153
  let month := if monthFromMarch < 10 then monthFromMarch + 3 else monthFromMarch - 9
  (if month ≤ 2 then year + 1 else year, month, dayOfYear - (153 * monthFromMarch + 2) / 5 + 1)

theorem dateFromMarch_lt {year year' : ℤ} {dayOfYear dayOfYear' : ℕ} (hday : dayOfYear < 366)
    (hday' : dayOfYear' < 366)
    (h : year < year' ∨ year = year' ∧ dayOfYear < dayOfYear') :
    DateLt (dateFromMarch year dayOfYear) (dateFromMarch year' dayOfYear') := by
  simp only [DateLt, dateFromMarch]
  obtain ⟨month, hmonth⟩ : ∃ month, (5 * dayOfYear + 2) / 153 = month := ⟨_, rfl⟩
  obtain ⟨month', hmonth'⟩ : ∃ month', (5 * dayOfYear' + 2) / 153 = month' := ⟨_, rfl⟩
  rw [hmonth, hmonth']
  have hfirst : (153 * month + 2) / 5 ≤ dayOfYear := by omega
  split_ifs <;> omega

/-- Year from March and day of the year, of a day counted from 1970-01-01. -/
theorem exists_date (day : ℤ) : ∃ (era : ℤ) (dayOfEra century fourYears yearOfFour dayOfYear : ℕ),
    day + 719468 = 146097 * era + dayOfEra ∧ dayOfEra < 146097 ∧
    century = min (dayOfEra / 36524) 3 ∧
    fourYears = (dayOfEra - 36524 * century) / 1461 ∧
    yearOfFour = min ((dayOfEra - 36524 * century - 1461 * fourYears) / 365) 3 ∧
    dayOfEra = 36524 * century + 1461 * fourYears + 365 * yearOfFour + dayOfYear ∧
    dayOfYear < 366 ∧
    civil day = dateFromMarch (400 * era + (100 * century + 4 * fourYears + yearOfFour : ℕ))
      dayOfYear := by
  refine ⟨(day + 719468) / 146097, ((day + 719468) % 146097).toNat, _, _, _,
    ((day + 719468) % 146097).toNat - 36524 * min (((day + 719468) % 146097).toNat / 36524) 3 -
      1461 * ((((day + 719468) % 146097).toNat -
        36524 * min (((day + 719468) % 146097).toNat / 36524) 3) / 1461) -
      365 * min ((((day + 719468) % 146097).toNat -
        36524 * min (((day + 719468) % 146097).toNat / 36524) 3 -
        1461 * ((((day + 719468) % 146097).toNat -
          36524 * min (((day + 719468) % 146097).toNat / 36524) 3) / 1461)) / 365) 3,
    ?_, ?_, rfl, rfl, rfl, ?_, ?_, rfl⟩
  · omega
  · omega
  · omega
  · omega

theorem civil_lt {day day' : ℤ} (h : day < day') : DateLt (civil day) (civil day') := by
  obtain ⟨era, dayOfEra, century, fourYears, yearOfFour, dayOfYear, hday, hera, hcentury, hfour,
    hyear, hsum, hshort, hcivil⟩ := exists_date day
  obtain ⟨era', dayOfEra', century', fourYears', yearOfFour', dayOfYear', hday', hera', hcentury',
    hfour', hyear', hsum', hshort', hcivil'⟩ := exists_date day'
  rw [hcivil, hcivil']
  refine dateFromMarch_lt hshort hshort' ?_
  have heras : era < era' ∨ era = era' ∧ dayOfEra < dayOfEra' := by omega
  rcases heras with hless | ⟨rfl, hless⟩
  · left
    omega
  · have hcenturies : century < century' ∨ century = century' := by omega
    rcases hcenturies with hless | rfl
    · left
      omega
    · have hfours : fourYears < fourYears' ∨ fourYears = fourYears' := by omega
      rcases hfours with hless | rfl
      · left
        omega
      · omega

/-! ## Texts -/

/-- A text without its last zeros. -/
def trimZeros : Text → Text
  | [] => []
  | u :: rest => if (u :: rest).all (· == 0x30) then [] else u :: trimZeros rest

/-- The microseconds of a second, with as many digits as they need. -/
def fraction (micros : ℕ) : Text :=
  if micros = 0 then [] else 0x2E :: trimZeros (paddedDecimal 6 micros)

/-- A date of a year from 1 to 9999 and the microseconds of the day. -/
def dateTime (date : ℤ × ℕ × ℕ) (micros : ℕ) : Text :=
  paddedDecimal 4 date.1.toNat ++ 0x2D :: (paddedDecimal 2 date.2.1 ++ 0x2D ::
    (paddedDecimal 2 date.2.2 ++ 0x54 :: (paddedDecimal 2 (micros / 3600000000) ++ 0x3A ::
      (paddedDecimal 2 (micros / 60000000 % 60) ++ 0x3A :: (paddedDecimal 2
        (micros / 1000000 % 60) ++ (fraction (micros % 1000000) ++ Js.text "+00:00"))))))

/-- The date of a time. Timestamps are counted from 2000-01-01. -/
def dateOf (time : Timestamp) : ℤ × ℕ × ℕ := civil (time / 86400000000 + 10957)

/-- A `timestamptz` in `jsonb`, in UTC. -/
def timestampJson (time : Timestamp) : Text :=
  dateTime (dateOf time) (time % 86400000000).toNat

/-- A time of a year that has four digits. -/
def InYears (time : Timestamp) : Prop := 1 ≤ (dateOf time).1 ∧ (dateOf time).1 ≤ 9999

example : timestampJson 86399500000 = Js.text "2000-01-01T23:59:59.5+00:00" := by decide +kernel

/-! ## Order -/

theorem append_lt_append {a b s t : Text} (hlength : a.length = b.length)
    (h : a < b ∨ a = b ∧ s < t) : a ++ s < b ++ t := by
  induction a generalizing b with
  | nil =>
    obtain rfl := List.eq_nil_of_length_eq_zero hlength.symm
    exact h.elim (fun hlt => absurd hlt (List.not_lt_nil _)) And.right
  | cons u a ih =>
    cases b with
    | nil => cases hlength
    | cons v b =>
      rw [List.cons_append, List.cons_append, List.cons_lt_cons_iff]
      have hrest : a.length = b.length := Nat.succ.inj hlength
      rcases h with hlt | ⟨heq, hlt⟩
      · rw [List.cons_lt_cons_iff] at hlt
        exact hlt.imp_right fun hlt => ⟨hlt.1, ih hrest (.inl hlt.2)⟩
      · obtain ⟨rfl, rfl⟩ := List.cons.inj heq
        exact .inr ⟨rfl, ih rfl (.inr ⟨rfl, hlt⟩)⟩

theorem cons_lt_cons {u : UInt16} {s t : Text} (h : s < t) : u :: s < u :: t :=
  List.cons_lt_cons_iff.mpr (.inr ⟨rfl, h⟩)

theorem length_paddedDecimal (k n : ℕ) : (paddedDecimal k n).length = k := by
  rw [paddedDecimal, List.length_map, List.length_reverse, List.length_range]

theorem paddedDecimal_succ (k n : ℕ) : paddedDecimal (k + 1) n =
    UInt16.ofNat (0x30 + n / 10 ^ k % 10) :: paddedDecimal k n := by
  rw [paddedDecimal, List.range_succ, List.reverse_append, List.reverse_singleton,
    List.singleton_append, List.map_cons]
  rfl

theorem paddedDecimal_mod (k n : ℕ) : paddedDecimal k (n % 10 ^ k) = paddedDecimal k n := by
  refine List.map_congr_left fun i hi => ?_
  have hlt : i < k := List.mem_range.mp (List.mem_reverse.mp hi)
  obtain ⟨j, rfl⟩ : ∃ j, k = i + 1 + j := ⟨k - i - 1, by omega⟩
  have hsplit : n % 10 ^ (i + 1 + j) / 10 ^ i % 10 = n / 10 ^ i % 10 := by
    rw [Nat.add_assoc, Nat.pow_add, Nat.mod_mul_right_div_self, Nat.mod_mod_of_dvd]
    rw [Nat.add_comm 1 j, Nat.pow_succ]
    exact Dvd.intro_left _ rfl
  rw [hsplit]

theorem digit_lt : ∀ d < 10, ∀ e < 10, d < e →
    UInt16.ofNat (0x30 + d) < UInt16.ofNat (0x30 + e) := by decide

/-- Numbers of the same number of digits are in the order of their texts. -/
theorem paddedDecimal_lt {k n m : ℕ} (h : n < m) (hm : m < 10 ^ k) :
    paddedDecimal k n < paddedDecimal k m := by
  induction k generalizing n m with
  | zero => omega
  | succ k ih =>
    have hpos : 0 < 10 ^ k := Nat.pow_pos (by decide)
    rw [Nat.pow_succ] at hm
    have htop : m / 10 ^ k < 10 := Nat.div_lt_of_lt_mul hm
    have hle : n / 10 ^ k ≤ m / 10 ^ k := Nat.div_le_div_right h.le
    rw [paddedDecimal_succ, paddedDecimal_succ, List.cons_lt_cons_iff,
      Nat.mod_eq_of_lt (Nat.lt_of_le_of_lt hle htop), Nat.mod_eq_of_lt htop]
    rcases Nat.lt_or_eq_of_le hle with hless | heq
    · exact .inl (digit_lt _ (Nat.lt_of_le_of_lt hle htop) _ htop hless)
    · rw [heq]
      have hn := Nat.div_add_mod n (10 ^ k)
      have hm' := Nat.div_add_mod m (10 ^ k)
      rw [heq] at hn
      refine .inr ⟨rfl, ?_⟩
      rw [← paddedDecimal_mod k n, ← paddedDecimal_mod k m]
      exact ih (by omega) (Nat.mod_lt _ hpos)

/-- A field of fixed length, and what follows it. -/
theorem field_lt {k n m : ℕ} (hm : m < 10 ^ k) {s t : Text} (h : n < m ∨ n = m ∧ s < t) :
    paddedDecimal k n ++ s < paddedDecimal k m ++ t := by
  refine append_lt_append ((length_paddedDecimal k n).trans (length_paddedDecimal k m).symm) ?_
  exact h.imp (fun hlt => paddedDecimal_lt hlt hm) fun heq => ⟨congrArg _ heq.1, heq.2⟩

/-- What comes after digits of the same number is not all zeros. -/
theorem not_zeros_of_lt {a b : Text} (hlength : a.length = b.length) (ha : ∀ u ∈ a, 0x30 ≤ u)
    (h : a < b) : b.all (· == 0x30) = false := by
  induction a generalizing b with
  | nil =>
    obtain rfl := List.eq_nil_of_length_eq_zero hlength.symm
    exact absurd h (List.not_lt_nil _)
  | cons u a ih =>
    cases b with
    | nil => cases hlength
    | cons v b =>
      obtain ⟨hu, ha⟩ := List.forall_mem_cons.mp ha
      rw [List.all_cons, Bool.and_eq_false_iff]
      rcases List.cons_lt_cons_iff.mp h with hlt | ⟨-, hlt⟩
      · left
        rw [beq_eq_false_iff_ne]
        intro hv
        exact UInt16.not_lt.mpr hu (hv ▸ hlt)
      · exact .inr (ih (Nat.succ.inj hlength) ha hlt)

/-- Trimmed digits before a sign that comes before all digits. -/
theorem trimZeros_lt {a b s : Text} (hlength : a.length = b.length) (ha : ∀ u ∈ a, 0x30 ≤ u)
    (h : a < b) : trimZeros a ++ 0x2B :: s < trimZeros b ++ 0x2B :: s := by
  induction a generalizing b with
  | nil =>
    obtain rfl := List.eq_nil_of_length_eq_zero hlength.symm
    exact absurd h (List.not_lt_nil _)
  | cons u a ih =>
    cases b with
    | nil => cases hlength
    | cons v b =>
      have hzeros := not_zeros_of_lt hlength ha h
      obtain ⟨hu, ha⟩ := List.forall_mem_cons.mp ha
      have huv : u < v ∨ u = v ∧ a < b := List.cons_lt_cons_iff.mp h
      have hv : 0x2B < v := by
        rw [UInt16.le_iff_toNat_le] at hu
        rw [UInt16.lt_iff_toNat_lt]
        change 0x30 ≤ u.toNat at hu
        change 0x2B < v.toNat
        rcases huv with hlt | ⟨rfl, -⟩
        · rw [UInt16.lt_iff_toNat_lt] at hlt
          omega
        · omega
      rw [trimZeros, trimZeros, if_neg (Bool.eq_false_iff.mp hzeros)]
      split
      · exact List.cons_lt_cons_iff.mpr (.inl hv)
      · rw [List.cons_append, List.cons_append, List.cons_lt_cons_iff]
        exact huv.imp_right fun heq => ⟨heq.1, ih (Nat.succ.inj hlength) ha heq.2⟩

theorem zero_le_of_mem_paddedDecimal {k n : ℕ} {u : UInt16} (h : u ∈ paddedDecimal k n) :
    0x30 ≤ u := by
  obtain ⟨i, -, rfl⟩ := List.mem_map.mp h
  have hdigit : n / 10 ^ i % 10 < 10 := Nat.mod_lt _ (by decide)
  rw [UInt16.le_iff_toNat_le, UInt16.toNat_ofNat']
  change 0x30 ≤ _
  omega

theorem fraction_lt {n m : ℕ} (h : n < m) (hm : m < 1000000) :
    fraction n ++ Js.text "+00:00" < fraction m ++ Js.text "+00:00" := by
  have hoffset : Js.text "+00:00" = 0x2B :: Js.text "00:00" := by decide
  rw [fraction, fraction, if_neg (by omega : ¬ m = 0), hoffset]
  split
  · exact List.cons_lt_cons_iff.mpr (.inl (by decide))
  · refine cons_lt_cons (trimZeros_lt ?_ (fun u => zero_le_of_mem_paddedDecimal) ?_)
    · rw [length_paddedDecimal, length_paddedDecimal]
    · exact paddedDecimal_lt h hm

theorem dateTime_lt {date date' : ℤ × ℕ × ℕ} {micros micros' : ℕ} (hyear : 0 ≤ date.1)
    (hyear' : date'.1 ≤ 9999) (hmonth : date'.2.1 ≤ 12) (hday : date'.2.2 ≤ 31)
    (hmicros : micros' < 86400000000)
    (h : DateLt date date' ∨ date = date' ∧ micros < micros') :
    dateTime date micros < dateTime date' micros' := by
  obtain ⟨year, month, day⟩ := date
  obtain ⟨year', month', day'⟩ := date'
  simp only [DateLt, Prod.mk.injEq] at h hyear hyear' hmonth hday
  have hdate : year.toNat < year'.toNat ∨ year.toNat = year'.toNat ∧ (month < month' ∨
      month = month' ∧ (day < day' ∨ day = day' ∧ micros < micros')) := by omega
  have hclock : micros < micros' → micros / 3600000000 < micros' / 3600000000 ∨
      micros / 3600000000 = micros' / 3600000000 ∧
      (micros / 60000000 % 60 < micros' / 60000000 % 60 ∨
        micros / 60000000 % 60 = micros' / 60000000 % 60 ∧
        (micros / 1000000 % 60 < micros' / 1000000 % 60 ∨
          micros / 1000000 % 60 = micros' / 1000000 % 60 ∧
            micros % 1000000 < micros' % 1000000)) := by omega
  refine field_lt (by omega) (hdate.imp_right (And.imp_right fun h => cons_lt_cons ?_))
  refine field_lt (Nat.lt_of_le_of_lt hmonth (by decide)) (h.imp_right (And.imp_right fun h =>
    cons_lt_cons ?_))
  refine field_lt (Nat.lt_of_le_of_lt hday (by decide)) (h.imp_right (And.imp_right fun h =>
    cons_lt_cons ?_))
  refine field_lt (by omega) ((hclock h).imp_right (And.imp_right fun h => cons_lt_cons ?_))
  refine field_lt (by omega) (h.imp_right (And.imp_right fun h => cons_lt_cons ?_))
  refine field_lt (by omega) (h.imp_right (And.imp_right fun h => ?_))
  exact fraction_lt h (Nat.mod_lt _ (by decide))

theorem micros_lt (a : ℤ) : (a % 86400000000).toNat < 86400000000 := by omega

/-- Of two times the later one is on a later day or later on the same day. -/
theorem day_lt {a b : ℤ} (h : a < b) : a / 86400000000 < b / 86400000000 ∨
    a / 86400000000 = b / 86400000000 ∧
      (a % 86400000000).toNat < (b % 86400000000).toNat := by omega

/-- Later times have later texts. -/
theorem timestampJson_lt {time time' : Timestamp} (hlow : InYears time) (hhigh : InYears time')
    (h : time < time') : timestampJson time < timestampJson time' := by
  have hvalid := Js.civil_valid (time' / 86400000000 + 10957)
  have hlong : ∀ year month, Js.daysInMonth year month ≤ 31 := by
    intro year month
    rw [Js.daysInMonth]
    split_ifs <;> omega
  have hpositive : 0 ≤ (dateOf time').1 := le_trans (by decide) hhigh.1
  refine dateTime_lt (le_trans (by decide) hlow.1) hhigh.2 hvalid.2.1
    ((hvalid.2.2.2 hpositive).trans (hlong _ _)) (micros_lt time') ?_
  refine (day_lt h).imp (fun hlt => civil_lt (Int.add_lt_add_right hlt _)) fun heq => ⟨?_, heq.2⟩
  exact congrArg (fun day => civil (day + 10957)) heq.1

/-! ## Code units -/

theorem isAscii_paddedDecimal (k n : ℕ) : (paddedDecimal k n).all isAscii = true := by
  rw [List.all_eq_true]
  intro u hu
  obtain ⟨i, -, rfl⟩ := List.mem_map.mp hu
  have hdigit : n / 10 ^ i % 10 < 10 := Nat.mod_lt _ (by decide)
  rw [isAscii, decide_eq_true_eq, UInt16.lt_iff_toNat_lt, UInt16.toNat_ofNat']
  change _ < 0x80
  omega

theorem isAscii_trimZeros {s : Text} (h : s.all isAscii = true) :
    (trimZeros s).all isAscii = true := by
  induction s with
  | nil => rfl
  | cons u rest ih =>
    rw [List.all_cons, Bool.and_eq_true] at h
    rw [trimZeros]
    split
    · rfl
    · rw [List.all_cons, h.1, ih h.2, Bool.true_and]

theorem isAscii_fraction (micros : ℕ) : (fraction micros).all isAscii = true := by
  rw [fraction]
  split
  · rfl
  · rw [List.all_cons, isAscii_trimZeros (isAscii_paddedDecimal 6 micros), Bool.and_true]
    decide

theorem isAscii_timestampJson (time : Timestamp) : (timestampJson time).all isAscii = true := by
  have hmarks : isAscii 0x2D = true ∧ isAscii 0x54 = true ∧ isAscii 0x3A = true ∧
      (Js.text "+00:00").all isAscii = true := by decide
  simp [timestampJson, dateTime, -List.all_eq_true, isAscii_paddedDecimal, isAscii_fraction, hmarks]

end MemoryRpc.UtcTime
