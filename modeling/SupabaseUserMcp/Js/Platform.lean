import SupabaseUserMcp.Js.Number
import SupabaseUserMcp.Js.Sha256

/- The platform the programs run on. Dates are in the proleptic Gregorian
   calendar: what `Date.prototype.toISOString` prints for a time value and what
   `z.iso.datetime({ offset: true })` accepts. The hash function, `Date.parse`,
   the Unicode tables and the printing of fractions are fields of a record, and
   nothing is assumed of them but the length of a digest. -/
namespace Js

structure Platform where
  sha256 : Sha256
  /-- `JSON.stringify` of a number that is not printed as an integer. -/
  fractionText : ℚ → Text
  /-- `Date.parse`. -/
  dateParse : Text → Number
  /-- `s.normalize('NFC')`. -/
  normalizeNFC : Text → Text
  toLowerCase : Text → Text

/-- `createHash('sha256').update(bytes).digest('hex')`. -/
def Platform.sha256Hex (platform : Platform) (bytes : Bytes) : Text :=
  toHex (platform.sha256.digest bytes)

@[simp] theorem Platform.isLowerHex_sha256Hex (platform : Platform) (bytes : Bytes) :
    isLowerHex 64 (platform.sha256Hex bytes) = true :=
  isLowerHex_toHex (by simp)

/-- A platform for ASCII texts; of dates to parse and fractions to print there are none. -/
def asciiPlatform : Platform where
  sha256 := sha256
  fractionText _ := []
  dateParse _ := .nan
  normalizeNFC s := s
  toLowerCase s := s.map fun u => if isUpper u then u + 0x20 else u

/-! Dates. -/

def isLeapYear (y : ℕ) : Bool := y % 4 == 0 && (y % 100 != 0 || y % 400 == 0)

def daysInMonth (y m : ℕ) : ℕ :=
  if m = 2 then (if isLeapYear y then 29 else 28)
  else if m = 4 ∨ m = 6 ∨ m = 9 ∨ m = 11 then 30
  else 31

/-- The last `k` decimal digits of `n`. -/
def paddedDecimal (k n : ℕ) : Text :=
  (List.range k).reverse.map fun i => UInt16.ofNat (0x30 + n / 10 ^ i % 10)

/-- Year, month and day of a day counted from 1970-01-01. Years run from March,
so that a leap day is the last of its year, its four years and its era. -/
def civil (day : ℤ) : ℤ × ℕ × ℕ :=
  let fromMarch := day + 719468
  let dayOfEra := (fromMarch % 146097).toNat
  let century := min (dayOfEra / 36524) 3
  let dayOfCentury := dayOfEra - 36524 * century
  let fourYears := dayOfCentury / 1461
  let dayOfFourYears := dayOfCentury - 1461 * fourYears
  let yearOfFour := min (dayOfFourYears / 365) 3
  let dayOfYear := dayOfFourYears - 365 * yearOfFour
  let monthFromMarch := (5 * dayOfYear + 2) / 153
  let dayOfMonth := dayOfYear - (153 * monthFromMarch + 2) / 5 + 1
  let month := if monthFromMarch < 10 then monthFromMarch + 3 else monthFromMarch - 9
  let year := 400 * (fromMarch / 146097) + (100 * century + 4 * fourYears + yearOfFour : ℕ)
  (if month ≤ 2 then year + 1 else year, month, dayOfMonth)

/-- The year of an ISO text: four digits, or a sign and six. -/
def isoYear (y : ℤ) : Text :=
  if 0 ≤ y ∧ y ≤ 9999 then paddedDecimal 4 y.toNat
  else (if y < 0 then 0x2D else 0x2B) :: paddedDecimal 6 y.natAbs

/-- `new Date(time).toISOString()`. -/
def toISOString (time : ℤ) : Text :=
  let (year, month, day) := civil (time / 86400000)
  let millis := (time % 86400000).toNat
  isoYear year ++ 0x2D :: paddedDecimal 2 month ++ 0x2D :: paddedDecimal 2 day ++
    0x54 :: paddedDecimal 2 (millis / 3600000) ++ 0x3A :: paddedDecimal 2 (millis / 60000 % 60) ++
    0x3A :: paddedDecimal 2 (millis / 1000 % 60) ++ 0x2E :: paddedDecimal 3 (millis % 1000) ++
    [0x5A]

/-- The number two digits spell. -/
def twoDigits (a b : UInt16) : Option ℕ :=
  if isDigit a && isDigit b then some (10 * (a.toNat - 0x30) + (b.toNat - 0x30)) else none

/-- `Z` or an offset from UTC. -/
def isoOffset : Text → Bool
  | [0x5A] => true
  | [sign, h, h', 0x3A, m, m'] =>
    (sign == 0x2B || sign == 0x2D) && (twoDigits h h').any (· ≤ 23) && (twoDigits m m').any (· ≤ 59)
  | _ => false

/-- A fraction of at least one digit, then the offset. -/
def isoFraction (s : Text) : Bool :=
  match s with
  | u :: rest => isDigit u && isoOffset (rest.dropWhile isDigit)
  | [] => false

/-- The time of day: minutes, then optionally seconds and their fraction. -/
def isoTime : Text → Bool
  | h :: h' :: 0x3A :: m :: m' :: rest =>
    (twoDigits h h').any (· ≤ 23) && (twoDigits m m').any (· ≤ 59) &&
    (isoOffset rest ||
      match rest with
      | 0x3A :: s :: s' :: rest =>
        (twoDigits s s').any (· ≤ 59) && (isoOffset rest ||
          match rest with
          | 0x2E :: rest => isoFraction rest
          | _ => false)
      | _ => false)
  | _ => false

/-- `z.iso.datetime({ offset: true })`. -/
def isoDatetime : Text → Bool
  | y :: y' :: y'' :: y''' :: 0x2D :: m :: m' :: 0x2D :: d :: d' :: 0x54 :: rest =>
    match twoDigits y y', twoDigits y'' y''', twoDigits m m', twoDigits d d' with
    | some hundreds, some years, some month, some day =>
      1 ≤ month && month ≤ 12 && 1 ≤ day && day ≤ daysInMonth (100 * hundreds + years) month &&
      isoTime rest
    | _, _, _, _ => false
  | _ => false

example : toISOString 951782400001 = text "2000-02-29T00:00:00.001Z" := by decide +kernel

example : isoDatetime (text "2100-02-29T00:00Z") = false := by decide +kernel

end Js
