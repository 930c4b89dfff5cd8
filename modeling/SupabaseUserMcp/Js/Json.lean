import SupabaseUserMcp.Js.Value

/- `JSON.stringify` of plain data, in the well-formed variant that escapes
   unpaired surrogates. Integers up to `2^53` print in decimal; how any other
   number prints is the platform's business and comes as a parameter. -/
namespace Js

/-- The decimal digits of a natural number. -/
def decimal (n : ℕ) : Text := (Nat.toDigits 10 n).map fun c => UInt16.ofNat c.toNat

/-- The decimal digits of an integer. -/
def decimalInt (n : ℤ) : Text := if n < 0 then 0x2D :: decimal n.natAbs else decimal n.natAbs

/-- A finite number is its digits where it is an integer and they are all
significant; what is not finite is `null`. -/
def jsonNumber (fractionText : ℚ → Text) : Number → Text
  | .finite q =>
    if q.den = 1 ∧ q.num.natAbs ≤ 2 ^ 53 then decimalInt q.num else fractionText q
  | _ => text "null"

/-- `\\uXXXX`, in lowercase. -/
def unicodeEscape (u : UInt16) : Text :=
  text "\\u" ++ [hexDigit (u.toNat / 4096), hexDigit (u.toNat / 256 % 16),
    hexDigit (u.toNat / 16 % 16), hexDigit (u.toNat % 16)]

/-- The escape of a code unit that is no surrogate. -/
def quoteUnit (u : UInt16) : Text :=
  if u = 0x22 then text "\\\""
  else if u = 0x5C then text "\\\\"
  else if u = 0x08 then text "\\b"
  else if u = 0x0C then text "\\f"
  else if u = 0x0A then text "\\n"
  else if u = 0x0D then text "\\r"
  else if u = 0x09 then text "\\t"
  else if u < 0x20 then unicodeEscape u
  else [u]

/-- The characters between the quotes. -/
def quoteUnits : Text → Text
  | [] => []
  | [u] => if isHighSurrogate u || isLowSurrogate u then unicodeEscape u else quoteUnit u
  | u :: v :: rest =>
    if isHighSurrogate u then
      if isLowSurrogate v then u :: v :: quoteUnits rest
      else unicodeEscape u ++ quoteUnits (v :: rest)
    else if isLowSurrogate u then unicodeEscape u ++ quoteUnits (v :: rest)
    else quoteUnit u ++ quoteUnits (v :: rest)

/-- A string literal of JSON. -/
def quote (s : Text) : Text := 0x22 :: quoteUnits s ++ [0x22]

/-- Texts joined by commas. -/
def commaJoin (parts : List Text) : Text := List.intercalate [0x2C] parts

/-- The properties of a byte array are its indices. -/
def bytesJson (bytes : Bytes) : Text :=
  [0x7B] ++ commaJoin (bytes.zipIdx.map fun p => quote (decimal p.2) ++ [0x3A] ++
    decimal p.1.toNat) ++ [0x7D]

mutual

/-- `JSON.stringify(v)`, `none` where it returns `undefined`. -/
def stringify? (fractionText : ℚ → Text) : Value → Option Text
  | .undefined => none
  | .foreign => none
  | .null => some (text "null")
  | .bool true => some (text "true")
  | .bool false => some (text "false")
  | .number n => some (jsonNumber fractionText n)
  | .string s => some (quote s)
  | .array items => some ([0x5B] ++ commaJoin (stringifyItems fractionText items) ++ [0x5D])
  | .object properties =>
    some ([0x7B] ++ commaJoin (stringifyProperties fractionText properties) ++ [0x7D])
  | .bytes bytes => some (bytesJson bytes)

/-- Items that have no JSON are `null`. -/
def stringifyItems (fractionText : ℚ → Text) : List Value → List Text
  | [] => []
  | v :: rest =>
    (stringify? fractionText v).getD (text "null") :: stringifyItems fractionText rest

/-- Properties that have no JSON are left out. -/
def stringifyProperties (fractionText : ℚ → Text) : List (Text × Value) → List Text
  | [] => []
  | (key, v) :: rest =>
    match stringify? fractionText v with
    | none => stringifyProperties fractionText rest
    | some json => (quote key ++ [0x3A] ++ json) :: stringifyProperties fractionText rest

end

/-- `JSON.stringify(v)` of a value that is not `undefined`. -/
def stringify (fractionText : ℚ → Text) (v : Value) : Text :=
  (stringify? fractionText v).getD (text "undefined")

end Js
