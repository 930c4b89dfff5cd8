import Mathlib.Data.List.Basic
import Mathlib.Tactic.IntervalCases

/- JavaScript strings as sequences of UTF-16 code units, byte strings, and the
   three codecs between them: `TextEncoder` (unpaired surrogates become U+FFFD),
   a fatal `TextDecoder` that keeps the byte order mark, and the hexadecimal
   codec of `Buffer`. Decoding is Lean's own strict UTF-8, the syntax the
   Encoding Standard's fatal mode accepts. -/
namespace Js

/-- A `Uint8Array` or a `Buffer`. -/
abbrev Bytes := List UInt8

/-- A string, as its UTF-16 code units. -/
abbrev Text := List UInt16

instance Text.lawfulBEq : LawfulBEq Text := inferInstance

/-- `bytes.subarray(start, end)`. -/
def subarray (bytes : Bytes) (start stop : ℕ) : Bytes := (bytes.take stop).drop start

@[simp] theorem length_subarray (bytes : Bytes) (start stop : ℕ) :
    (subarray bytes start stop).length = min stop bytes.length - start := by
  simp [subarray]

theorem getElem?_subarray (bytes : Bytes) (start stop k : ℕ) :
    (subarray bytes start stop)[k]? = if start + k < stop then bytes[start + k]? else none := by
  simp [subarray, List.getElem?_drop, List.getElem?_take]

/-- A part of a part is a part. -/
theorem subarray_subarray (bytes : Bytes) {start stop : ℕ} {innerStart innerStop : ℕ}
    (h : start + innerStop ≤ stop) : subarray (subarray bytes start stop) innerStart innerStop =
      subarray bytes (start + innerStart) (start + innerStop) := by
  apply List.ext_getElem?
  intro k
  simp only [getElem?_subarray]
  by_cases hk : innerStart + k < innerStop
  · rw [if_pos hk, if_pos (by omega), if_pos (by omega), Nat.add_assoc]
  · rw [if_neg hk, if_neg (by omega)]

theorem subarray_isInfix (bytes : Bytes) (start stop : ℕ) : subarray bytes start stop <:+: bytes :=
  (List.drop_suffix start _).isInfix.trans (List.take_prefix stop bytes).isInfix

/-! UTF-16. -/

def isHighSurrogate (u : UInt16) : Bool := 0xD800 ≤ u && u ≤ 0xDBFF
def isLowSurrogate (u : UInt16) : Bool := 0xDC00 ≤ u && u ≤ 0xDFFF

/-- The code units of one code point. -/
def codeUnits (c : Char) : Text :=
  if c.toNat < 0x10000 then [UInt16.ofNat c.toNat]
  else [UInt16.ofNat (0xD800 + (c.toNat - 0x10000) / 0x400),
    UInt16.ofNat (0xDC00 + (c.toNat - 0x10000) % 0x400)]

/-- The code units of a sequence of code points. -/
def utf16 (cs : List Char) : Text := cs.flatMap codeUnits

/-- A string literal. -/
def text (s : String) : Text := utf16 s.toList

/-- U+FFFD. -/
def replacementCharacter : Char := '\uFFFD'

/-- The code point of a surrogate pair. -/
def surrogatePair (hi lo : UInt16) : Char :=
  Char.ofNat (0x10000 + (hi.toNat - 0xD800) * 0x400 + (lo.toNat - 0xDC00))

/-- The code points of a string, every unpaired surrogate read as U+FFFD. -/
def scalars : Text → List Char
  | [] => []
  | [u] =>
    [if isHighSurrogate u || isLowSurrogate u then replacementCharacter else Char.ofNat u.toNat]
  | u :: v :: rest =>
    if isHighSurrogate u then
      if isLowSurrogate v then surrogatePair u v :: scalars rest
      else replacementCharacter :: scalars (v :: rest)
    else if isLowSurrogate u then replacementCharacter :: scalars (v :: rest)
    else Char.ofNat u.toNat :: scalars (v :: rest)

/-- The code points of a string, every unpaired surrogate one of them. -/
def codePoints : Text → List ℕ
  | [] => []
  | [u] => [u.toNat]
  | u :: v :: rest =>
    if isHighSurrogate u && isLowSurrogate v then (surrogatePair u v).toNat :: codePoints rest
    else u.toNat :: codePoints (v :: rest)

/-! UTF-8. -/

/-- `new TextEncoder().encode(s)`. -/
def encodeUtf8 (s : Text) : Bytes := (scalars s).flatMap String.utf8EncodeChar

/-- `new TextEncoder().encode(s).byteLength`. -/
def utf8Length (s : Text) : ℕ := (encodeUtf8 s).length

/-- `new TextDecoder('utf-8', { fatal: true, ignoreBOM: true }).decode(bytes)`,
`none` where it throws. -/
def decodeUtf8 (bytes : Bytes) : Option Text :=
  bytes.toByteArray.utf8Decode?.map fun cs => utf16 cs.toList

/-- Encoded code points decode to themselves. -/
theorem decodeUtf8_encoded (cs : List Char) :
    decodeUtf8 (cs.flatMap String.utf8EncodeChar) = some (utf16 cs) := by
  have h : (cs.flatMap String.utf8EncodeChar).toByteArray = cs.utf8Encode := rfl
  rw [decodeUtf8, h, List.utf8Decode?_utf8Encode]
  simp

theorem scalars_cons_scalar {u : UInt16} (hhigh : isHighSurrogate u = false)
    (hlow : isLowSurrogate u = false) (s : Text) :
    scalars (u :: s) = Char.ofNat u.toNat :: scalars s := by
  cases s <;> simp [scalars, hhigh, hlow]

theorem scalars_cons_pair {hi lo : UInt16} (hhigh : isHighSurrogate hi = true)
    (hlow : isLowSurrogate lo = true) (s : Text) :
    scalars (hi :: lo :: s) = surrogatePair hi lo :: scalars s := by
  simp [scalars, hhigh, hlow]

/-- A code point is written as one unit that is no surrogate or as a pair. -/
theorem codeUnits_cases (c : Char) :
    (∃ u, codeUnits c = [u] ∧ u.toNat = c.toNat ∧ isHighSurrogate u = false ∧
      isLowSurrogate u = false) ∨
    ∃ hi lo, codeUnits c = [hi, lo] ∧ isHighSurrogate hi = true ∧ isLowSurrogate lo = true ∧
      surrogatePair hi lo = c := by
  have hvalid := c.valid
  simp only [UInt32.isValidChar, Nat.isValidChar] at hvalid
  change c.toNat < 0xD800 ∨ 0xDFFF < c.toNat ∧ c.toNat < 0x110000 at hvalid
  by_cases hbmp : c.toNat < 0x10000
  · have hunit : (UInt16.ofNat c.toNat).toNat = c.toNat := by
      rw [UInt16.toNat_ofNat']
      omega
    refine .inl ⟨UInt16.ofNat c.toNat, if_pos hbmp, hunit, ?_, ?_⟩
    · simp only [isHighSurrogate, UInt16.le_iff_toNat_le, hunit, UInt16.reduceToNat,
        Bool.and_eq_false_iff, decide_eq_false_iff_not]
      omega
    · simp only [isLowSurrogate, UInt16.le_iff_toNat_le, hunit, UInt16.reduceToNat,
        Bool.and_eq_false_iff, decide_eq_false_iff_not]
      omega
  · have hhigh : (UInt16.ofNat (0xD800 + (c.toNat - 0x10000) / 0x400)).toNat =
        0xD800 + (c.toNat - 0x10000) / 0x400 := by
      rw [UInt16.toNat_ofNat']
      omega
    have hlow : (UInt16.ofNat (0xDC00 + (c.toNat - 0x10000) % 0x400)).toNat =
        0xDC00 + (c.toNat - 0x10000) % 0x400 := by
      rw [UInt16.toNat_ofNat']
      omega
    refine .inr ⟨_, _, if_neg hbmp, ?_, ?_, ?_⟩
    · simp only [isHighSurrogate, UInt16.le_iff_toNat_le, hhigh, UInt16.reduceToNat,
        Bool.and_eq_true, decide_eq_true_eq]
      omega
    · simp only [isLowSurrogate, UInt16.le_iff_toNat_le, hlow, UInt16.reduceToNat,
        Bool.and_eq_true, decide_eq_true_eq]
      omega
    · rw [surrogatePair, hhigh, hlow, show 0x10000 + (0xD800 + (c.toNat - 0x10000) / 0x400 - 0xD800) *
        0x400 + (0xDC00 + (c.toNat - 0x10000) % 0x400 - 0xDC00) = c.toNat by omega,
        Char.ofNat_toNat]

/-- The code units of a code point are read back as it. -/
theorem scalars_codeUnits (c : Char) (s : Text) : scalars (codeUnits c ++ s) = c :: scalars s := by
  obtain ⟨u, hunits, hnat, hhigh, hlow⟩ | ⟨hi, lo, hunits, hhigh, hlow, hpair⟩ := codeUnits_cases c
  · rw [hunits, List.singleton_append, scalars_cons_scalar hhigh hlow, hnat, Char.ofNat_toNat]
  · rw [hunits, List.cons_append, List.singleton_append, scalars_cons_pair hhigh hlow, hpair]

@[simp] theorem scalars_utf16 (cs : List Char) : scalars (utf16 cs) = cs := by
  induction cs with
  | nil => rfl
  | cons c cs ih => rw [utf16, List.flatMap_cons, scalars_codeUnits, ← utf16, ih]

/-- Valid UTF-8 is the encoding of code points, which are what it decodes to. -/
theorem decodeUtf8_eq_some_iff {bytes : Bytes} {s : Text} : decodeUtf8 bytes = some s ↔
    ∃ cs, bytes = cs.flatMap String.utf8EncodeChar ∧ s = utf16 cs := by
  constructor
  · intro h
    obtain ⟨cs, hcs, rfl⟩ := Option.map_eq_some_iff.mp h
    have hsome : bytes.toByteArray.utf8Decode?.isSome := by rw [hcs]; rfl
    have hencode := ByteArray.utf8Encode_get_utf8Decode? (h := hsome)
    refine ⟨cs.toList, ?_, rfl⟩
    have hget : bytes.toByteArray.utf8Decode?.get hsome = cs := by simp [hcs]
    rw [hget] at hencode
    exact (List.toByteArray_inj.mp hencode).symm
  · rintro ⟨cs, rfl, rfl⟩
    exact decodeUtf8_encoded cs

/-- Decoded text encodes to the bytes it was decoded from. -/
theorem encodeUtf8_of_decodeUtf8 {bytes : Bytes} {s : Text} (h : decodeUtf8 bytes = some s) :
    encodeUtf8 s = bytes := by
  obtain ⟨cs, rfl, rfl⟩ := decodeUtf8_eq_some_iff.mp h
  rw [encodeUtf8, scalars_utf16]

/-- An ASCII string: its code units are its bytes. -/
theorem utf8EncodeChar_ascii {n : ℕ} (h : n < 0x80) :
    String.utf8EncodeChar (Char.ofNat n) = [UInt8.ofNat n] := by
  interval_cases n <;> decide

/-! Character classes and trimming. -/

def isDigit (u : UInt16) : Bool := 0x30 ≤ u && u ≤ 0x39
def isUpper (u : UInt16) : Bool := 0x41 ≤ u && u ≤ 0x5A
def isLower (u : UInt16) : Bool := 0x61 ≤ u && u ≤ 0x7A
/-- `[A-Za-z0-9]`. -/
def isAlphanumeric (u : UInt16) : Bool := isUpper u || isLower u || isDigit u

/-- The code units `\s` matches and `String.prototype.trim` removes. -/
def isWhitespace (u : UInt16) : Bool :=
  (0x09 ≤ u && u ≤ 0x0D) || u == 0x20 || u == 0xA0 || u == 0x1680 ||
  (0x2000 ≤ u && u ≤ 0x200A) || u == 0x2028 || u == 0x2029 || u == 0x202F ||
  u == 0x205F || u == 0x3000 || u == 0xFEFF

/-- `s.trimEnd()`. -/
def trimEnd (s : Text) : Text := (s.reverse.dropWhile isWhitespace).reverse

/-- `s.trim()`. -/
def trim (s : Text) : Text := trimEnd (s.dropWhile isWhitespace)

/-! Replacement. -/

/-- `s.replace(/\s+/gu, ' ')`, after a code unit that is or is not whitespace. -/
def collapseWhitespace : Bool → Text → Text
  | _, [] => []
  | inRun, u :: rest =>
    if isWhitespace u then
      if inRun then collapseWhitespace true rest else 0x20 :: collapseWhitespace true rest
    else u :: collapseWhitespace false rest

/-- `replaceAll`, with the number of code units left of the last match. -/
def replaceAllFrom (pattern replacement : Text) : ℕ → Text → Text
  | _, [] => []
  | skip + 1, _ :: rest => replaceAllFrom pattern replacement skip rest
  | 0, u :: rest =>
    if pattern.isPrefixOf (u :: rest) then
      replacement ++ replaceAllFrom pattern replacement (pattern.length - 1) rest
    else u :: replaceAllFrom pattern replacement 0 rest

/-- `s.replaceAll(pattern, replacement)` for a nonempty pattern. -/
def replaceAll (pattern replacement s : Text) : Text := replaceAllFrom pattern replacement 0 s

/-! Hexadecimal. -/

def hexDigit (n : ℕ) : UInt16 := if n < 10 then UInt16.ofNat (0x30 + n) else UInt16.ofNat (0x57 + n)

/-- `buffer.toString('hex')`. -/
def toHex (bytes : Bytes) : Text :=
  bytes.flatMap fun b => [hexDigit (b.toNat / 16), hexDigit (b.toNat % 16)]

/-- The value of a hexadecimal digit, in either case. -/
def hexValue (u : UInt16) : Option ℕ :=
  if 0x30 ≤ u && u ≤ 0x39 then some (u.toNat - 0x30)
  else if 0x61 ≤ u && u ≤ 0x66 then some (u.toNat - 0x57)
  else if 0x41 ≤ u && u ≤ 0x46 then some (u.toNat - 0x37)
  else none

/-- `Buffer.from(s, 'hex')`: decoding stops at the first pair that is not two
hexadecimal digits. -/
def fromHex : Text → Bytes
  | h :: l :: rest =>
    match hexValue h, hexValue l with
    | some hi, some lo => UInt8.ofNat (16 * hi + lo) :: fromHex rest
    | _, _ => []
  | _ => []

/-- `[0-9a-f]`. -/
def isLowerHexDigit (u : UInt16) : Bool := (0x30 ≤ u && u ≤ 0x39) || (0x61 ≤ u && u ≤ 0x66)

/-- `/^[0-9a-f]{n}$/`. -/
def isLowerHex (n : ℕ) (s : Text) : Bool := s.length == n && s.all isLowerHexDigit

@[simp] theorem toHex_length (bytes : Bytes) : (toHex bytes).length = 2 * bytes.length := by
  induction bytes with
  | nil => rfl
  | cons b rest ih => simp only [toHex, List.flatMap_cons, List.length_append, List.length_cons,
      List.length_nil] at ih ⊢; omega

theorem hexValue_hexDigit {n : ℕ} (h : n < 16) : hexValue (hexDigit n) = some n := by
  interval_cases n <;> decide

theorem isLowerHexDigit_hexDigit {n : ℕ} (h : n < 16) : isLowerHexDigit (hexDigit n) = true := by
  interval_cases n <;> decide

theorem toHex_all (bytes : Bytes) : (toHex bytes).all isLowerHexDigit = true := by
  simp only [toHex, List.all_eq_true, List.mem_flatMap]
  rintro u ⟨b, _, hu⟩
  have hb := b.toNat_lt
  simp only [List.mem_cons, List.not_mem_nil, or_false] at hu
  rcases hu with rfl | rfl
  · exact isLowerHexDigit_hexDigit (by omega)
  · exact isLowerHexDigit_hexDigit (by omega)

theorem isLowerHex_toHex {bytes : Bytes} {n : ℕ} (h : 2 * bytes.length = n) :
    isLowerHex n (toHex bytes) = true := by
  simp [isLowerHex, toHex_all, h]

/-- Writing bytes in hexadecimal and reading them back. -/
@[simp] theorem fromHex_toHex (bytes : Bytes) : fromHex (toHex bytes) = bytes := by
  induction bytes with
  | nil => rfl
  | cons b rest ih =>
    have hb := b.toNat_lt
    have hcons : toHex (b :: rest) =
        hexDigit (b.toNat / 16) :: hexDigit (b.toNat % 16) :: toHex rest := rfl
    have hbyte : 16 * (b.toNat / 16) + b.toNat % 16 = b.toNat := Nat.div_add_mod ..
    simp only [hcons, fromHex, hexValue_hexDigit (show b.toNat / 16 < 16 by omega),
      hexValue_hexDigit (show b.toNat % 16 < 16 by omega), hbyte, UInt8.ofNat_toNat, ih]

theorem toHex_injective : Function.Injective toHex :=
  Function.LeftInverse.injective fromHex_toHex

@[simp] theorem toHex_inj {a b : Bytes} : toHex a = toHex b ↔ a = b := toHex_injective.eq_iff

/-- A lowercase digit is the digit of its own value. -/
theorem hexDigit_of_isLowerHexDigit {u : UInt16} (h : isLowerHexDigit u = true) :
    ∃ n, n < 16 ∧ hexValue u = some n ∧ hexDigit n = u := by
  have hu : (0x30 ≤ u.toNat ∧ u.toNat ≤ 0x39) ∨ (0x61 ≤ u.toNat ∧ u.toNat ≤ 0x66) := by
    simpa [isLowerHexDigit, UInt16.le_iff_toNat_le] using h
  obtain ⟨m, hm⟩ : ∃ m, u.toNat = m := ⟨_, rfl⟩
  have hof : u = UInt16.ofNat m := by rw [← hm, UInt16.ofNat_toNat]
  rw [hm] at hu
  rw [hof]
  have key : ∀ m < 0x67, (0x30 ≤ m ∧ m ≤ 0x39) ∨ (0x61 ≤ m ∧ m ≤ 0x66) → ∃ n < 16,
      hexValue (UInt16.ofNat m) = some n ∧ hexDigit n = UInt16.ofNat m := by decide
  exact key m (by omega) hu

/-- Reading lowercase hexadecimal of even length and writing it back. -/
theorem toHex_fromHex : ∀ {s : Text} {n : ℕ}, s.length = 2 * n → s.all isLowerHexDigit = true →
    toHex (fromHex s) = s ∧ (fromHex s).length = n
  | [], n, hl, _ => ⟨rfl, by simp at hl; simp [fromHex]; omega⟩
  | [_], n, hl, _ => by simp at hl; omega
  | h :: l :: rest, n, hl, hall => by
    simp only [List.all_cons, Bool.and_eq_true] at hall
    obtain ⟨hi, hhi, hvhi, hdhi⟩ := hexDigit_of_isLowerHexDigit hall.1
    obtain ⟨lo, hlo, hvlo, hdlo⟩ := hexDigit_of_isLowerHexDigit hall.2.1
    obtain ⟨m, rfl⟩ : ∃ m, n = m + 1 := ⟨n - 1, by simp at hl; omega⟩
    obtain ⟨htext, hlen⟩ := toHex_fromHex (s := rest) (n := m) (by simp at hl; omega) hall.2.2
    simp only [fromHex, hvhi, hvlo]
    have hbyte : (UInt8.ofNat (16 * hi + lo)).toNat = 16 * hi + lo := by
      rw [UInt8.toNat_ofNat']; omega
    refine ⟨?_, by simp [hlen]⟩
    show hexDigit _ :: hexDigit _ :: toHex _ = _
    rw [htext, hbyte, show (16 * hi + lo) / 16 = hi by omega, show (16 * hi + lo) % 16 = lo by omega,
      hdhi, hdlo]

end Js
