import SupabaseUserMcp.Js.Text

/- The decoder that throws on nothing: `buffer.toString('utf8')`. It is the machine of the
   Encoding Standard, a byte at a time; each longest start of a code point that is broken off
   becomes one U+FFFD. On valid UTF-8 it is the decoder that throws. -/
namespace Js

/-- A code point that is not complete: how many bytes it lacks, the bounds of the next one
and what there is of it. -/
structure Utf8Pending where
  needed : ℕ
  lower : ℕ
  upper : ℕ
  code : ℕ

/-- A byte that more bytes follow. -/
def utf8Lead (b : ℕ) : Option Utf8Pending :=
  if 0xC2 ≤ b ∧ b ≤ 0xDF then some ⟨1, 0x80, 0xBF, b - 0xC0⟩
  else if 0xE0 ≤ b ∧ b ≤ 0xEF then
    some ⟨2, if b = 0xE0 then 0xA0 else 0x80, if b = 0xED then 0x9F else 0xBF, b - 0xE0⟩
  else if 0xF0 ≤ b ∧ b ≤ 0xF4 then
    some ⟨3, if b = 0xF0 then 0x90 else 0x80, if b = 0xF4 then 0x8F else 0xBF, b - 0xF0⟩
  else none

/-- The code points that a byte between two of them gives, and what it leaves pending. -/
def utf8Start (b : ℕ) : List Char × Option Utf8Pending :=
  if b < 0x80 then ([Char.ofNat b], none)
  else match utf8Lead b with
  | some pending => ([], some pending)
  | none => ([replacementCharacter], none)

def utf8Step : Option Utf8Pending → ℕ → List Char × Option Utf8Pending
  | none, b => utf8Start b
  | some p, b =>
    if p.lower ≤ b ∧ b ≤ p.upper then
      let code := p.code * 64 + (b - 0x80)
      if p.needed = 1 then ([Char.ofNat code], none)
      else ([], some ⟨p.needed - 1, 0x80, 0xBF, code⟩)
    else (replacementCharacter :: (utf8Start b).1, (utf8Start b).2)

def utf8Run : Option Utf8Pending → Bytes → List Char
  | none, [] => []
  | some _, [] => [replacementCharacter]
  | state, b :: rest => (utf8Step state b.toNat).1 ++ utf8Run (utf8Step state b.toNat).2 rest

/-- `buffer.toString('utf8')`. -/
def decodeLossy (bytes : Bytes) : Text := utf16 (utf8Run none bytes)

/-- A code point that is cut short is one U+FFFD. -/
example : utf8Run none [0x41, 0xE2, 0x82, 0x42, 0xC0, 0xF0, 0x9F, 0x98, 0x80, 0xED, 0xA0] =
    ['A', replacementCharacter, 'B', replacementCharacter, '😀', replacementCharacter,
      replacementCharacter] := by decide

/-! ## Valid UTF-8 -/

theorem utf8Run_none (b : UInt8) (rest : Bytes) : utf8Run none (b :: rest) =
    (utf8Start b.toNat).1 ++ utf8Run (utf8Start b.toNat).2 rest := rfl

theorem utf8Run_lead {b : UInt8} {pending : Utf8Pending} (hb : 0x80 ≤ b.toNat)
    (h : utf8Lead b.toNat = some pending) (rest : Bytes) :
    utf8Run none (b :: rest) = utf8Run (some pending) rest := by
  rw [utf8Run_none, utf8Start, if_neg (by omega), h]
  rfl

theorem toNat_utf8Byte {n : ℕ} (h : n < 256) : (UInt8.ofNat n).toNat = n := by
  rw [UInt8.toNat_ofNat']
  omega

/-- A byte that is in its bounds adds its six bits. -/
theorem utf8Run_tail {needed lower upper code d : ℕ} (hd : d < 64) (hlower : lower ≤ d + 0x80)
    (hupper : d + 0x80 ≤ upper) (rest : Bytes) :
    utf8Run (some ⟨needed, lower, upper, code⟩) (UInt8.ofNat (d + 0x80) :: rest) =
      if needed = 1 then Char.ofNat (code * 64 + d) :: utf8Run none rest
      else utf8Run (some ⟨needed - 1, 0x80, 0xBF, code * 64 + d⟩) rest := by
  have hbyte := @toNat_utf8Byte (d + 0x80) (by omega)
  rw [utf8Run, utf8Step, hbyte, if_pos ⟨hlower, hupper⟩, Nat.add_sub_cancel]
  split
  · rfl
  · rfl

/-- The first byte of three leaves bounds that the second is in. -/
theorem utf8Lead_three {v : ℕ} (hlow : 0x7FF < v) (hhigh : v ≤ 0xFFFF)
    (hscalar : v < 0xD800 ∨ 0xDFFF < v) : ∃ lower upper,
      utf8Lead (v / 4096 % 16 + 0xE0) = some ⟨2, lower, upper, v / 4096⟩ ∧
      lower ≤ v / 64 % 64 + 0x80 ∧ v / 64 % 64 + 0x80 ≤ upper := by
  have hcode : v / 4096 % 16 = v / 4096 := Nat.mod_eq_of_lt (by omega)
  refine ⟨if v / 4096 + 0xE0 = 0xE0 then 0xA0 else 0x80,
    if v / 4096 + 0xE0 = 0xED then 0x9F else 0xBF, ?_, ?_, ?_⟩
  · rw [hcode, utf8Lead, if_neg (by omega), if_pos (by omega), Nat.add_sub_cancel]
  · split <;> omega
  · split <;> omega

/-- The same of four. -/
theorem utf8Lead_four {v : ℕ} (hlow : 0xFFFF < v) (hhigh : v < 0x110000) : ∃ lower upper,
    utf8Lead (v / 262144 % 8 + 0xF0) = some ⟨3, lower, upper, v / 262144⟩ ∧
    lower ≤ v / 4096 % 64 + 0x80 ∧ v / 4096 % 64 + 0x80 ≤ upper := by
  have hcode : v / 262144 % 8 = v / 262144 := Nat.mod_eq_of_lt (by omega)
  refine ⟨if v / 262144 + 0xF0 = 0xF0 then 0x90 else 0x80,
    if v / 262144 + 0xF0 = 0xF4 then 0x8F else 0xBF, ?_, ?_, ?_⟩
  · rw [hcode, utf8Lead, if_neg (by omega), if_neg (by omega), if_pos (by omega),
      Nat.add_sub_cancel]
  · split <;> omega
  · split <;> omega

/-- The encoding of a code point is read as it. -/
theorem utf8Run_encoded (c : Char) (rest : Bytes) :
    utf8Run none (String.utf8EncodeChar c ++ rest) = c :: utf8Run none rest := by
  have hvalid := c.valid
  simp only [UInt32.isValidChar, Nat.isValidChar] at hvalid
  change c.toNat < 0xD800 ∨ 0xDFFF < c.toNat ∧ c.toNat < 0x110000 at hvalid
  have hchar : ∀ {n}, n = c.toNat → Char.ofNat n = c := by
    rintro n rfl
    exact Char.ofNat_toNat c
  -- every byte but the first
  have htail : ∀ n, (UInt8.ofNat (n % 64 + 0x80)).toNat = n % 64 + 0x80 :=
    fun n => toNat_utf8Byte (by omega)
  rw [String.utf8EncodeChar]
  change utf8Run none ((if c.toNat ≤ 0x7F then _ else if c.toNat ≤ 0x7FF then _ else
    if c.toNat ≤ 0xFFFF then _ else _) ++ rest) = _
  split
  · next hone =>
    have hbyte : (UInt8.ofNat c.toNat).toNat = c.toNat := toNat_utf8Byte (by omega)
    change utf8Run none (UInt8.ofNat c.toNat :: rest) = _
    rw [utf8Run_none, utf8Start, hbyte, if_pos (by omega), hchar rfl]
    rfl
  · next hone =>
    split
    · next htwo =>
      have hbyte : (UInt8.ofNat (c.toNat / 64 % 32 + 0xC0)).toNat = c.toNat / 64 + 0xC0 := by
        rw [toNat_utf8Byte (by omega)]
        omega
      have hlead : utf8Lead (c.toNat / 64 + 0xC0) = some ⟨1, 0x80, 0xBF, c.toNat / 64⟩ := by
        rw [utf8Lead, if_pos (by omega), Nat.add_sub_cancel]
      change utf8Run none (UInt8.ofNat (c.toNat / 64 % 32 + 0xC0) ::
        UInt8.ofNat (c.toNat % 64 + 0x80) :: rest) = _
      rw [utf8Run_lead (by omega) (hbyte ▸ hlead), utf8Run_tail (by omega) (by omega) (by omega),
        if_pos rfl, hchar (by omega)]
    · next htwo =>
      split
      · next hthree =>
        obtain ⟨lower, upper, hlead, hlower, hupper⟩ := utf8Lead_three (v := c.toNat) (by omega)
          hthree (by omega)
        have hbyte := @toNat_utf8Byte (c.toNat / 4096 % 16 + 0xE0) (by omega)
        change utf8Run none (UInt8.ofNat (c.toNat / 4096 % 16 + 0xE0) ::
          UInt8.ofNat (c.toNat / 64 % 64 + 0x80) :: UInt8.ofNat (c.toNat % 64 + 0x80) :: rest) = _
        rw [utf8Run_lead (by omega) (hbyte ▸ hlead), utf8Run_tail (by omega) hlower hupper,
          if_neg (by decide), utf8Run_tail (by omega) (by omega) (by omega), if_pos rfl,
          hchar (by omega)]
      · next hthree =>
        obtain ⟨lower, upper, hlead, hlower, hupper⟩ := utf8Lead_four (v := c.toNat) (by omega)
          (by omega)
        have hbyte := @toNat_utf8Byte (c.toNat / 262144 % 8 + 0xF0) (by omega)
        change utf8Run none (UInt8.ofNat (c.toNat / 262144 % 8 + 0xF0) ::
          UInt8.ofNat (c.toNat / 4096 % 64 + 0x80) :: UInt8.ofNat (c.toNat / 64 % 64 + 0x80) ::
          UInt8.ofNat (c.toNat % 64 + 0x80) :: rest) = _
        rw [utf8Run_lead (by omega) (hbyte ▸ hlead), utf8Run_tail (by omega) hlower hupper,
          if_neg (by decide), utf8Run_tail (by omega) (by omega) (by omega), if_neg (by decide),
          utf8Run_tail (by omega) (by omega) (by omega), if_pos rfl, hchar (by omega)]

theorem utf8Run_flatMap (cs : List Char) : utf8Run none (cs.flatMap String.utf8EncodeChar) = cs := by
  induction cs with
  | nil => rfl
  | cons c cs ih => rw [List.flatMap_cons, utf8Run_encoded, ih]

/-- On valid UTF-8 the two decoders agree. -/
theorem decodeLossy_of_decodeUtf8 {bytes : Bytes} {s : Text} (h : decodeUtf8 bytes = some s) :
    decodeLossy bytes = s := by
  obtain ⟨cs, rfl, rfl⟩ := decodeUtf8_eq_some_iff.mp h
  rw [decodeLossy, utf8Run_flatMap]

end Js
