import SupabaseUserMcp.Js.Text

/- Where the code points of valid UTF-8 begin and end. A code point begins at no byte
   but its first, and no code point's encoding is the beginning of another's, so an
   encoding found inside another begins and ends where code points do. -/
namespace Js

/-- Code points end at `k`, and code points begin there. -/
def IsCodePointBoundary (bytes : Bytes) (k : ℕ) : Prop :=
  ∃ before after : List Char,
    bytes = before.flatMap String.utf8EncodeChar ++ after.flatMap String.utf8EncodeChar ∧
      k = (before.flatMap String.utf8EncodeChar).length

theorem utf8EncodeChar_ne_nil (c : Char) : String.utf8EncodeChar c ≠ [] := by
  intro h
  have hlength := String.length_utf8EncodeChar c
  have hpos := c.utf8Size_pos
  rw [h, List.length_nil] at hlength
  omega

/-- An encoding that starts with a code point's starts with that code point. -/
theorem eq_cons_of_encoded {c : Char} {tail : Bytes} {cs : List Char}
    (h : String.utf8EncodeChar c ++ tail = cs.flatMap String.utf8EncodeChar) :
    ∃ rest, cs = c :: rest ∧ tail = rest.flatMap String.utf8EncodeChar := by
  cases cs with
  | nil =>
    have hnil := (List.append_eq_nil_iff.mp h).1
    exact absurd hnil (utf8EncodeChar_ne_nil c)
  | cons d rest =>
    rw [List.flatMap_cons] at h
    have hc := ByteArray.utf8DecodeChar?_utf8EncodeChar_append (b := tail.toByteArray) (c := c)
    have hd := ByteArray.utf8DecodeChar?_utf8EncodeChar_append
      (b := (rest.flatMap String.utf8EncodeChar).toByteArray) (c := d)
    rw [← List.toByteArray_append, h, List.toByteArray_append, hd] at hc
    obtain rfl := Option.some.inj hc
    exact ⟨rest, rfl, List.append_cancel_left h⟩

/-- No encoding of code points begins another's but as its first code points. -/
theorem eq_append_of_encoded {qs : List Char} : ∀ {tail : Bytes} {cs : List Char},
    qs.flatMap String.utf8EncodeChar ++ tail = cs.flatMap String.utf8EncodeChar →
    ∃ rest, cs = qs ++ rest ∧ tail = rest.flatMap String.utf8EncodeChar := by
  induction qs with
  | nil =>
    intro tail cs h
    exact ⟨cs, rfl, h⟩
  | cons q qs ih =>
    intro tail cs h
    rw [List.flatMap_cons, List.append_assoc] at h
    obtain ⟨more, rfl, hmore⟩ := eq_cons_of_encoded h
    obtain ⟨rest, rfl, hrest⟩ := ih hmore
    exact ⟨rest, rfl, hrest⟩

/-- Where a code point's encoding is found, a code point begins. -/
theorem isCodePointBoundary_of_first {c : Char} {tail : Bytes} : ∀ {cs : List Char} {k : ℕ},
    (cs.flatMap String.utf8EncodeChar).drop k = String.utf8EncodeChar c ++ tail →
    IsCodePointBoundary (cs.flatMap String.utf8EncodeChar) k := by
  intro cs
  induction cs with
  | nil =>
    intro k h
    rw [List.flatMap_nil, List.drop_nil] at h
    exact absurd (List.append_eq_nil_iff.mp h.symm).1 (utf8EncodeChar_ne_nil c)
  | cons d cs ih =>
    intro k h
    rw [List.flatMap_cons] at h
    rcases Nat.eq_zero_or_pos k with rfl | hpos
    · exact ⟨[], d :: cs, rfl, rfl⟩
    by_cases hk : k < (String.utf8EncodeChar d).length
    · -- a byte after the first of `d` begins no code point
      have hlength : 0 < (String.utf8EncodeChar c).length :=
        List.length_pos_iff.mpr (utf8EncodeChar_ne_nil c)
      have hfirst : (String.utf8EncodeChar d)[k] = (String.utf8EncodeChar c)[0] := by
        have hget := congrArg (fun bytes => bytes[0]?) h
        simp only [List.getElem?_drop, Nat.add_zero] at hget
        rw [List.getElem?_append_left hk, List.getElem?_append_left hlength,
          List.getElem?_eq_getElem hk, List.getElem?_eq_getElem hlength] at hget
        exact Option.some.inj hget
      have hstart := UInt8.isUTF8FirstByte_getElem_zero_utf8EncodeChar (c := c)
      rw [← hfirst, UInt8.isUTF8FirstByte_getElem_utf8EncodeChar] at hstart
      omega
    · rw [List.drop_append, List.drop_eq_nil_of_le (by omega), List.nil_append] at h
      obtain ⟨before, after, hsplit, hbefore⟩ := ih h
      refine ⟨d :: before, after, ?_, ?_⟩
      · rw [List.flatMap_cons, List.flatMap_cons, hsplit, List.append_assoc]
      · rw [List.flatMap_cons, List.length_append]
        omega

/-- An encoding found in valid UTF-8 begins and ends where code points do. -/
theorem isCodePointBoundary_of_prefix {source query : Bytes} {s t : Text} {k : ℕ}
    (hsource : decodeUtf8 source = some s) (hquery : decodeUtf8 query = some t) (hne : query ≠ [])
    (h : query <+: source.drop k) :
    IsCodePointBoundary source k ∧ IsCodePointBoundary source (k + query.length) := by
  obtain ⟨cs, rfl, -⟩ := decodeUtf8_eq_some_iff.mp hsource
  obtain ⟨qs, rfl, -⟩ := decodeUtf8_eq_some_iff.mp hquery
  obtain ⟨tail, htail⟩ := h
  have hbegins : IsCodePointBoundary (cs.flatMap String.utf8EncodeChar) k := by
    cases qs with
    | nil => exact absurd rfl hne
    | cons q qs =>
      rw [List.flatMap_cons, List.append_assoc] at htail
      exact isCodePointBoundary_of_first htail.symm
  refine ⟨hbegins, ?_⟩
  obtain ⟨before, after, hsplit, rfl⟩ := hbegins
  rw [hsplit, List.drop_left] at htail
  obtain ⟨rest, rfl, -⟩ := eq_append_of_encoded htail
  refine ⟨before ++ qs, rest, ?_, ?_⟩
  · rw [hsplit, List.flatMap_append, List.flatMap_append, List.append_assoc]
  · rw [List.flatMap_append, List.length_append]

/-! Cutting valid UTF-8. -/

theorem subarray_append (bytes : Bytes) {a b c : ℕ} (hab : a ≤ b) (hbc : b ≤ c) :
    subarray bytes a b ++ subarray bytes b c = subarray bytes a c := by
  simp only [subarray, List.drop_take]
  rw [show c - a = (b - a) + (c - b) by omega, List.take_add, List.drop_drop,
    Nat.add_sub_cancel' hab]

/-- Decoding is the decoding of the parts. -/
theorem decodeUtf8_append {a b : Bytes} {s t : Text} (ha : decodeUtf8 a = some s)
    (hb : decodeUtf8 b = some t) : decodeUtf8 (a ++ b) = some (s ++ t) := by
  obtain ⟨cs, rfl, rfl⟩ := decodeUtf8_eq_some_iff.mp ha
  obtain ⟨ds, rfl, rfl⟩ := decodeUtf8_eq_some_iff.mp hb
  rw [← List.flatMap_append, decodeUtf8_encoded, utf16, List.flatMap_append]
  rfl

namespace IsCodePointBoundary

variable {bytes : Bytes} {s : Text}

theorem zero (h : decodeUtf8 bytes = some s) : IsCodePointBoundary bytes 0 := by
  obtain ⟨cs, rfl, -⟩ := decodeUtf8_eq_some_iff.mp h
  exact ⟨[], cs, rfl, rfl⟩

theorem length (h : decodeUtf8 bytes = some s) : IsCodePointBoundary bytes bytes.length := by
  obtain ⟨cs, rfl, -⟩ := decodeUtf8_eq_some_iff.mp h
  exact ⟨cs, [], by simp, rfl⟩

/-- A byte below 0x80 is a code point of its own. -/
theorem of_ascii (h : decodeUtf8 bytes = some s) {k : ℕ} {b : UInt8} (hb : bytes[k]? = some b)
    (hascii : b.toNat < 0x80) :
    IsCodePointBoundary bytes k ∧ IsCodePointBoundary bytes (k + 1) := by
  have hencoded : String.utf8EncodeChar (Char.ofNat b.toNat) = [b] := by
    rw [utf8EncodeChar_ascii hascii, UInt8.ofNat_toNat]
  have hbyte : decodeUtf8 [b] = some (utf16 [Char.ofNat b.toNat]) := by
    rw [← decodeUtf8_encoded, List.flatMap_cons, List.flatMap_nil, List.append_nil, hencoded]
  refine isCodePointBoundary_of_prefix h hbyte (List.cons_ne_nil _ _) ⟨bytes.drop (k + 1), ?_⟩
  obtain ⟨hk, rfl⟩ := List.getElem?_eq_some_iff.mp hb
  exact (List.drop_eq_getElem_cons hk).symm

/-- What lies between two boundaries is valid UTF-8. -/
theorem decodes {start stop : ℕ} (hstart : IsCodePointBoundary bytes start)
    (hstop : IsCodePointBoundary bytes stop) (hle : start ≤ stop) :
    ∃ t, decodeUtf8 (subarray bytes start stop) = some t := by
  obtain ⟨before, after, hbytes, rfl⟩ := hstart
  obtain ⟨before', after', hbytes', rfl⟩ := hstop
  obtain ⟨tail, htail⟩ : before.flatMap String.utf8EncodeChar <+:
      before'.flatMap String.utf8EncodeChar := by
    refine List.prefix_of_prefix_length_le ⟨_, hbytes.symm⟩ ⟨_, hbytes'.symm⟩ hle
  obtain ⟨rest, rfl, rfl⟩ := eq_append_of_encoded htail
  refine ⟨utf16 rest, ?_⟩
  rw [hbytes', subarray, List.take_left, List.flatMap_append, List.drop_left, decodeUtf8_encoded]

end IsCodePointBoundary

end Js
