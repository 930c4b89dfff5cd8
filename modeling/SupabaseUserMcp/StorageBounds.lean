import Mathlib.Data.List.Infix
import SupabaseUserMcp.Inspection
import SupabaseUserMcp.Js.Base64

/- `storage-bounds.ts`: what a storage tool accepts of a caller before it reaches the
   storage service. A key is rejected rather than normalized, a size is a count of bytes,
   and inline content is base64 whose length is told without decoding it. -/
namespace StorageBounds

open Js

def storageMaxRelativeKeyBytes : ℕ := 512
def storageMaxKeySegments : ℕ := 8
def storageMaxSegmentBytes : ℕ := 128
def storageMaxInlineBytes : ℕ := 32 * 1024
def storageMaxObjectBytes : ℕ := 5 * 1024 * 1024

inductive StorageBoundsRejection where
  | notAString
  | empty
  | tooLong
  | absolutePath
  | backslash
  | emptySegment
  | dotSegment
  | tooManySegments
  | segmentTooLong
  | disallowedCharacter
  | missingExtension
  | disallowedExtension
  | invalidSize
  | sizeExceeded
  | invalidBase64
  deriving DecidableEq, Repr

abbrev StorageBoundsResult (α : Type) := Except StorageBoundsRejection α

/-! Keys. -/

def slash : UInt16 := 0x2F
def dot : UInt16 := 0x2E

/-- `[A-Za-z0-9._-]`. -/
def isSegmentUnit (u : UInt16) : Bool := isAlphanumeric u || u == dot || u == 0x5F || u == 0x2D

/-- `STORAGE_MIME_BY_EXTENSION`. -/
def storageMimeByExtension : List (Text × Text) :=
  [(text "txt", text "text/plain"), (text "md", text "text/markdown"),
    (text "csv", text "text/csv"), (text "json", text "application/json"),
    (text "pdf", text "application/pdf"), (text "png", text "image/png"),
    (text "jpg", text "image/jpeg"), (text "jpeg", text "image/jpeg"),
    (text "webp", text "image/webp")]

structure StorageRelativeKey where
  key : Text
  segments : List Text
  extension : Text
  mimeType : Text
  deriving DecidableEq, Repr

/-- The body of the loops over the segments. -/
def checkSegment (segment : Text) : StorageBoundsResult Unit := do
  throwIf segment.isEmpty .emptySegment
  throwIf (segment == [dot] || segment == [dot, dot]) .dotSegment
  throwIf (utf8Length segment > storageMaxSegmentBytes) .segmentTooLong
  throwIf (!Schema.headTail isAlphanumeric isSegmentUnit segment || decide ([dot, dot] <:+: segment))
    .disallowedCharacter

/-- What both validators check of a string that is not empty, with its segments. -/
def checkSegments (input : Text) : StorageBoundsResult (List Text) := do
  throwIf (utf8Length input > storageMaxRelativeKeyBytes) .tooLong
  throwIf (input.head? == some slash) .absolutePath
  throwIf (input.contains 0x5C) .backslash
  let segments := input.splitOn slash
  throwIf (segments.length > storageMaxKeySegments) .tooManySegments
  segments.forM checkSegment
  return segments

/-- `s.lastIndexOf(u)`, `none` for `-1`. -/
def lastIndexOf (u : UInt16) (s : Text) : Option ℕ :=
  (s.reverse.idxOf? u).map fun i => s.length - 1 - i

def parseStorageRelativeKey : Value → StorageBoundsResult StorageRelativeKey
  | .string input => do
    throwIf input.isEmpty .empty
    let segments ← checkSegments input
    let leaf := segments.getLast?.getD []
    let found := lastIndexOf dot leaf
    throwIf (found.getD 0 == 0 || found == some (leaf.length - 1)) .missingExtension
    let extension := leaf.drop (found.getD 0 + 1)
    match storageMimeByExtension.find? fun p => p.1 == extension with
    | none => .error .disallowedExtension
    | some (_, mimeType) => return ⟨input, segments, extension, mimeType⟩
  | _ => .error .notAString

def parseStorageListPrefix : Value → StorageBoundsResult Text
  | .string input =>
    if input.isEmpty then .ok []
    else do
      let _ ← checkSegments input
      return input
  | _ => .error .notAString

/-! Sizes. -/

inductive StorageSizeMode where
  | inlined
  | signed
  deriving DecidableEq, Repr

def checkStorageSize (size : Value) (mode : StorageSizeMode) : StorageBoundsResult Number :=
  match size with
  | .number n =>
    let limit := match mode with
      | .inlined => storageMaxInlineBytes
      | .signed => storageMaxObjectBytes
    if !n.isSafeInteger || n.lt (0 : ℕ) then .error .invalidSize
    else if n.gt limit then .error .sizeExceeded
    else .ok n
  | _ => .error .invalidSize

/-! Inline content. -/

/-- `STRICT_BASE64`: groups of four, the last of which may be padded. -/
def isStrictBase64 : Text → Bool
  | [] => true
  | [a, b, c, d] => isBase64Unit a && isBase64Unit b &&
      ((isBase64Unit c && (isBase64Unit d || d == 0x3D)) || (c == 0x3D && d == 0x3D))
  | a :: b :: c :: d :: rest => isBase64Unit a && isBase64Unit b && isBase64Unit c &&
      isBase64Unit d && isStrictBase64 rest
  | _ => false

/-- `Math.ceil(STORAGE_MAX_INLINE_BYTES / 3) * 4`. -/
def maxEncoded : ℕ := (storageMaxInlineBytes + 2) / 3 * 4

def base64Padding (content : Text) : ℕ :=
  if [0x3D, 0x3D].isSuffixOf content then 2 else if [0x3D].isSuffixOf content then 1 else 0

def checkStorageInlineBase64 : Value → StorageBoundsResult Number
  | .string content =>
    if content.length > maxEncoded then .error .sizeExceeded
    else if content.length % 4 != 0 || !isStrictBase64 content then .error .invalidBase64
    else
      let padding := base64Padding content
      -- no text of fewer than four units has a padding to take away
      let decoded := content.length / 4 * 3 - padding
      if padding > 0 && toBase64 (fromBase64 content) != content then .error .invalidBase64
      else checkStorageSize (Inspection.natValue decoded) .inlined
  | _ => .error .notAString

/-! Inline content is told exactly. -/

theorem base64Padding_group (a b c d : UInt16) {rest : Text} (h : 4 ≤ rest.length) :
    base64Padding (a :: b :: c :: d :: rest) = base64Padding rest := by
  have hsuffix : ∀ pattern : Text, pattern.length ≤ 2 →
      (pattern.isSuffixOf (a :: b :: c :: d :: rest) = true ↔ pattern.isSuffixOf rest = true) := by
    intro pattern hpattern
    rw [List.isSuffixOf_iff_suffix, List.isSuffixOf_iff_suffix]
    constructor
    · intro hlong
      refine List.suffix_of_suffix_length_le hlong ?_ (by omega)
      exact ⟨[a, b, c, d], rfl⟩
    · intro hshort
      exact hshort.trans ⟨[a, b, c, d], rfl⟩
  simp only [base64Padding, hsuffix [0x3D, 0x3D] (by decide), hsuffix [0x3D] (by decide)]

/-- Every group of a text of the strict form stands for its bytes, and where none is padded
the text is the base64 of the bytes it stands for. -/
theorem isStrictBase64_spec {content : Text} : isStrictBase64 content = true →
    content.length % 4 = 0 ∧
      (fromBase64 content).length + base64Padding content = content.length / 4 * 3 ∧
      (base64Padding content = 0 → toBase64 (fromBase64 content) = content) := by
  fun_induction isStrictBase64 content with
  | case1 =>
    intro _
    exact ⟨rfl, rfl, fun _ => rfl⟩
  | case2 a b c d =>
    intro h
    simp only [Bool.and_eq_true, Bool.or_eq_true, beq_iff_eq] at h
    obtain ⟨⟨ha, hb⟩, hlast⟩ := h
    obtain ⟨w, hw, haw, hwa, hane⟩ := base64Value_spec ha
    obtain ⟨x, hx, hbx, hxb, hbne⟩ := base64Value_spec hb
    obtain ⟨hc, hd | rfl⟩ | ⟨rfl, rfl⟩ := hlast
    · obtain ⟨y, hy, hcy, hyc, hcne⟩ := base64Value_spec hc
      obtain ⟨z, hz, hdz, hzd, hdne⟩ := base64Value_spec hd
      have hpadding : base64Padding [a, b, c, d] = 0 := by
        simp [base64Padding, List.isSuffixOf, hdne.symm]
      rw [hpadding, fromBase64_group ⟨haw, hane⟩ ⟨hbx, hbne⟩ ⟨hcy, hcne⟩ ⟨hdz, hdne⟩,
        toBase64_group hw hx hy hz, hwa, hxb, hyc, hzd]
      exact ⟨by simp, by simp [fromBase64, sextets], fun _ => rfl⟩
    · obtain ⟨y, hy, hcy, hyc, hcne⟩ := base64Value_spec hc
      have hpadding : base64Padding [a, b, c, 0x3D] = 1 := by
        simp [base64Padding, List.isSuffixOf, hcne.symm]
      rw [hpadding, fromBase64_onePad ⟨haw, hane⟩ ⟨hbx, hbne⟩ ⟨hcy, hcne⟩]
      exact ⟨by simp, by simp, fun h => absurd h Nat.one_ne_zero⟩
    · have hpadding : base64Padding [a, b, 0x3D, 0x3D] = 2 := by
        simp [base64Padding, List.isSuffixOf]
      rw [hpadding, fromBase64_twoPads ⟨haw, hane⟩ ⟨hbx, hbne⟩]
      exact ⟨by simp, by simp, fun h => absurd h (Nat.succ_ne_zero 1)⟩
  | case3 a b c d rest hrest ih =>
    intro h
    simp only [Bool.and_eq_true] at h
    obtain ⟨⟨⟨⟨ha, hb⟩, hc⟩, hd⟩, hstrict⟩ := h
    obtain ⟨hmod, hlength, hback⟩ := ih hstrict
    obtain ⟨w, hw, haw, hwa, hane⟩ := base64Value_spec ha
    obtain ⟨x, hx, hbx, hxb, hbne⟩ := base64Value_spec hb
    obtain ⟨y, hy, hcy, hyc, hcne⟩ := base64Value_spec hc
    obtain ⟨z, hz, hdz, hzd, hdne⟩ := base64Value_spec hd
    have hlong : 4 ≤ rest.length := by
      have hpos : rest.length ≠ 0 := fun hnil => hrest (List.eq_nil_of_length_eq_zero hnil)
      omega
    rw [base64Padding_group a b c d hlong,
      fromBase64_group ⟨haw, hane⟩ ⟨hbx, hbne⟩ ⟨hcy, hcne⟩ ⟨hdz, hdne⟩,
      toBase64_group hw hx hy hz, hwa, hxb, hyc, hzd]
    refine ⟨?_, ?_, fun hzero => by rw [hback hzero]⟩
    · simp only [List.length_cons]
      omega
    · simp only [List.length_cons]
      omega
  | case4 content hnil hfour hmore =>
    intro h
    cases h

/-- The base64 of bytes has the strict form. -/
theorem isStrictBase64_toBase64 (bytes : Bytes) : isStrictBase64 (toBase64 bytes) = true := by
  fun_induction toBase64 bytes with
  | case1 => rfl
  | case2 a =>
    have ha := a.toNat_lt
    simp only [isStrictBase64, (base64Digit_spec (show a.toNat / 4 < 64 by omega)).1,
      (base64Digit_spec (show a.toNat % 4 * 16 < 64 by omega)).1]
    rfl
  | case3 a b =>
    have ha := a.toNat_lt
    have hb := b.toNat_lt
    simp only [isStrictBase64, (base64Digit_spec (show a.toNat / 4 < 64 by omega)).1,
      (base64Digit_spec (show a.toNat % 4 * 16 + b.toNat / 16 < 64 by omega)).1,
      (base64Digit_spec (show b.toNat % 16 * 4 < 64 by omega)).1]
    rfl
  | case4 a b c rest ih =>
    have ha := a.toNat_lt
    have hb := b.toNat_lt
    have hc := c.toNat_lt
    have hfirst := (base64Digit_spec (show a.toNat / 4 < 64 by omega)).1
    have hsecond := (base64Digit_spec (show a.toNat % 4 * 16 + b.toNat / 16 < 64 by omega)).1
    have hthird := (base64Digit_spec (show b.toNat % 16 * 4 + c.toNat / 64 < 64 by omega)).1
    have hfourth := (base64Digit_spec (show c.toNat % 64 < 64 by omega)).1
    cases hrest : toBase64 rest with
    | nil => simp [isStrictBase64, hfirst, hsecond, hthird, hfourth]
    | cons u us =>
      rw [hrest] at ih
      simp [isStrictBase64, hfirst, hsecond, hthird, hfourth, ih]

theorem checkStorageSize_eq_ok {n : ℕ} {value : Number} (h : n ≤ 9007199254740991) :
    checkStorageSize (Inspection.natValue n) .inlined = .ok value ↔
      n ≤ storageMaxInlineBytes ∧ value = Number.ofNat n := by
  simp only [checkStorageSize, Inspection.natValue, Number.isSafeInteger_ofNat h, Number.lt_ofNat,
    Number.gt_ofNat]
  by_cases hle : n ≤ storageMaxInlineBytes
  · simp [hle, Nat.not_lt.mpr hle, eq_comm]
  · simp [hle, Nat.lt_of_not_le hle]

/-- **Inline content is accepted when it is the base64 of bytes that fit, and told to be
as long as they are.** -/
theorem checkStorageInlineBase64_exact (content : Text) (value : Number) :
    checkStorageInlineBase64 (.string content) = .ok value ↔
      ∃ bytes, content = toBase64 bytes ∧ bytes.length ≤ 32768 ∧
        value = Number.ofNat bytes.length := by
  constructor
  · intro h
    simp only [checkStorageInlineBase64] at h
    split at h
    · cases h
    · next hshort =>
      split at h
      · cases h
      · next hform =>
        rw [Bool.or_eq_true, not_or, Bool.not_eq_true, Bool.not_eq_true, Bool.not_eq_false'] at hform
        obtain ⟨-, hlength, hback⟩ := isStrictBase64_spec hform.2
        split at h
        · cases h
        · next hsame =>
          have hcanonical : toBase64 (fromBase64 content) = content := by
            by_cases hzero : base64Padding content = 0
            · exact hback hzero
            · simpa [Nat.pos_of_ne_zero hzero] using hsame
          have hdecoded : content.length / 4 * 3 - base64Padding content =
              (fromBase64 content).length := by omega
          rw [hdecoded] at h
          have hsafe : maxEncoded ≤ 9007199254740991 := by decide
          obtain ⟨hfits, rfl⟩ := (checkStorageSize_eq_ok (by omega)).mp h
          exact ⟨fromBase64 content, hcanonical.symm, hfits, rfl⟩
  · intro ⟨bytes, hcontent, hfits, hvalue⟩
    have hstrict := isStrictBase64_toBase64 bytes
    obtain ⟨hmod, hlength, -⟩ := isStrictBase64_spec hstrict
    have hshort : ¬(toBase64 bytes).length > maxEncoded := by
      rw [length_toBase64]
      have hmax : maxEncoded = 43692 := rfl
      omega
    rw [fromBase64_toBase64] at hlength
    have hdecoded : (toBase64 bytes).length / 4 * 3 - base64Padding (toBase64 bytes) =
        bytes.length := by omega
    rw [hcontent, checkStorageInlineBase64, if_neg hshort, if_neg (by simp [hmod, hstrict])]
    simp only [fromBase64_toBase64, bne_self_eq_false, Bool.and_false, Bool.false_eq_true, if_false,
      hdecoded]
    exact (checkStorageSize_eq_ok (by omega)).mpr ⟨hfits, hvalue⟩

-- non-zero trailing bits
example : checkStorageInlineBase64 (.string (text "YR==")) = .error .invalidBase64 := by decide

end StorageBounds
