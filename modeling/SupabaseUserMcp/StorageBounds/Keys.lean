import SupabaseUserMcp.Js.Utf16
import SupabaseUserMcp.Path.Resolution
import SupabaseUserMcp.StorageBounds

/- Where an accepted key leads. A storage service may normalize the Unicode of a path,
   decode its percent signs, and resolve its segments; an accepted key is the same text
   after all of it, so that below any path it names its own segments and nothing else. -/
namespace StorageBounds

open Js

/-! What is accepted. -/

theorem forM_eq_ok {α ε : Type} {f : α → Except ε Unit} {items : List α} :
    items.forM f = .ok () ↔ ∀ a ∈ items, f a = .ok () := by
  induction items with
  | nil => simp
  | cons a items ih =>
    rw [List.forM_eq_forM] at ih ⊢
    rw [List.forM_cons, bind_eq_ok]
    constructor
    · intro ⟨_, hfirst, hrest⟩ b hb
      obtain rfl | hb := List.mem_cons.mp hb
      · exact hfirst
      · exact ih.mp hrest b hb
    · intro h
      exact ⟨(), h a List.mem_cons_self, ih.mpr fun b hb => h b (List.mem_cons_of_mem _ hb)⟩

/-- A segment of a key. -/
structure IsSegment (segment : Text) : Prop where
  plain : Path.Plain dot segment
  short : utf8Length segment ≤ storageMaxSegmentBytes
  units : Schema.headTail isAlphanumeric isSegmentUnit segment = true
  dots : ¬[dot, dot] <:+: segment

theorem checkSegment_eq_ok {segment : Text} : checkSegment segment = .ok () ↔ IsSegment segment := by
  simp only [checkSegment, bind_eq_ok, throwIf_eq_ok, Bool.or_eq_false_iff, beq_eq_false_iff_ne,
    decide_eq_false_iff_not, Bool.not_eq_false', List.isEmpty_eq_false_iff, not_lt, exists_const,
    gt_iff_lt]
  constructor
  · intro h
    obtain ⟨hne, ⟨hdot, hdots⟩, hshort, hunits, hinfix⟩ := h
    exact ⟨⟨hne, hdot, hdots⟩, hshort, hunits, hinfix⟩
  · intro h
    exact ⟨h.plain.ne_nil, ⟨h.plain.ne_dot, h.plain.ne_dots⟩, h.short, h.units, h.dots⟩

/-- A text that both validators let through to its end. -/
structure IsRelative (input : Text) : Prop where
  short : utf8Length input ≤ storageMaxRelativeKeyBytes
  relative : input.head? ≠ some slash
  unescaped : 0x5C ∉ input
  few : (input.splitOn slash).length ≤ storageMaxKeySegments
  segments : ∀ segment ∈ input.splitOn slash, IsSegment segment

theorem checkSegments_eq_ok {input : Text} {segments : List Text} :
    checkSegments input = .ok segments ↔ IsRelative input ∧ segments = input.splitOn slash := by
  have hbody : checkSegments input = .ok segments ↔ (¬utf8Length input > storageMaxRelativeKeyBytes ∧
      input.head? ≠ some slash ∧ 0x5C ∉ input ∧
      ¬(input.splitOn slash).length > storageMaxKeySegments ∧
      (input.splitOn slash).forM checkSegment = .ok ()) ∧ input.splitOn slash = segments := by
    have hunit : ∀ result : StorageBoundsResult Unit,
        (∃ u, result = .ok u) ↔ result = .ok () := fun _ => ⟨fun ⟨(), h⟩ => h, fun h => ⟨(), h⟩⟩
    simp [checkSegments, bind_eq_ok, and_assoc, hunit]
  rw [hbody, eq_comm (a := segments)]
  refine and_congr_left fun _ => ?_
  rw [forM_eq_ok]
  constructor
  · intro ⟨hshort, hrelative, hunescaped, hfew, hsegments⟩
    exact ⟨Nat.not_lt.mp hshort, hrelative, hunescaped, Nat.not_lt.mp hfew,
      fun segment hmem => checkSegment_eq_ok.mp (hsegments segment hmem)⟩
  · intro h
    exact ⟨Nat.not_lt.mpr h.short, h.relative, h.unescaped, Nat.not_lt.mpr h.few,
      fun segment hmem => checkSegment_eq_ok.mpr (h.segments segment hmem)⟩

theorem parseStorageListPrefix_of_isRelative {input : Text} (h : IsRelative input) :
    parseStorageListPrefix (.string input) = .ok input := by
  rw [parseStorageListPrefix, checkSegments_eq_ok.mpr ⟨h, rfl⟩]
  split
  · next hempty => rw [List.isEmpty_iff.mp hempty]
  · rfl

/-- What an accepted key is made of. -/
theorem parseStorageRelativeKey_eq_ok {input : Text} {key : StorageRelativeKey}
    (h : parseStorageRelativeKey (.string input) = .ok key) :
    IsRelative input ∧ key.key = input ∧ key.segments = input.splitOn slash := by
  simp only [parseStorageRelativeKey] at h
  obtain ⟨⟨⟩, -, h⟩ := bind_eq_ok.mp h
  obtain ⟨segments, hsegments, h⟩ := bind_eq_ok.mp h
  obtain ⟨hrelative, rfl⟩ := checkSegments_eq_ok.mp hsegments
  obtain ⟨⟨⟩, -, h⟩ := bind_eq_ok.mp h
  split at h
  · cases h
  · cases h
    exact ⟨hrelative, rfl, rfl⟩

/-! Units. -/

/-- The units of a key: those of its segments and the slashes between them. -/
def isKeyUnit (u : UInt16) : Bool := isSegmentUnit u || u == slash

theorem isKeyUnit_spec {u : UInt16} (h : isKeyUnit u = true) : isAscii u = true ∧ u ≠ 0x25 := by
  simp only [isKeyUnit, isSegmentUnit, isAlphanumeric, isUpper, isLower, isDigit, slash, dot,
    Bool.or_eq_true, Bool.and_eq_true, decide_eq_true_eq, beq_iff_eq, UInt16.le_iff_toNat_le,
    ← UInt16.toNat_inj, UInt16.reduceToNat] at h
  simp only [isAscii, decide_eq_true_eq, UInt16.lt_iff_toNat_lt, UInt16.reduceToNat, ne_eq,
    ← UInt16.toNat_inj]
  omega

theorem isSegmentUnit_of_isAlphanumeric {u : UInt16} (h : isAlphanumeric u = true) :
    isSegmentUnit u = true := by
  simp only [isSegmentUnit, h, Bool.true_or]

theorem IsSegment.all {segment : Text} (h : IsSegment segment) :
    ∀ u ∈ segment, isSegmentUnit u = true := by
  have hunits := h.units
  cases segment with
  | nil => cases hunits
  | cons u rest =>
    simp only [Schema.headTail, Bool.and_eq_true, List.all_eq_true] at hunits
    intro v hv
    obtain rfl | hv := List.mem_cons.mp hv
    · exact isSegmentUnit_of_isAlphanumeric hunits.1
    · exact hunits.2 v hv

theorem IsSegment.allAscii {segment : Text} (h : IsSegment segment) :
    segment.all isAscii = true := by
  refine List.all_eq_true.mpr fun u hu => (isKeyUnit_spec ?_).1
  rw [isKeyUnit, h.all u hu, Bool.true_or]

theorem IsRelative.all {input : Text} (h : IsRelative input) :
    ∀ u ∈ input, isKeyUnit u = true := by
  intro u hu
  obtain rfl | ⟨segment, hmem, hu⟩ : u = slash ∨ ∃ segment ∈ input.splitOn slash, u ∈ segment :=
    Path.mem_segment hu
  · rfl
  · rw [isKeyUnit, (h.segments segment hmem).all u hu, Bool.true_or]

theorem IsRelative.allAscii {input : Text} (h : IsRelative input) : input.all isAscii = true :=
  List.all_eq_true.mpr fun u hu => (isKeyUnit_spec (h.all u hu)).1

/-- A directory of a key is a prefix of its own. -/
theorem IsRelative.directory {directory rest : Text} (h : IsRelative (directory ++ slash :: rest)) :
    IsRelative directory := by
  have hsplit : (directory ++ slash :: rest).splitOn slash =
      directory.splitOn slash ++ rest.splitOn slash := List.splitOn_append_cons_self _ _
  have hascii := h.allAscii
  have hlong := h.short
  have hfew := h.few
  rw [hsplit, List.length_append] at hfew
  have hdirectory : directory.all isAscii = true := by
    rw [List.all_append, Bool.and_eq_true] at hascii
    exact hascii.1
  rw [utf8Length_ascii hascii, List.length_append] at hlong
  refine ⟨?_, ?_, ?_, ?_, ?_⟩
  · rw [utf8Length_ascii hdirectory]
    omega
  · intro hhead
    cases directory with
    | nil => cases hhead
    | cons u directory => exact h.relative hhead
  · exact fun hmem => h.unescaped (List.mem_append_left _ hmem)
  · omega
  · intro segment hmem
    exact h.segments segment (hsplit ▸ List.mem_append_left _ hmem)

/-! What a service makes of a path. -/

/-- A Unicode normalization form. An ASCII code point combines with nothing before it. -/
structure NormalizationForm where
  normalize : Text → Text
  normalize_nil : normalize [] = []
  normalize_append : ∀ s t, t.all isAscii = true → normalize (s ++ t) = normalize s ++ t

/-- Percent signs before two hexadecimal digits are decoded. -/
def percentDecode : Bytes → Bytes
  | 0x25 :: h :: l :: rest =>
    match hexValue (UInt16.ofNat h.toNat), hexValue (UInt16.ofNat l.toNat) with
    | some hi, some lo => UInt8.ofNat (16 * hi + lo) :: percentDecode rest
    | _, _ => 0x25 :: percentDecode (h :: l :: rest)
  | b :: rest => b :: percentDecode rest
  | [] => []

/-- The object a path names: its segments, normalized, decoded and resolved. -/
def object (form : NormalizationForm) (rooted : Bool) (path : Text) : List Bytes :=
  Path.resolve 0x2F 0x2E rooted (percentDecode (encodeUtf8 (form.normalize path)))

theorem NormalizationForm.normalize_ascii (form : NormalizationForm) {s : Text}
    (h : s.all isAscii = true) : form.normalize s = s := by
  have happend := form.normalize_append [] s h
  rwa [form.normalize_nil] at happend

theorem percentDecode_cons {b : UInt8} (h : b ≠ 0x25) (rest : Bytes) :
    percentDecode (b :: rest) = b :: percentDecode rest := by
  rw [percentDecode]
  intro _ _ _ hb
  exact absurd hb h

/-- Bytes without a percent sign stay. -/
theorem percentDecode_plain {bytes : Bytes} (h : 0x25 ∉ bytes) : percentDecode bytes = bytes := by
  induction bytes with
  | nil => rfl
  | cons b rest ih =>
    rw [List.mem_cons, not_or] at h
    rw [percentDecode_cons (Ne.symm h.1), ih h.2]

theorem percentDecode_slash (x : UInt8) (after : Bytes) :
    percentDecode (0x25 :: 0x2F :: after) = 0x25 :: percentDecode (0x2F :: after) ∧
      percentDecode (0x25 :: x :: 0x2F :: after) = 0x25 :: percentDecode (x :: 0x2F :: after) := by
  have hslash : hexValue (UInt16.ofNat (0x2F : UInt8).toNat) = none := by decide
  constructor
  · cases after with
    | nil => rfl
    | cons y after => rw [percentDecode, hslash]
  · rw [percentDecode, hslash]
    cases hexValue (UInt16.ofNat x.toNat) <;> rfl

/-- No escape reaches over a slash. -/
theorem percentDecode_append (before : Bytes) {after : Bytes} (h : 0x25 ∉ after) :
    percentDecode (before ++ 0x2F :: after) = percentDecode before ++ 0x2F :: after := by
  have htail : percentDecode (0x2F :: after) = 0x2F :: after := by
    rw [percentDecode_cons (by decide), percentDecode_plain h]
  fun_induction percentDecode before with
  | case1 h l rest hi lo hhi hlo ih =>
    rw [List.cons_append, List.cons_append, List.cons_append, percentDecode, hhi, hlo]
    exact congrArg (_ :: ·) ih
  | case2 h l rest hnone ih =>
    rw [List.cons_append, List.cons_append, List.cons_append, percentDecode]
    split
    · next hi lo hhi hlo => exact absurd hlo (hnone hi lo hhi)
    · exact congrArg (_ :: ·) ih
  | case3 b rest hshort ih =>
    by_cases hb : b = 0x25
    · subst hb
      match rest with
      | [] => exact ((percentDecode_slash 0 after).1.trans (congrArg _ htail))
      | [x] => exact ((percentDecode_slash x after).2.trans (congrArg (0x25 :: ·) ih))
      | x :: y :: rest => exact (hshort x y rest rfl rfl).elim
    · rw [List.cons_append, percentDecode_cons hb, List.cons_append, ih]
  | case4 => exact htail

/-- Below any path a text that starts after a slash is encoded on its own. -/
theorem encodeUtf8_below (parent : Text) {s : Text} (h : s.all isAscii = true) :
    encodeUtf8 (parent ++ slash :: s) = encodeUtf8 parent ++ 0x2F :: encodeUtf8 s := by
  have hboundary : (parent.getLast?.any isHighSurrogate &&
      (slash :: s).head?.any isLowSurrogate) = false := by
    rw [List.head?_cons, Option.any_some, show isLowSurrogate slash = false by decide,
      Bool.and_false]
  rw [encodeUtf8, scalars_append hboundary, List.flatMap_append, ← encodeUtf8, ← encodeUtf8]
  have hslash : (slash :: s).all isAscii = true := by rw [List.all_cons, h]; rfl
  rw [encodeUtf8_ascii hslash, encodeUtf8_ascii h]
  rfl

/-- Different ASCII texts are different bytes. -/
theorem encodeUtf8_inj {a b : Text} (ha : a.all isAscii = true) (hb : b.all isAscii = true)
    (h : encodeUtf8 a = encodeUtf8 b) : a = b := by
  have hdecoded := (IsUtf16.ascii ha).decodeUtf8_encodeUtf8
  rw [h, (IsUtf16.ascii hb).decodeUtf8_encodeUtf8] at hdecoded
  exact (Option.some.inj hdecoded).symm

section Objects

variable {input : Text} (h : IsRelative input)

include h

/-- The segments as the bytes they are sent as. -/
theorem IsRelative.splitOn_encodeUtf8 :
    (encodeUtf8 input).splitOn 0x2F = (input.splitOn slash).map encodeUtf8 := by
  have hinj : ∀ u ∈ input, UInt8.ofNat u.toNat = UInt8.ofNat slash.toNat → u = slash := by
    intro u hu heq
    have hascii := (isKeyUnit_spec (h.all u hu)).1
    simp only [isAscii, decide_eq_true_eq, UInt16.lt_iff_toNat_lt, UInt16.reduceToNat] at hascii
    rw [← UInt8.toNat_inj, UInt8.toNat_ofNat', UInt8.toNat_ofNat'] at heq
    rw [← UInt16.toNat_inj]
    change u.toNat % 256 = 0x2F at heq
    change u.toNat = 0x2F
    omega
  have hsplit := Path.splitOn_map (fun u : UInt16 => UInt8.ofNat u.toNat) hinj
  rw [encodeUtf8_ascii h.allAscii]
  refine hsplit.trans (List.map_congr_left fun segment hmem => ?_)
  exact (encodeUtf8_ascii (h.segments segment hmem).allAscii).symm

theorem IsRelative.plain_encodeUtf8 :
    ∀ segment ∈ (encodeUtf8 input).splitOn 0x2F, Path.Plain (0x2E : UInt8) segment := by
  rw [h.splitOn_encodeUtf8]
  intro segment hmem
  obtain ⟨original, horiginal, rfl⟩ := List.mem_map.mp hmem
  have hsegment := h.segments original horiginal
  have hascii := hsegment.allAscii
  exact ⟨fun heq => hsegment.plain.ne_nil (encodeUtf8_inj hascii (b := []) rfl heq),
    fun heq => hsegment.plain.ne_dot (encodeUtf8_inj hascii (b := [dot]) rfl heq),
    fun heq => hsegment.plain.ne_dots (encodeUtf8_inj hascii (b := [dot, dot]) rfl heq)⟩

theorem IsRelative.not_mem_encodeUtf8 : 0x25 ∉ encodeUtf8 input := by
  rw [encodeUtf8_ascii h.allAscii]
  intro hmem
  obtain ⟨u, hu, heq⟩ := List.mem_map.mp hmem
  obtain ⟨hascii, hne⟩ := isKeyUnit_spec (h.all u hu)
  simp only [isAscii, decide_eq_true_eq, UInt16.lt_iff_toNat_lt, UInt16.reduceToNat] at hascii
  rw [← UInt8.toNat_inj, UInt8.toNat_ofNat'] at heq
  refine hne (UInt16.toNat_inj.mp ?_)
  change u.toNat % 256 = 0x25 at heq
  change u.toNat = 0x25
  omega

/-- Below any path an accepted key is its own segments below the path's object. -/
theorem IsRelative.object_below (form : NormalizationForm) (rooted : Bool) (parent : Text) :
    object form rooted (parent ++ slash :: input) =
      object form rooted parent ++ (input.splitOn slash).map encodeUtf8 := by
  have hascii : (slash :: input).all Js.isAscii = true := by rw [List.all_cons, h.allAscii]; rfl
  rw [object, form.normalize_append _ _ hascii, encodeUtf8_below _ h.allAscii,
    percentDecode_append _ h.not_mem_encodeUtf8, Path.resolve_below h.plain_encodeUtf8,
    h.splitOn_encodeUtf8]
  rfl

end Objects

/-- **An accepted key is its own normal form, names its own segments below any path, and is
listed from each of its directories.** -/
theorem parseStorageRelativeKey_safe {input : Text} {key : StorageRelativeKey}
    (h : parseStorageRelativeKey (.string input) = .ok key) :
    key.key = input ∧ [slash].intercalate key.segments = input ∧
    (∀ form : NormalizationForm, form.normalize input = input) ∧
    percentDecode (encodeUtf8 input) = encodeUtf8 input ∧
    Path.collapse slash input = input ∧
    (∀ rooted, [slash].intercalate (Path.resolve slash dot rooted input) = input) ∧
    (∀ form rooted parent, ∃ names, names ≠ [] ∧
      object form rooted (parent ++ slash :: input) = object form rooted parent ++ names) ∧
    (∀ other otherKey, parseStorageRelativeKey (.string other) = .ok otherKey →
      ∀ form rooted parent, object form rooted (parent ++ slash :: other) =
        object form rooted (parent ++ slash :: input) → other = input) ∧
    parseStorageListPrefix (.string input) = .ok input ∧
    parseStorageListPrefix (.string []) = .ok [] ∧
    ∀ directory rest, input = directory ++ slash :: rest →
      parseStorageListPrefix (.string directory) = .ok directory := by
  obtain ⟨hrelative, hkey, hsegments⟩ := parseStorageRelativeKey_eq_ok h
  have hplain : ∀ segment ∈ input.splitOn slash, Path.Plain dot segment :=
    fun segment hmem => (hrelative.segments segment hmem).plain
  refine ⟨hkey, ?_, ?_, ?_, ?_, ?_, ?_, ?_, ?_, rfl, ?_⟩
  · rw [hsegments, List.intercalate_splitOn]
  · exact fun form => form.normalize_ascii hrelative.allAscii
  · exact percentDecode_plain hrelative.not_mem_encodeUtf8
  · exact Path.collapse_plain fun hnil => (hplain [] hnil).ne_nil rfl
  · intro rooted
    rw [Path.resolve_plain hplain, List.intercalate_splitOn]
  · intro form rooted parent
    refine ⟨_, ?_, hrelative.object_below form rooted parent⟩
    exact fun hnil => List.splitOn_ne_nil slash input (List.map_eq_nil_iff.mp hnil)
  · intro other otherKey hother form rooted parent heq
    obtain ⟨hotherRelative, -, -⟩ := parseStorageRelativeKey_eq_ok hother
    rw [hotherRelative.object_below, hrelative.object_below] at heq
    have hnames := List.append_cancel_left heq
    rw [← hotherRelative.splitOn_encodeUtf8, ← hrelative.splitOn_encodeUtf8] at hnames
    have hbytes := congrArg (List.intercalate [0x2F]) hnames
    rw [List.intercalate_splitOn, List.intercalate_splitOn] at hbytes
    exact encodeUtf8_inj hotherRelative.allAscii hrelative.allAscii hbytes
  · exact parseStorageListPrefix_of_isRelative hrelative
  · intro directory rest hinput
    rw [hinput] at hrelative
    exact parseStorageListPrefix_of_isRelative hrelative.directory

theorem parseStorageRelativeKey_safe_nested :
    [slash].intercalate [text "dir.d", text "x.json"] = text "dir.d/x.json" ∧
      parseStorageListPrefix (.string (text "dir.d")) = .ok (text "dir.d") := by
  have hkey : parseStorageRelativeKey (.string (text "dir.d/x.json")) =
      .ok ⟨text "dir.d/x.json", [text "dir.d", text "x.json"], text "json",
        text "application/json"⟩ := by decide +kernel
  obtain ⟨-, hjoin, -, -, -, -, -, -, -, -, hdirectories⟩ := parseStorageRelativeKey_safe hkey
  exact ⟨hjoin, hdirectories (text "dir.d") (text "x.json") rfl⟩

end StorageBounds
