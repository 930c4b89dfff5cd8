import SupabaseUserMcp.Js.Records
import SupabaseUserMcp.TextIndex.Headings

/- Which values are accepted as the index of a source: those that record, field for field,
   the index the source has. Whatever is built is within the bounds of the shape check. -/
namespace TextIndex

open Js

/-! Records. -/

/-- The fields of a record, under their keys. -/
def keyed (fields : List (String × Value)) : List (Text × Value) :=
  fields.map fun p => (text p.1, p.2)

/-- The record check accepts a value that has the fields, and reads them off it. -/
theorem exists_assertOrdinaryDataRecord {fields : List (String × Value)} {keys : List Text}
    {v : Value} (hkeys : (keyed fields).map Prod.fst = keys) (hnodup : keys.Nodup) :
    Value.Records (keyed fields) v ↔ ∃ field, assertOrdinaryDataRecord keys v = .ok field ∧
      ∀ p ∈ fields, field p.1 = p.2 := by
  subst hkeys
  constructor
  · intro h
    obtain ⟨properties, rfl, hperm⟩ := h
    have hproperty : ∀ p ∈ fields, Value.property properties (text p.1) = some p.2 := by
      intro p hp
      exact Value.property_of_perm hnodup hperm (List.mem_map.mpr ⟨p, hp, rfl⟩)
    refine ⟨fun key => (Value.property properties (text key)).getD .undefined, ?_, ?_⟩
    · refine bind_eq_ok.mpr ⟨(), failIf_eq_ok.mpr ?_, bind_eq_ok.mpr ⟨(), failIf_eq_ok.mpr ?_, rfl⟩⟩
      · rw [hperm.length_eq, List.length_map, bne_self_eq_false]
      · rw [Bool.not_eq_false', List.all_eq_true]
        intro key hkey
        obtain ⟨q, hq, rfl⟩ := List.mem_map.mp hkey
        obtain ⟨p, hp, rfl⟩ := List.mem_map.mp hq
        rw [hproperty p hp]
        rfl
    · intro p hp
      show (Value.property properties (text p.1)).getD .undefined = p.2
      rw [hproperty p hp]
      rfl
  · intro h
    obtain ⟨field, hrecord, hfields⟩ := h
    cases v with
    | object properties =>
      obtain ⟨⟨⟩, hlength, hrecord⟩ := bind_eq_ok.mp hrecord
      obtain ⟨⟨⟩, hdata, hrecord⟩ := bind_eq_ok.mp hrecord
      cases hrecord
      have hlength : properties.length = (keyed fields).length := by simpa using hlength
      have hdata : ∀ p ∈ fields, (Value.property properties (text p.1)).isSome = true := by
        simpa [keyed] using hdata
      refine ⟨properties, rfl, Value.perm_of_property hnodup hlength ?_⟩
      intro q hq
      obtain ⟨p, hp, rfl⟩ := List.mem_map.mp hq
      obtain ⟨v, hv⟩ := Option.isSome_iff_exists.mp (hdata p hp)
      have hfield : (Value.property properties (text p.1)).getD .undefined = p.2 := hfields p hp
      rw [hv, Option.getD_some] at hfield
      rw [← hfield]
      exact hv
    | _ => cases hrecord

/-! Fields. -/

theorem assertSafeInteger_eq_ok {v : Value} {minimum maximum n : ℕ}
    (hsafe : maximum ≤ 9007199254740991) : assertSafeInteger v minimum maximum = .ok n ↔
      v = natValue n ∧ minimum ≤ n ∧ n ≤ maximum := by
  constructor
  · intro h
    cases v with
    | number x =>
      obtain ⟨⟨⟩, hbounds, h⟩ := bind_eq_ok.mp h
      cases h
      simp only [failIf_eq_ok, Bool.or_eq_false_iff, Bool.not_eq_false'] at hbounds
      obtain ⟨⟨hinteger, hlo⟩, hhi⟩ := hbounds
      have hinteger := Number.isInteger_of_isSafeInteger hinteger
      obtain ⟨m, rfl, hm⟩ := Number.eq_ofNat_of_isInteger hinteger hlo
      rw [Number.toNat_ofNat]
      refine ⟨rfl, hm, ?_⟩
      simpa using hhi
    | _ => cases h
  · intro h
    obtain ⟨rfl, hlo, hhi⟩ := h
    refine bind_eq_ok.mpr ⟨(), failIf_eq_ok.mpr ?_, congrArg Except.ok (Number.toNat_ofNat n)⟩
    simp [Number.isSafeInteger_ofNat (hhi.trans hsafe), hlo, hhi]

theorem assertText_eq_ok {v : Value} {test : Text → Bool} {message : String} {s : Text} :
    assertText v test message = .ok s ↔ v = .string s ∧ test s = true := by
  constructor
  · intro h
    cases v with
    | string t =>
      obtain ⟨⟨⟩, htest, h⟩ := bind_eq_ok.mp h
      cases h
      exact ⟨rfl, by simpa using htest⟩
    | _ => cases h
  · intro h
    obtain ⟨rfl, htest⟩ := h
    exact bind_eq_ok.mpr ⟨(), failIf_eq_ok.mpr (by simp [htest]), rfl⟩

theorem assertOrdinaryArray_eq_ok {v : Value} {items : List Value} :
    assertOrdinaryArray v = .ok items ↔ v = .array items := by
  cases v <;> simp [assertOrdinaryArray, fail]

theorem newlineByteLengthOf_eq_some {v : Value} {n : ℕ} :
    newlineByteLengthOf v = some n ↔ v = natValue n ∧ n ≤ 2 := by
  constructor
  · intro h
    cases v with
    | number x =>
      have hmem := List.mem_of_find?_eq_some h
      have hequal := List.find?_some h
      obtain rfl := Number.strictEq_right_ofNat.mp hequal
      refine ⟨rfl, ?_⟩
      simp only [List.mem_cons, List.not_mem_nil, or_false] at hmem
      omega
    | _ => cases h
  · intro h
    obtain ⟨rfl, hle⟩ := h
    interval_cases n <;> decide

theorem newlineKindOf_eq_some {v : Value} {kind : IndexedNewlineKind} :
    newlineKindOf v = some kind ↔ v = .string kind.name := by
  constructor
  · intro h
    cases v with
    | string s =>
      have hequal := List.find?_some h
      rw [beq_iff_eq.mp hequal]
    | _ => cases h
  · intro h
    subst h
    cases kind <;> decide

theorem mediaTypeOf_eq_some {v : Value} {mediaType : ArtifactTextMediaType} :
    mediaTypeOf v = some mediaType ↔ v = .string mediaType.name := by
  constructor
  · intro h
    cases v with
    | string s =>
      have hequal := List.find?_some h
      rw [beq_iff_eq.mp hequal]
    | _ => cases h
  · intro h
    subst h
    exact mediaTypeOf_name mediaType

/-! Lines, headings, indexes. -/

def ArtifactTextLine.fields (line : ArtifactTextLine) : List (String × Value) :=
  [("lineNumber", natValue line.lineNumber), ("byteStart", natValue line.byteStart),
    ("contentByteLength", natValue line.contentByteLength),
    ("newlineByteLength", natValue line.newlineByteLength),
    ("newlineKind", .string line.newlineKind.name)]

def ArtifactTextHeading.fields (heading : ArtifactTextHeading) : List (String × Value) :=
  [("headingId", .string heading.headingId), ("level", natValue heading.level),
    ("rawText", .string heading.rawText), ("normalizedText", .string heading.normalizedText),
    ("lineNumber", natValue heading.lineNumber), ("byteStart", natValue heading.byteStart),
    ("byteLength", natValue heading.byteLength)]

/-- The fields of an index whose lines and headings are these values. -/
def ArtifactTextIndex.fields (index : ArtifactTextIndex) (lines headings : List Value) :
    List (String × Value) :=
  [("profileVersion", .string index.profileVersion), ("sourceSha256", .string index.sourceSha256),
    ("byteLength", natValue index.byteLength), ("mediaType", .string index.mediaType.name),
    ("lineCount", natValue index.lineCount), ("lines", .array lines), ("headings", .array headings)]

/-- The value has every field of the line, and no other. -/
def ArtifactTextLine.RecordedBy (v : Value) (line : ArtifactTextLine) : Prop :=
  Value.Records (keyed line.fields) v

def ArtifactTextHeading.RecordedBy (v : Value) (heading : ArtifactTextHeading) : Prop :=
  Value.Records (keyed heading.fields) v

def ArtifactTextIndex.RecordedBy (v : Value) (index : ArtifactTextIndex) : Prop :=
  ∃ lines headings, Value.Records (keyed (index.fields lines headings)) v ∧
    List.Forall₂ ArtifactTextLine.RecordedBy lines index.lines ∧
    List.Forall₂ ArtifactTextHeading.RecordedBy headings index.headings

/-- The bounds of the shape check. -/
structure ArtifactTextLine.InShape (byteLength : ℕ) (line : ArtifactTextLine) : Prop where
  lineNumber_pos : 1 ≤ line.lineNumber
  lineNumber_le : line.lineNumber ≤ maxTextIndexLines
  byteStart_le : line.byteStart ≤ byteLength
  contentByteLength_le : line.contentByteLength ≤ byteLength
  newlineByteLength_le : line.newlineByteLength ≤ 2

structure ArtifactTextHeading.InShape (byteLength lineCount : ℕ) (heading : ArtifactTextHeading) :
    Prop where
  headingId_pos : 1 ≤ heading.headingId.length
  headingId_le : heading.headingId.length ≤ 128
  rawText_le : codePointCount heading.rawText ≤ maxHeadingTextChars
  level_pos : 1 ≤ heading.level
  level_le : heading.level ≤ maxHeadingLevel
  lineNumber_pos : 1 ≤ heading.lineNumber
  lineNumber_le : heading.lineNumber ≤ lineCount
  byteStart_le : heading.byteStart ≤ byteLength
  byteLength_le : heading.byteLength ≤ byteLength

structure ArtifactTextIndex.InShape (index : ArtifactTextIndex) : Prop where
  profileVersion : index.profileVersion = artifactTextIndexProfileVersion
  sourceSha256 : isLowerHex 64 index.sourceSha256 = true
  byteLength_le : index.byteLength ≤ maxTextIndexBytes
  lineCount_le : index.lineCount ≤ maxTextIndexLines
  length_lines : index.lines.length = index.lineCount
  length_headings : index.headings.length ≤ maxTextIndexHeadings
  lines : ∀ line ∈ index.lines, line.InShape index.byteLength
  headings : ∀ heading ∈ index.headings, heading.InShape index.byteLength index.lineCount

theorem assertLineShape_eq_ok {byteLength : ℕ} (hsafe : byteLength ≤ 9007199254740991) {v : Value}
    {line : ArtifactTextLine} :
    assertLineShape byteLength v = .ok line ↔ line.RecordedBy v ∧ line.InShape byteLength := by
  have hrecord : line.RecordedBy v ↔ ∃ field, assertOrdinaryDataRecord lineKeys v = .ok field ∧
      ∀ p ∈ line.fields, field p.1 = p.2 :=
    exists_assertOrdinaryDataRecord (by simp [keyed, ArtifactTextLine.fields, lineKeys]) (by decide)
  rw [hrecord]
  constructor
  · intro h
    obtain ⟨field, hfield, h⟩ := bind_eq_ok.mp h
    obtain ⟨lineNumber, hnumber, h⟩ := bind_eq_ok.mp h
    obtain ⟨byteStart, hstart, h⟩ := bind_eq_ok.mp h
    obtain ⟨contentByteLength, hcontent, h⟩ := bind_eq_ok.mp h
    obtain ⟨hnumber, hpos, hle⟩ := (assertSafeInteger_eq_ok (by decide)).mp hnumber
    obtain ⟨hstart, -, hstartLe⟩ := (assertSafeInteger_eq_ok hsafe).mp hstart
    obtain ⟨hcontent, -, hcontentLe⟩ := (assertSafeInteger_eq_ok hsafe).mp hcontent
    split at h
    · next newlineByteLength newlineKind hnewline hkind =>
      cases h
      obtain ⟨hnewline, hnewlineLe⟩ := newlineByteLengthOf_eq_some.mp hnewline
      have hkind := newlineKindOf_eq_some.mp hkind
      refine ⟨⟨field, hfield, ?_⟩, ⟨hpos, hle, hstartLe, hcontentLe, hnewlineLe⟩⟩
      simp [ArtifactTextLine.fields, hnumber, hstart, hcontent, hnewline, hkind]
    · cases h
  · intro h
    obtain ⟨⟨field, hfield, hread⟩, hshape⟩ := h
    simp only [ArtifactTextLine.fields, List.forall_mem_cons] at hread
    obtain ⟨hnumber, hstart, hcontent, hnewline, hkind, -⟩ := hread
    have hnumber := (assertSafeInteger_eq_ok (by decide)).mpr
      ⟨hnumber, hshape.lineNumber_pos, hshape.lineNumber_le⟩
    have hstart := (assertSafeInteger_eq_ok hsafe).mpr
      ⟨hstart, Nat.zero_le _, hshape.byteStart_le⟩
    have hcontent := (assertSafeInteger_eq_ok hsafe).mpr
      ⟨hcontent, Nat.zero_le _, hshape.contentByteLength_le⟩
    have hnewline := newlineByteLengthOf_eq_some.mpr ⟨hnewline, hshape.newlineByteLength_le⟩
    have hkind := newlineKindOf_eq_some.mpr hkind
    simp only [assertLineShape, hfield, ok_bind, hnumber, hstart, hcontent, hnewline, hkind]

theorem assertHeadingShape_eq_ok {byteLength lineCount : ℕ}
    (hsafe : byteLength ≤ 9007199254740991) (hcount : lineCount ≤ 9007199254740991) {v : Value}
    {heading : ArtifactTextHeading} : assertHeadingShape byteLength lineCount v = .ok heading ↔
      heading.RecordedBy v ∧ heading.InShape byteLength lineCount := by
  have hrecord : heading.RecordedBy v ↔
      ∃ field, assertOrdinaryDataRecord headingKeys v = .ok field ∧
        ∀ p ∈ heading.fields, field p.1 = p.2 :=
    exists_assertOrdinaryDataRecord (by simp [keyed, ArtifactTextHeading.fields, headingKeys])
      (by decide)
  rw [hrecord]
  constructor
  · intro h
    obtain ⟨field, hfield, h⟩ := bind_eq_ok.mp h
    obtain ⟨headingId, hid, h⟩ := bind_eq_ok.mp h
    obtain ⟨rawText, hraw, h⟩ := bind_eq_ok.mp h
    obtain ⟨normalizedText, hnormalized, h⟩ := bind_eq_ok.mp h
    obtain ⟨level, hlevel, h⟩ := bind_eq_ok.mp h
    obtain ⟨lineNumber, hnumber, h⟩ := bind_eq_ok.mp h
    obtain ⟨byteStart, hstart, h⟩ := bind_eq_ok.mp h
    obtain ⟨headingByteLength, hlength, h⟩ := bind_eq_ok.mp h
    cases h
    obtain ⟨hid, hidBounds⟩ := assertText_eq_ok.mp hid
    obtain ⟨hraw, hrawLe⟩ := assertText_eq_ok.mp hraw
    obtain ⟨hnormalized, -⟩ := assertText_eq_ok.mp hnormalized
    obtain ⟨hlevel, hlevelPos, hlevelLe⟩ := (assertSafeInteger_eq_ok (by decide)).mp hlevel
    obtain ⟨hnumber, hpos, hle⟩ := (assertSafeInteger_eq_ok hcount).mp hnumber
    obtain ⟨hstart, -, hstartLe⟩ := (assertSafeInteger_eq_ok hsafe).mp hstart
    obtain ⟨hlength, -, hlengthLe⟩ := (assertSafeInteger_eq_ok hsafe).mp hlength
    rw [Bool.and_eq_true, decide_eq_true_eq, decide_eq_true_eq] at hidBounds
    refine ⟨⟨field, hfield, ?_⟩, ⟨hidBounds.1, hidBounds.2, of_decide_eq_true hrawLe, hlevelPos,
      hlevelLe, hpos, hle, hstartLe, hlengthLe⟩⟩
    simp [ArtifactTextHeading.fields, hid, hraw, hnormalized, hlevel, hnumber, hstart, hlength]
  · intro h
    obtain ⟨⟨field, hfield, hread⟩, hshape⟩ := h
    simp only [ArtifactTextHeading.fields, List.forall_mem_cons] at hread
    obtain ⟨hid, hlevel, hraw, hnormalized, hnumber, hstart, hlength, -⟩ := hread
    have hlevel := (assertSafeInteger_eq_ok (by decide)).mpr
      ⟨hlevel, hshape.level_pos, hshape.level_le⟩
    have hnumber := (assertSafeInteger_eq_ok hcount).mpr
      ⟨hnumber, hshape.lineNumber_pos, hshape.lineNumber_le⟩
    have hstart := (assertSafeInteger_eq_ok hsafe).mpr
      ⟨hstart, Nat.zero_le _, hshape.byteStart_le⟩
    have hlength := (assertSafeInteger_eq_ok hsafe).mpr
      ⟨hlength, Nat.zero_le _, hshape.byteLength_le⟩
    refine bind_eq_ok.mpr ⟨field, hfield, ?_⟩
    refine bind_eq_ok.mpr ⟨heading.headingId, assertText_eq_ok.mpr ⟨hid, ?_⟩, ?_⟩
    · rw [Bool.and_eq_true, decide_eq_true_eq, decide_eq_true_eq]
      exact ⟨hshape.headingId_pos, hshape.headingId_le⟩
    refine bind_eq_ok.mpr ⟨heading.rawText, assertText_eq_ok.mpr ⟨hraw, ?_⟩, ?_⟩
    · exact decide_eq_true hshape.rawText_le
    refine bind_eq_ok.mpr ⟨heading.normalizedText, assertText_eq_ok.mpr ⟨hnormalized, rfl⟩, ?_⟩
    simp only [hlevel, hnumber, hstart, hlength, ok_bind]

theorem assertIndexShape_eq_ok {v : Value} {index : ArtifactTextIndex} :
    assertIndexShape v = .ok index ↔ index.RecordedBy v ∧ index.InShape := by
  have hrecord : ∀ lines headings, Value.Records (keyed (index.fields lines headings)) v ↔
      ∃ field, assertOrdinaryDataRecord indexKeys v = .ok field ∧
        ∀ p ∈ index.fields lines headings, field p.1 = p.2 := fun lines headings =>
    exists_assertOrdinaryDataRecord (by simp [keyed, ArtifactTextIndex.fields, indexKeys])
      (by decide)
  simp only [ArtifactTextIndex.RecordedBy, hrecord]
  constructor
  · intro h
    obtain ⟨field, hfield, h⟩ := bind_eq_ok.mp h
    obtain ⟨profileVersion, hprofile, h⟩ := bind_eq_ok.mp h
    obtain ⟨sourceSha256, hsha, h⟩ := bind_eq_ok.mp h
    split at h
    · cases h
    · next mediaType hmedia =>
      obtain ⟨byteLength, hbyteLength, h⟩ := bind_eq_ok.mp h
      obtain ⟨lineCount, hlineCount, h⟩ := bind_eq_ok.mp h
      obtain ⟨lineValues, hlineValues, h⟩ := bind_eq_ok.mp h
      obtain ⟨headingValues, hheadingValues, h⟩ := bind_eq_ok.mp h
      obtain ⟨⟨⟩, hsizes, h⟩ := bind_eq_ok.mp h
      obtain ⟨lines, hlines, h⟩ := bind_eq_ok.mp h
      obtain ⟨headings, hheadings, h⟩ := bind_eq_ok.mp h
      cases h
      obtain ⟨hprofile, hprofileIs⟩ := assertText_eq_ok.mp hprofile
      obtain ⟨hsha, hshaIs⟩ := assertText_eq_ok.mp hsha
      have hmedia := mediaTypeOf_eq_some.mp hmedia
      obtain ⟨hbyteLength, -, hbytesLe⟩ := (assertSafeInteger_eq_ok (by decide)).mp hbyteLength
      obtain ⟨hlineCount, -, hlinesLe⟩ := (assertSafeInteger_eq_ok (by decide)).mp hlineCount
      have hsafe : byteLength ≤ 9007199254740991 := hbytesLe.trans (by decide)
      have hcount : lineCount ≤ 9007199254740991 := hlinesLe.trans (by decide)
      have hlines := mapM_eq_ok.mp hlines
      have hheadings := mapM_eq_ok.mp hheadings
      simp only [assertLineShape_eq_ok hsafe] at hlines
      simp only [assertHeadingShape_eq_ok hsafe hcount] at hheadings
      obtain ⟨hlines, hlineShapes⟩ := forall₂_and_right.mp hlines
      obtain ⟨hheadings, hheadingShapes⟩ := forall₂_and_right.mp hheadings
      rw [failIf_eq_ok, Bool.or_eq_false_iff, bne_eq_false_iff_eq, decide_eq_false_iff_not,
        Nat.not_lt] at hsizes
      refine ⟨⟨lineValues, headingValues, ⟨field, hfield, ?_⟩, hlines, hheadings⟩, ?_⟩
      · have hlineValues := assertOrdinaryArray_eq_ok.mp hlineValues
        have hheadingValues := assertOrdinaryArray_eq_ok.mp hheadingValues
        simp [ArtifactTextIndex.fields, hprofile, hsha, hmedia, hbyteLength, hlineCount,
          hlineValues, hheadingValues]
      · exact {
          profileVersion := beq_iff_eq.mp hprofileIs
          sourceSha256 := hshaIs
          byteLength_le := hbytesLe
          lineCount_le := hlinesLe
          length_lines := hlines.length_eq.symm.trans hsizes.1
          length_headings := hheadings.length_eq.symm.le.trans hsizes.2
          lines := hlineShapes
          headings := hheadingShapes }
  · intro h
    obtain ⟨⟨lineValues, headingValues, ⟨field, hfield, hread⟩, hlines, hheadings⟩, hshape⟩ := h
    simp only [ArtifactTextIndex.fields, List.forall_mem_cons] at hread
    obtain ⟨hprofile, hsha, hbyteLength, hmedia, hlineCount, hlineValues, hheadingValues, -⟩ := hread
    have hsafe : index.byteLength ≤ 9007199254740991 := hshape.byteLength_le.trans (by decide)
    have hcount : index.lineCount ≤ 9007199254740991 := hshape.lineCount_le.trans (by decide)
    have hbyteLength := (assertSafeInteger_eq_ok (by decide)).mpr
      ⟨hbyteLength, Nat.zero_le _, hshape.byteLength_le⟩
    have hlineCount := (assertSafeInteger_eq_ok (by decide)).mpr
      ⟨hlineCount, Nat.zero_le _, hshape.lineCount_le⟩
    have hsizes : (lineValues.length != index.lineCount ||
        headingValues.length > maxTextIndexHeadings) = false := by
      rw [hlines.length_eq, hheadings.length_eq, hshape.length_lines, bne_self_eq_false,
        Bool.false_or, decide_eq_false_iff_not, Nat.not_lt]
      exact hshape.length_headings
    have hlines : lineValues.mapM (assertLineShape index.byteLength) = .ok index.lines := by
      rw [mapM_eq_ok]
      simp only [assertLineShape_eq_ok hsafe]
      exact forall₂_and_right.mpr ⟨hlines, hshape.lines⟩
    have hheadings : headingValues.mapM (assertHeadingShape index.byteLength index.lineCount) =
        .ok index.headings := by
      rw [mapM_eq_ok]
      simp only [assertHeadingShape_eq_ok hsafe hcount]
      exact forall₂_and_right.mpr ⟨hheadings, hshape.headings⟩
    refine bind_eq_ok.mpr ⟨field, hfield, ?_⟩
    refine bind_eq_ok.mpr ⟨index.profileVersion, assertText_eq_ok.mpr ⟨hprofile, ?_⟩, ?_⟩
    · exact beq_iff_eq.mpr hshape.profileVersion
    refine bind_eq_ok.mpr ⟨index.sourceSha256, assertText_eq_ok.mpr ⟨hsha, ?_⟩, ?_⟩
    · exact hshape.sourceSha256
    simp only [hmedia, mediaTypeOf_name, hbyteLength, hlineCount, ok_bind,
      assertOrdinaryArray_eq_ok.mpr hlineValues, assertOrdinaryArray_eq_ok.mpr hheadingValues,
      hsizes, failIf_false, hlines, hheadings]

/-! The index of a source. -/

/-- An index is what its source and its media type make it. -/
structure IndexOf (platform : Platform) (source : Bytes) (index : ArtifactTextIndex) : Prop where
  source_le : source.length ≤ maxTextIndexBytes
  lines : LinesOf source index.lines
  plain : index.mediaType = .plain → index.headings = []
  markdown : index.mediaType = .markdown →
    ScansHeadings platform source [] none index.lines index.headings
  profileVersion : index.profileVersion = artifactTextIndexProfileVersion
  sourceSha256 : index.sourceSha256 = platform.sha256Hex source
  byteLength : index.byteLength = source.length
  lineCount : index.lineCount = index.lines.length

theorem indexOf_of_build {platform : Platform} {source : Bytes} {mediaType : Value}
    {index : ArtifactTextIndex}
    (h : buildArtifactTextIndex platform (.bytes source) mediaType = .ok index) :
    IndexOf platform source index := by
  obtain ⟨bytes, hbytes, h⟩ := bind_eq_ok.mp h
  cases hbytes
  obtain ⟨kind, -, h⟩ := bind_eq_ok.mp h
  obtain ⟨⟨⟩, hlength, h⟩ := bind_eq_ok.mp h
  obtain ⟨decoded, hdecoded, h⟩ := bind_eq_ok.mp h
  obtain ⟨lines, hlines, h⟩ := bind_eq_ok.mp h
  obtain ⟨headings, hheadings, h⟩ := bind_eq_ok.mp h
  cases h
  refine ⟨by simpa using hlength, linesOf_of_scanLines (decode_eq_ok.mp hdecoded) hlines, ?_, ?_,
    rfl, rfl, rfl, rfl⟩
  · intro hplain
    obtain rfl : kind = .plain := hplain
    cases hheadings
    rfl
  · intro hmarkdown
    obtain rfl : kind = .markdown := hmarkdown
    exact scansHeadings_of_ok hheadings

theorem scanLines_of_build {platform : Platform} {source : Bytes} {mediaType : Value}
    {index : ArtifactTextIndex}
    (h : buildArtifactTextIndex platform (.bytes source) mediaType = .ok index) :
    scanLines source = .ok index.lines := by
  obtain ⟨bytes, hbytes, h⟩ := bind_eq_ok.mp h
  cases hbytes
  obtain ⟨kind, -, h⟩ := bind_eq_ok.mp h
  obtain ⟨⟨⟩, -, h⟩ := bind_eq_ok.mp h
  obtain ⟨decoded, -, h⟩ := bind_eq_ok.mp h
  obtain ⟨lines, hlines, h⟩ := bind_eq_ok.mp h
  obtain ⟨headings, -, h⟩ := bind_eq_ok.mp h
  cases h
  exact hlines

theorem mediaType_of_build {platform : Platform} {bytes : Value} (kind : ArtifactTextMediaType)
    {index : ArtifactTextIndex}
    (h : buildArtifactTextIndex platform bytes (.string kind.name) = .ok index) :
    index.mediaType = kind := by
  obtain ⟨source, -, h⟩ := bind_eq_ok.mp h
  rw [assertMediaType_name, ok_bind] at h
  obtain ⟨⟨⟩, -, h⟩ := bind_eq_ok.mp h
  obtain ⟨decoded, -, h⟩ := bind_eq_ok.mp h
  obtain ⟨lines, -, h⟩ := bind_eq_ok.mp h
  obtain ⟨headings, -, h⟩ := bind_eq_ok.mp h
  cases h
  rfl

namespace IndexOf

variable {platform : Platform} {source : Bytes} {index : ArtifactTextIndex}

theorem line_inShape (h : IndexOf platform source index) {line : ArtifactTextLine}
    (hmem : line ∈ index.lines) : line.InShape index.byteLength := by
  obtain ⟨i, hi⟩ := List.mem_iff_getElem?.mp hmem
  obtain ⟨hnumber, hle, hdescribes, -⟩ := h.lines.scanned.nth hi
  obtain ⟨-, -, hstop⟩ := h.lines.tiles.bounds hi
  rw [← h.byteLength, ArtifactTextLine.stop] at hstop
  refine ⟨by omega, hle, by omega, by omega, ?_⟩
  rw [hdescribes.newlineByteLength]
  cases line.newlineKind <;> decide

theorem scans (h : IndexOf platform source index) {heading : ArtifactTextHeading}
    (hmem : heading ∈ index.headings) :
    ScansHeadings platform source [] none index.lines index.headings := by
  cases hmedia : index.mediaType with
  | plain =>
    rw [h.plain hmedia] at hmem
    cases hmem
  | markdown => exact h.markdown hmedia

theorem heading_inShape (h : IndexOf platform source index) {heading : ArtifactTextHeading}
    (hmem : heading ∈ index.headings) : heading.InShape index.byteLength index.lineCount := by
  have hscan := h.scans hmem
  obtain ⟨line, hline, hnumber, hstart, hlength⟩ := hscan.ownLine heading hmem
  obtain ⟨hpos, hle, -⟩ := hscan.isHeadingId heading hmem
  obtain ⟨hlevelPos, hlevelLe, hraw⟩ := hscan.text_bounds heading hmem
  obtain ⟨i, hi⟩ := List.mem_iff_getElem?.mp hline
  have hnth := (h.lines.scanned.nth hi).1
  obtain ⟨hlt, -⟩ := List.getElem?_eq_some_iff.mp hi
  have hline := h.line_inShape hline
  rw [h.lineCount]
  exact ⟨hpos, hle, hraw, hlevelPos, hlevelLe, by omega, by omega, hstart.trans_le hline.byteStart_le,
    hlength.trans_le hline.contentByteLength_le⟩

theorem lineCount_le (h : IndexOf platform source index) : index.lineCount ≤ maxTextIndexLines := by
  rw [h.lineCount]
  by_contra hmany
  have hlast := List.getElem?_eq_getElem (l := index.lines) (i := index.lines.length - 1)
    (by omega)
  obtain ⟨hnumber, hle, -⟩ := h.lines.scanned.nth hlast
  omega

theorem headings_le (h : IndexOf platform source index) :
    index.headings.length ≤ maxTextIndexHeadings := by
  cases hmedia : index.mediaType with
  | plain =>
    rw [h.plain hmedia]
    exact Nat.zero_le _
  | markdown => simpa using (h.markdown hmedia).count_le (Nat.zero_le _)

theorem inShape (h : IndexOf platform source index) : index.InShape where
  profileVersion := h.profileVersion
  sourceSha256 := by
    rw [h.sourceSha256]
    exact platform.isLowerHex_sha256Hex source
  byteLength_le := h.byteLength.trans_le h.source_le
  lineCount_le := h.lineCount_le
  length_lines := h.lineCount.symm
  length_headings := h.headings_le
  lines _ hmem := h.line_inShape hmem
  headings _ hmem := h.heading_inShape hmem

end IndexOf

theorem ArtifactTextLine.toValue_eq (line : ArtifactTextLine) :
    line.toValue = .object (keyed line.fields) := by
  simp [ArtifactTextLine.toValue, keyed, ArtifactTextLine.fields]

theorem ArtifactTextHeading.toValue_eq (heading : ArtifactTextHeading) :
    heading.toValue = .object (keyed heading.fields) := by
  simp [ArtifactTextHeading.toValue, keyed, ArtifactTextHeading.fields]

theorem ArtifactTextIndex.toValue_eq (index : ArtifactTextIndex) :
    index.toValue = .object (keyed (index.fields (index.lines.map ArtifactTextLine.toValue)
      (index.headings.map ArtifactTextHeading.toValue))) := by
  simp [ArtifactTextIndex.toValue, keyed, ArtifactTextIndex.fields]

theorem recordedBy_toValue (index : ArtifactTextIndex) : index.RecordedBy index.toValue := by
  refine ⟨_, _, ⟨_, index.toValue_eq, List.Perm.refl _⟩, ?_, ?_⟩
  · rw [List.forall₂_map_left_iff, List.forall₂_same]
    exact fun line _ => ⟨_, line.toValue_eq, List.Perm.refl _⟩
  · rw [List.forall₂_map_left_iff, List.forall₂_same]
    exact fun heading _ => ⟨_, heading.toValue_eq, List.Perm.refl _⟩

theorem fieldOf_mediaType {v : Value} {index : ArtifactTextIndex} (h : index.RecordedBy v) :
    fieldOf "mediaType" v = some (.string index.mediaType.name) := by
  obtain ⟨lines, headings, ⟨properties, rfl, hperm⟩, -, -⟩ := h
  have hnodup : ((keyed (index.fields lines headings)).map Prod.fst).Nodup := by
    have hkeys : (keyed (index.fields lines headings)).map Prod.fst = indexKeys := by
      simp [keyed, ArtifactTextIndex.fields, indexKeys]
    rw [hkeys]
    decide
  have hmem : (text "mediaType", Value.string index.mediaType.name) ∈
      keyed (index.fields lines headings) := by
    simp [keyed, ArtifactTextIndex.fields]
  rw [fieldOf, Value.property_of_perm hnodup hperm hmem]

theorem sameIndex_self (index : ArtifactTextIndex) : sameIndex index index = true := by
  simp [sameIndex]

/-- A value is accepted when it records the index of the bytes. -/
theorem assertConsistentIndex_eq_ok {platform : Platform} {bytes : Bytes} {v : Value}
    {checked : ArtifactTextIndex} : assertConsistentIndex platform bytes v = .ok checked ↔
      buildArtifactTextIndex platform (.bytes bytes)
          ((fieldOf "mediaType" v).getD .undefined) = .ok checked ∧
        checked.RecordedBy v := by
  constructor
  · intro h
    obtain ⟨shaped, hshape, h⟩ := bind_eq_ok.mp h
    obtain ⟨⟨⟩, -, h⟩ := bind_eq_ok.mp h
    obtain ⟨expected, hexpected, h⟩ := bind_eq_ok.mp h
    obtain ⟨⟨⟩, hsame, h⟩ := bind_eq_ok.mp h
    cases h
    obtain ⟨hrecorded, -⟩ := assertIndexShape_eq_ok.mp hshape
    obtain rfl := eq_of_sameIndex (by simpa using hsame)
    rw [fieldOf_mediaType hrecorded]
    exact ⟨hexpected, hrecorded⟩
  · intro h
    obtain ⟨hbuild, hrecorded⟩ := h
    have hindex := indexOf_of_build hbuild
    rw [fieldOf_mediaType hrecorded, Option.getD_some] at hbuild
    refine bind_eq_ok.mpr ⟨checked, assertIndexShape_eq_ok.mpr ⟨hrecorded, hindex.inShape⟩, ?_⟩
    have hsha : (checked.sourceSha256 != platform.sha256Hex bytes) = false := by
      rw [hindex.sourceSha256, bne_self_eq_false]
    rw [hsha, failIf_false, ok_bind, hbuild, ok_bind, sameIndex_self]
    rfl

/-- An honest index is accepted. -/
theorem assertConsistentIndex_build {platform : Platform} {bytes : Bytes} {mediaType : Value}
    {index : ArtifactTextIndex}
    (h : buildArtifactTextIndex platform (.bytes bytes) mediaType = .ok index) :
    assertConsistentIndex platform bytes index.toValue = .ok index := by
  have hrecorded := recordedBy_toValue index
  refine assertConsistentIndex_eq_ok.mpr ⟨?_, hrecorded⟩
  rw [fieldOf_mediaType hrecorded]
  exact (indexes_of_build h).rebuilt

end TextIndex
