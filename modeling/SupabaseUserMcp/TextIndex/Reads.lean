import SupabaseUserMcp.TextIndex

/- What the index of a source says: its lines tile the bytes, its headings are
   nonempty lines, and a read through the source's own index returns the decoding
   of the bytes at the recorded interval. -/
namespace TextIndex

open Js

/-! Lines. -/

/-- Where the next line starts. -/
def ArtifactTextLine.stop (line : ArtifactTextLine) : ℕ :=
  line.byteStart + line.contentByteLength + line.newlineByteLength

/-- The lines are nonempty, start at `start`, follow each other and end at `stop`. -/
def Tiles : ℕ → List ArtifactTextLine → ℕ → Prop
  | start, [], stop => start = stop
  | start, line :: rest, stop =>
    line.byteStart = start ∧ start < line.stop ∧ Tiles line.stop rest stop

theorem pushLine_eq_ok {line : ArtifactTextLine} {rest : Checked (List ArtifactTextLine)}
    {lines : List ArtifactTextLine} : pushLine line rest = .ok lines ↔
      line.lineNumber ≤ maxTextIndexLines ∧ ∃ tail, rest = .ok tail ∧ lines = line :: tail := by
  simp only [pushLine, bind_eq_ok, failIf_eq_ok, exists_const, decide_eq_false_iff_not, not_lt,
    gt_iff_lt, Except.ok.injEq]
  constructor
  · rintro ⟨hnumber, tail, htail, rfl⟩
    exact ⟨hnumber, tail, htail, rfl⟩
  · rintro ⟨hnumber, tail, htail, rfl⟩
    exact ⟨hnumber, tail, htail, rfl⟩

theorem scanLastLine_tiles {start lineNumber offset : ℕ} {lines : List ArtifactTextLine}
    (hle : start ≤ offset) (h : scanLastLine start lineNumber offset = .ok lines) :
    Tiles start lines offset := by
  rw [scanLastLine] at h
  split at h
  · obtain ⟨-, tail, htail, rfl⟩ := pushLine_eq_ok.mp h
    cases htail
    refine ⟨rfl, ?_, ?_⟩
    · simp only [ArtifactTextLine.stop]
      omega
    · simp only [Tiles, ArtifactTextLine.stop]
      omega
  · cases h
    simp only [Tiles]
    omega

/-- The loop tiles what is left of the source. -/
theorem scanLinesFrom_tiles : ∀ (bytes : Bytes) (start lineNumber offset : ℕ)
    (lines : List ArtifactTextLine), start ≤ offset →
    scanLinesFrom start lineNumber offset bytes = .ok lines →
    Tiles start lines (offset + bytes.length) := by
  intro bytes start lineNumber offset
  induction start, lineNumber, offset, bytes using scanLinesFrom.induct with
  | case1 start lineNumber offset =>
    intro lines hle h
    exact scanLastLine_tiles hle h
  | case2 start lineNumber offset =>
    intro lines hle h
    rw [scanLinesFrom, if_pos rfl] at h
    obtain ⟨-, tail, htail, rfl⟩ := pushLine_eq_ok.mp h
    have := scanLastLine_tiles (Nat.le_refl _) htail
    simp only [Tiles, ArtifactTextLine.stop, List.length_cons, List.length_nil]
    refine ⟨trivial, by omega, ?_⟩
    rwa [show start + (offset - start) + 1 = offset + 1 by omega]
  | case3 start lineNumber offset b hb =>
    intro lines hle h
    rw [scanLinesFrom, if_neg hb] at h
    exact scanLastLine_tiles (by omega) h
  | case4 start lineNumber offset c rest ih =>
    intro lines hle h
    rw [scanLinesFrom, if_pos rfl] at h
    obtain ⟨-, tail, htail, rfl⟩ := pushLine_eq_ok.mp h
    have := ih tail (Nat.le_refl _) htail
    simp only [Tiles, ArtifactTextLine.stop]
    refine ⟨trivial, by omega, ?_⟩
    rw [show start + (offset - start) + 1 = offset + 1 by omega]
    simpa [Nat.add_comm, Nat.add_left_comm] using this
  | case5 start lineNumber offset b c rest hb hcrlf ih =>
    intro lines hle h
    rw [scanLinesFrom, if_neg hb, if_pos hcrlf] at h
    obtain ⟨-, tail, htail, rfl⟩ := pushLine_eq_ok.mp h
    have := ih tail (Nat.le_refl _) htail
    simp only [Tiles, ArtifactTextLine.stop]
    refine ⟨trivial, by omega, ?_⟩
    rw [show start + (offset - start) + 2 = offset + 2 by omega]
    simpa [Nat.add_comm, Nat.add_left_comm] using this
  | case6 start lineNumber offset b c rest hb hcrlf ih =>
    intro lines hle h
    rw [scanLinesFrom, if_neg hb, if_neg hcrlf] at h
    have := ih lines (by omega) h
    simpa [Nat.add_comm, Nat.add_left_comm] using this

theorem scanLines_tiles {source : Bytes} {lines : List ArtifactTextLine}
    (h : scanLines source = .ok lines) : Tiles 0 lines source.length := by
  have := scanLinesFrom_tiles source 0 1 0 lines (Nat.le_refl _) h
  rwa [Nat.zero_add] at this

namespace Tiles

/-- Every line is a nonempty part of what is tiled. -/
theorem bounds : ∀ {lines : List ArtifactTextLine} {start stop i : ℕ} {line : ArtifactTextLine},
    Tiles start lines stop → lines[i]? = some line →
    start ≤ line.byteStart ∧ line.byteStart < line.stop ∧ line.stop ≤ stop := by
  intro lines
  induction lines with
  | nil =>
    intro start stop i line _ hline
    simp at hline
  | cons first rest ih =>
    intro start stop i line htiles hline
    obtain ⟨hstart, hnonempty, hrest⟩ := htiles
    cases i with
    | zero =>
      obtain rfl : first = line := by simpa using hline
      refine ⟨hstart.ge, hstart ▸ hnonempty, ?_⟩
      cases rest with
      | nil => exact hrest.le
      | cons next _ =>
        have := ih (i := 0) hrest rfl
        omega
    | succ i =>
      have := ih hrest (by simpa using hline)
      omega

/-- A line starts no later than a line after it stops. -/
theorem start_lt_stop : ∀ {lines : List ArtifactTextLine} {start stop i j : ℕ}
    {first last : ArtifactTextLine}, Tiles start lines stop → i ≤ j → lines[i]? = some first →
    lines[j]? = some last → first.byteStart < last.stop := by
  intro lines
  induction lines with
  | nil =>
    intro start stop i j first last _ _ hfirst
    simp at hfirst
  | cons head rest ih =>
    intro start stop i j first last htiles hle hfirst hlast
    cases i with
    | zero =>
      obtain rfl : head = first := by simpa using hfirst
      have := htiles.bounds hlast
      have := htiles.1
      omega
    | succ i =>
      obtain ⟨j, rfl⟩ : ∃ k, j = k + 1 := ⟨j - 1, by omega⟩
      exact ih (i := i) (j := j) htiles.2.2 (by omega) (by simpa using hfirst)
        (by simpa using hlast)

theorem ne_nil {lines : List ArtifactTextLine} {start stop : ℕ} (h : Tiles start lines stop)
    (hlt : start < stop) : lines ≠ [] := by
  rintro rfl
  simp only [Tiles] at h
  omega

end Tiles

/-! Headings. -/

theorem decode_nil : decode [] = .ok [] := by
  have h : decodeUtf8 [] = some [] := decodeUtf8_encoded []
  rw [decode, h]

theorem subarray_self (bytes : Bytes) (start : ℕ) : subarray bytes start start = [] := by
  simp [subarray]

/-- The content of a nonempty line. -/
def ArtifactTextHeading.IsLine (lines : List ArtifactTextLine) (heading : ArtifactTextHeading) :
    Prop :=
  0 < heading.byteLength ∧ ∃ line ∈ lines, heading.byteStart = line.byteStart ∧
    heading.byteLength = line.contentByteLength

theorem ArtifactTextHeading.IsLine.tail {first : ArtifactTextLine} {rest : List ArtifactTextLine}
    {heading : ArtifactTextHeading} (h : heading.IsLine rest) : heading.IsLine (first :: rest) := by
  obtain ⟨hpos, line, hline, hbounds⟩ := h
  exact ⟨hpos, line, List.mem_cons_of_mem _ hline, hbounds⟩

/-- An empty line has no heading, so a heading is a nonempty line. -/
theorem scanHeadingsFrom_isLine (platform : Platform) (source : Bytes) :
    ∀ (lines : List ArtifactTextLine) (ids : List Text) (fence : Option Fence)
      (headings : List ArtifactTextHeading),
      scanHeadingsFrom platform source ids fence lines = .ok headings →
      ∀ heading ∈ headings, heading.IsLine lines := by
  intro lines
  induction lines with
  | nil =>
    intro ids fence headings h heading hmem
    cases h
    cases hmem
  | cons line rest ih =>
    intro ids fence headings h
    simp only [scanHeadingsFrom] at h
    obtain ⟨s, hs, h⟩ := bind_eq_ok.mp h
    have hskip : ∀ {fence'}, scanHeadingsFrom platform source ids fence' rest = .ok headings →
        ∀ heading ∈ headings, heading.IsLine (line :: rest) := by
      intro fence' hrest heading hmem
      exact (ih _ _ _ hrest heading hmem).tail
    cases fence with
    | some opening => exact hskip h
    | none =>
      cases hfence : parseFence s with
      | some found =>
        rw [hfence] at h
        exact hskip h
      | none =>
        rw [hfence] at h
        obtain ⟨parsed, hparsed, h⟩ := bind_eq_ok.mp h
        cases parsed with
        | none => exact hskip h
        | some levelText =>
          obtain ⟨level, rawText⟩ := levelText
          obtain ⟨⟨⟩, -, h⟩ := bind_eq_ok.mp h
          obtain ⟨tail, htail, h⟩ := bind_eq_ok.mp h
          cases h
          intro heading hmem
          rcases List.mem_cons.mp hmem with rfl | hmem
          · refine ⟨?_, line, List.mem_cons_self, rfl, rfl⟩
            by_contra hzero
            have hempty : line.contentByteLength = 0 := Nat.eq_zero_of_not_pos hzero
            rw [hempty, Nat.add_zero, subarray_self, decode_nil] at hs
            cases hs
            cases hparsed
          · exact (ih _ _ _ htail heading hmem).tail

/-! The index of a source. -/

/-- A built index, with the facts its fields have. -/
structure Indexes (platform : Platform) (source : Bytes) (index : ArtifactTextIndex) : Prop where
  lineCount : index.lineCount = index.lines.length
  tiles : Tiles 0 index.lines source.length
  headings : ∀ heading ∈ index.headings, heading.IsLine index.lines
  sourceSha256 : index.sourceSha256 = platform.sha256Hex source
  rebuilt : buildArtifactTextIndex platform (.bytes source) (.string index.mediaType.name) =
    .ok index

theorem assertMediaType_name (mediaType : ArtifactTextMediaType) :
    assertMediaType (.string mediaType.name) = .ok mediaType := by
  cases mediaType
  · rfl
  · rfl

theorem indexes_of_build {platform : Platform} {source : Bytes} {mediaType : Value}
    {index : ArtifactTextIndex}
    (h : buildArtifactTextIndex platform (.bytes source) mediaType = .ok index) :
    Indexes platform source index := by
  have hbuild := h
  obtain ⟨bytes, hbytes, h⟩ := bind_eq_ok.mp h
  cases hbytes
  obtain ⟨kind, hkind, h⟩ := bind_eq_ok.mp h
  obtain ⟨⟨⟩, -, h⟩ := bind_eq_ok.mp h
  obtain ⟨decoded, -, h⟩ := bind_eq_ok.mp h
  obtain ⟨lines, hlines, h⟩ := bind_eq_ok.mp h
  obtain ⟨headings, hheadings, h⟩ := bind_eq_ok.mp h
  cases h
  refine ⟨rfl, scanLines_tiles hlines, ?_, rfl, ?_⟩
  · cases kind with
    | plain =>
      cases hheadings
      simp
    | markdown => exact scanHeadingsFrom_isLine platform source lines [] none headings hheadings
  · rw [← hbuild]
    simp only [buildArtifactTextIndex, hkind, assertMediaType_name]

/-- A heading is inside the source. -/
theorem Indexes.heading_inside {platform : Platform} {source : Bytes} {index : ArtifactTextIndex}
    (hindex : Indexes platform source index) {heading : ArtifactTextHeading}
    (hmem : heading ∈ index.headings) :
    heading.byteStart + heading.byteLength ≤ source.length := by
  obtain ⟨-, line, hline, hstart, hlength⟩ := hindex.headings heading hmem
  obtain ⟨i, hi⟩ := List.mem_iff_getElem?.mp hline
  have hstop := (hindex.tiles.bounds hi).2.2
  simp only [ArtifactTextLine.stop] at hstop
  omega

/-! Reads through an index. -/

theorem mediaTypeOf_name (mediaType : ArtifactTextMediaType) :
    mediaTypeOf (.string mediaType.name) = some mediaType := by
  cases mediaType <;> decide

/-- The shape check reads the media type off the index. -/
theorem mediaType_of_assertIndexShape {index checked : ArtifactTextIndex}
    (h : assertIndexShape index.toValue = .ok checked) : checked.mediaType = index.mediaType := by
  obtain ⟨field, hfield, h⟩ := bind_eq_ok.mp h
  obtain ⟨⟨⟩, -, hfield⟩ := bind_eq_ok.mp hfield
  obtain ⟨⟨⟩, -, hfield⟩ := bind_eq_ok.mp hfield
  have hmedia : field "mediaType" = .string index.mediaType.name := by
    rw [← Except.ok.inj hfield]
    rfl
  obtain ⟨profileVersion, -, h⟩ := bind_eq_ok.mp h
  obtain ⟨sourceSha256, -, h⟩ := bind_eq_ok.mp h
  rw [hmedia, mediaTypeOf_name] at h
  obtain ⟨byteLength, -, h⟩ := bind_eq_ok.mp h
  obtain ⟨lineCount, -, h⟩ := bind_eq_ok.mp h
  obtain ⟨lineValues, -, h⟩ := bind_eq_ok.mp h
  obtain ⟨headingValues, -, h⟩ := bind_eq_ok.mp h
  obtain ⟨⟨⟩, -, h⟩ := bind_eq_ok.mp h
  obtain ⟨lines, -, h⟩ := bind_eq_ok.mp h
  obtain ⟨headings, -, h⟩ := bind_eq_ok.mp h
  cases h
  rfl

theorem eq_of_sameIndex {left right : ArtifactTextIndex} (h : sameIndex left right = true) :
    left = right := by
  simp only [sameIndex, Bool.and_eq_true, beq_iff_eq] at h
  obtain ⟨⟨⟨⟨⟨⟨hversion, hsha⟩, hlength⟩, hmedia⟩, hcount⟩, hlines⟩, hheadings⟩ := h
  cases left
  cases right
  simp_all

/-- The check accepts no index but the source's own. -/
theorem eq_of_assertConsistentIndex {platform : Platform} {source : Bytes}
    {index checked : ArtifactTextIndex} (hindex : Indexes platform source index)
    (h : assertConsistentIndex platform source index.toValue = .ok checked) : checked = index := by
  obtain ⟨shaped, hshape, h⟩ := bind_eq_ok.mp h
  obtain ⟨⟨⟩, -, h⟩ := bind_eq_ok.mp h
  obtain ⟨expected, hexpected, h⟩ := bind_eq_ok.mp h
  obtain ⟨⟨⟩, hsame, h⟩ := bind_eq_ok.mp h
  cases h
  rw [mediaType_of_assertIndexShape hshape, hindex.rebuilt] at hexpected
  cases hexpected
  exact eq_of_sameIndex (by simpa using hsame)

theorem untrustedRead_eq_ok {sourceSha256 : Text} {bytes : Bytes} {read : IndexedTextRead}
    (h : untrustedRead sourceSha256 bytes = .ok read) :
    bytes.length ≤ maxTextReadBytes ∧ decodeUtf8 bytes = some read.text := by
  obtain ⟨⟨⟩, hlength, h⟩ := bind_eq_ok.mp h
  obtain ⟨decoded, hdecoded, h⟩ := bind_eq_ok.mp h
  cases h
  rw [failIf_eq_ok] at hlength
  refine ⟨by simpa using hlength, ?_⟩
  cases hbytes : decodeUtf8 bytes with
  | none => simp [decode, hbytes, fail] at hdecoded
  | some s => simpa [decode, hbytes] using hdecoded

theorem assertReadBytes_eq_ok {source checked : Bytes}
    (h : assertReadBytes (.bytes source) = .ok checked) : checked = source := by
  obtain ⟨bytes, hbytes, h⟩ := bind_eq_ok.mp h
  cases hbytes
  obtain ⟨⟨⟩, -, h⟩ := bind_eq_ok.mp h
  obtain ⟨decoded, -, h⟩ := bind_eq_ok.mp h
  cases h
  rfl

/-- A read of lines is the decoding from the first line's start to the last's stop. -/
theorem readIndexedLines_eq_ok {platform : Platform} {source : Bytes} {index : ArtifactTextIndex}
    (hindex : Indexes platform source index) {startLine count : ℕ} {read : IndexedTextRead}
    (hread : readIndexedLines platform (.bytes source) index.toValue startLine count = .ok read) :
    ∃ first last, index.lines[startLine - 1]? = some first ∧
      index.lines[startLine + count - 1 - 1]? = some last ∧
      decodeUtf8 (subarray source first.byteStart last.stop) = some read.text := by
  obtain ⟨bytes, hbytes, h⟩ := bind_eq_ok.mp hread
  rw [assertReadBytes_eq_ok hbytes] at h
  obtain ⟨checked, hchecked, hselect⟩ := bind_eq_ok.mp h
  obtain rfl := eq_of_assertConsistentIndex hindex hchecked
  simp only [bind_eq_ok, failIf_eq_ok, exists_const, Number.toNat_ofNat] at hselect
  obtain ⟨-, -, -, hselect⟩ := hselect
  split at hselect
  · next first last hfirst hlast =>
    exact ⟨first, last, hfirst, hlast, (untrustedRead_eq_ok hselect).2⟩
  · cases hselect

/-- A read of a heading is the decoding of its line. -/
theorem readIndexedHeading_eq_ok {platform : Platform} {source : Bytes} {index : ArtifactTextIndex}
    (hindex : Indexes platform source index) {headingId : Text} {read : IndexedTextRead}
    (hread : readIndexedHeading platform (.bytes source) index.toValue (.string headingId) = .ok read) :
    ∃ heading, (index.headings.find? fun entry => entry.headingId == headingId) = some heading ∧
      decodeUtf8 (subarray source heading.byteStart (heading.byteStart + heading.byteLength)) =
        some read.text := by
  obtain ⟨bytes, hbytes, h⟩ := bind_eq_ok.mp hread
  rw [assertReadBytes_eq_ok hbytes] at h
  obtain ⟨checked, hchecked, hselect⟩ := bind_eq_ok.mp h
  obtain rfl := eq_of_assertConsistentIndex hindex hchecked
  simp only [bind_eq_ok, failIf_eq_ok, exists_const] at hselect
  obtain ⟨-, hselect⟩ := hselect
  split at hselect
  · cases hselect
  · next heading hfound => exact ⟨heading, hfound, (untrustedRead_eq_ok hselect).2⟩

end TextIndex
