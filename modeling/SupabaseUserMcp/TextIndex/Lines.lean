import SupabaseUserMcp.Js.CodePoints
import SupabaseUserMcp.TextIndex.Reads

/- The lines of a source. The scanner cuts only next to an LF or a CR, which are code
   points of their own, so every run of lines is valid UTF-8 when the source is, and
   reading the lines window by window loses nothing. -/
namespace TextIndex

open Js

/-! What a line record says of the source. -/

def IndexedNewlineKind.bytes : IndexedNewlineKind → Bytes
  | .none => []
  | .lf => [TextIndex.lf]
  | .crlf => [cr, TextIndex.lf]

def ArtifactTextLine.content (source : Bytes) (line : ArtifactTextLine) : Bytes :=
  subarray source line.byteStart (line.byteStart + line.contentByteLength)

/-- The texts of the lines of a source that decodes. -/
def lineTexts (source : Bytes) (lines : List ArtifactTextLine) : List Text :=
  lines.map fun line => (decodeUtf8 (line.content source)).getD []

def ArtifactTextLine.newline (source : Bytes) (line : ArtifactTextLine) : Bytes :=
  subarray source (line.byteStart + line.contentByteLength) line.stop

structure ArtifactTextLine.Describes (source : Bytes) (line : ArtifactTextLine) : Prop where
  newline : line.newline source = line.newlineKind.bytes
  newlineByteLength : line.newlineByteLength = line.newlineKind.bytes.length
  content : lf ∉ line.content source
  notCr : line.newlineKind = .lf → (line.content source).getLast? ≠ some cr

/-- The lines are numbered from `lineNumber` on, and only the last has no newline. -/
def Scanned (source : Bytes) : ℕ → List ArtifactTextLine → Prop
  | _, [] => True
  | lineNumber, line :: rest =>
    line.lineNumber = lineNumber ∧ lineNumber ≤ maxTextIndexLines ∧ line.Describes source ∧
      (line.newlineKind = .none → rest = []) ∧ Scanned source (lineNumber + 1) rest

/-! The scan. -/

section Scan

variable {source rest : Bytes} {start offset : ℕ} {b : UInt8}

theorem drop_succ (h : source.drop offset = b :: rest) : source.drop (offset + 1) = rest := by
  rw [← List.tail_drop, h]
  rfl

theorem subarray_succ (h : source.drop offset = b :: rest) (hle : start ≤ offset) :
    subarray source start (offset + 1) = subarray source start offset ++ [b] := by
  have hlt : offset < source.length := by
    have hlength := congrArg List.length h
    rw [List.length_drop, List.length_cons] at hlength
    omega
  have hb : source[offset]? = some b := by
    have hhead := congrArg List.head? h
    rwa [List.head?_drop] at hhead
  rw [subarray, List.take_add_one, hb, Option.toList_some, List.drop_append_of_le_length]
  · rfl
  · rw [List.length_take]
    omega

theorem subarray_one (h : source.drop offset = b :: rest) :
    subarray source offset (offset + 1) = [b] := by
  rw [subarray_succ h (Nat.le_refl _), subarray_self, List.nil_append]

theorem scanLastLine_scanned {lineNumber : ℕ} {lines : List ArtifactTextLine}
    (hle : start ≤ offset) (hlf : lf ∉ subarray source start offset)
    (h : scanLastLine start lineNumber offset = .ok lines) : Scanned source lineNumber lines := by
  rw [scanLastLine] at h
  split at h
  · obtain ⟨hnumber, tail, htail, rfl⟩ := pushLine_eq_ok.mp h
    cases htail
    have hend : start + (offset - start) = offset := Nat.add_sub_cancel' hle
    refine ⟨rfl, hnumber, ⟨?_, rfl, ?_, by simp⟩, fun _ => rfl, trivial⟩
    · rw [ArtifactTextLine.newline, ArtifactTextLine.stop, Nat.add_zero, subarray_self]
      rfl
    · rwa [ArtifactTextLine.content, hend]
  · cases h
    trivial

/-- The line a newline closes. -/
theorem describes_of_newline {lineNumber : ℕ} (kind : IndexedNewlineKind) (hle : start ≤ offset)
    (hlf : lf ∉ subarray source start offset)
    (hcr : kind = .lf → (subarray source start offset).getLast? ≠ some cr)
    (hnewline : subarray source offset (offset + kind.bytes.length) = kind.bytes) :
    ArtifactTextLine.Describes source
      ⟨lineNumber, start, offset - start, kind.bytes.length, kind⟩ := by
  have hend : start + (offset - start) = offset := Nat.add_sub_cancel' hle
  refine ⟨?_, rfl, ?_, ?_⟩
  · rwa [ArtifactTextLine.newline, ArtifactTextLine.stop, hend]
  · rwa [ArtifactTextLine.content, hend]
  · intro hkind
    rw [ArtifactTextLine.content, hend]
    exact hcr hkind

/-- What is pending has no LF, and its last byte is no CR when an LF comes next. -/
theorem scanLinesFrom_scanned (source : Bytes) : ∀ (bytes : Bytes) (start lineNumber offset : ℕ)
    (lines : List ArtifactTextLine), source.drop offset = bytes → start ≤ offset →
    lf ∉ subarray source start offset →
    (bytes.head? = some lf → (subarray source start offset).getLast? ≠ some cr) →
    scanLinesFrom start lineNumber offset bytes = .ok lines → Scanned source lineNumber lines := by
  intro bytes start lineNumber offset
  induction start, lineNumber, offset, bytes using scanLinesFrom.induct with
  | case1 start lineNumber offset =>
    intro lines _ hle hlf _ h
    exact scanLastLine_scanned hle hlf h
  | case2 start lineNumber offset =>
    intro lines hdrop hle hlf hcr h
    rw [scanLinesFrom, if_pos rfl] at h
    obtain ⟨hnumber, tail, htail, rfl⟩ := pushLine_eq_ok.mp h
    refine ⟨rfl, hnumber, ?_, by simp, ?_⟩
    · exact describes_of_newline .lf hle hlf (fun _ => hcr rfl) (subarray_one hdrop)
    · refine scanLastLine_scanned (Nat.le_refl _) ?_ htail
      simp [subarray_self]
  | case3 start lineNumber offset b hb =>
    intro lines hdrop hle hlf hcr h
    rw [scanLinesFrom, if_neg hb] at h
    refine scanLastLine_scanned (by omega) ?_ h
    rw [subarray_succ hdrop hle]
    simpa [hlf] using Ne.symm hb
  | case4 start lineNumber offset c rest ih =>
    intro lines hdrop hle hlf hcr h
    rw [scanLinesFrom, if_pos rfl] at h
    obtain ⟨hnumber, tail, htail, rfl⟩ := pushLine_eq_ok.mp h
    refine ⟨rfl, hnumber, ?_, by simp, ?_⟩
    · exact describes_of_newline .lf hle hlf (fun _ => hcr rfl) (subarray_one hdrop)
    · refine ih tail (drop_succ hdrop) (Nat.le_refl _) ?_ ?_ htail
      · simp [subarray_self]
      · simp [subarray_self]
  | case5 start lineNumber offset b c rest hb hcrlf ih =>
    intro lines hdrop hle hlf hcr h
    rw [scanLinesFrom, if_neg hb, if_pos hcrlf] at h
    obtain ⟨hnumber, tail, htail, rfl⟩ := pushLine_eq_ok.mp h
    obtain ⟨rfl, rfl⟩ := hcrlf
    have hnext := drop_succ hdrop
    refine ⟨rfl, hnumber, ?_, by simp, ?_⟩
    · refine describes_of_newline .crlf hle hlf (by simp) ?_
      show subarray source offset (offset + 1 + 1) = _
      rw [subarray_succ hnext (Nat.le_succ offset), subarray_one hdrop]
      rfl
    · refine ih tail (drop_succ hnext) (Nat.le_refl _) ?_ ?_ htail
      · simp [subarray_self]
      · simp [subarray_self]
  | case6 start lineNumber offset b c rest hb hcrlf ih =>
    intro lines hdrop hle hlf hcr h
    rw [scanLinesFrom, if_neg hb, if_neg hcrlf] at h
    refine ih lines (drop_succ hdrop) (by omega) ?_ ?_ h
    · rw [subarray_succ hdrop hle]
      simpa [hlf] using Ne.symm hb
    · intro hhead
      obtain rfl : c = lf := by simpa using hhead
      rw [subarray_succ hdrop hle, List.getLast?_concat]
      intro hlast
      exact hcrlf ⟨Option.some.inj hlast, rfl⟩

theorem scanLines_scanned {lines : List ArtifactTextLine} (h : scanLines source = .ok lines) :
    Scanned source 1 lines := by
  refine scanLinesFrom_scanned source source 0 1 0 lines rfl (Nat.le_refl _) ?_ ?_ h
  · simp [subarray_self]
  · simp [subarray_self]

end Scan

namespace Scanned

variable {source : Bytes}

theorem nth : ∀ {lines : List ArtifactTextLine} {lineNumber i : ℕ} {line : ArtifactTextLine},
    Scanned source lineNumber lines → lines[i]? = some line →
    line.lineNumber = lineNumber + i ∧ line.lineNumber ≤ maxTextIndexLines ∧
      line.Describes source ∧ (line.newlineKind = .none → i + 1 = lines.length) := by
  intro lines
  induction lines with
  | nil =>
    intro lineNumber i line _ hline
    cases hline
  | cons first rest ih =>
    intro lineNumber i line hscanned hline
    obtain ⟨hnumber, hbound, hdescribes, hlast, hrest⟩ := hscanned
    cases i with
    | zero =>
      obtain rfl := Option.some.inj hline
      refine ⟨hnumber, hnumber ▸ hbound, hdescribes, fun hnone => ?_⟩
      rw [hlast hnone]
      rfl
    | succ i =>
      obtain ⟨hnth, hbound, hdescribes, hlast⟩ := ih hrest hline
      refine ⟨?_, hbound, hdescribes, fun hnone => ?_⟩
      · omega
      · rw [List.length_cons, ← hlast hnone]

theorem describes {lines : List ArtifactTextLine} {lineNumber : ℕ} {line : ArtifactTextLine}
    (h : Scanned source lineNumber lines) (hmem : line ∈ lines) : line.Describes source := by
  obtain ⟨i, hi⟩ := List.mem_iff_getElem?.mp hmem
  exact (h.nth hi).2.2.1

end Scanned

/-! Where lines begin and end. -/

section Boundaries

variable {source : Bytes} {decoded : Text}

theorem ArtifactTextLine.Describes.newline_byte {line : ArtifactTextLine}
    (h : line.Describes source) (k : ℕ) (hk : k < line.newlineKind.bytes.length) :
    source[line.byteStart + line.contentByteLength + k]? =
      some (line.newlineKind.bytes[k]) := by
  have hnewline := congrArg (fun bytes => bytes[k]?) h.newline
  simp only [ArtifactTextLine.newline, getElem?_subarray] at hnewline
  rw [if_pos, List.getElem?_eq_getElem hk] at hnewline
  · exact hnewline
  · rw [ArtifactTextLine.stop, h.newlineByteLength]
    omega

/-- The line's newline stands between boundaries. -/
theorem ArtifactTextLine.Describes.boundaries {line : ArtifactTextLine}
    (h : line.Describes source) (hdecoded : decodeUtf8 source = some decoded)
    (hend : line.newlineKind = .none → line.stop = source.length) :
    IsCodePointBoundary source (line.byteStart + line.contentByteLength) ∧
      IsCodePointBoundary source line.stop := by
  have hbyte := h.newline_byte
  have hlength := h.newlineByteLength
  rw [ArtifactTextLine.stop, hlength] at hend ⊢
  cases hkind : line.newlineKind with
  | none =>
    rw [hkind] at hend
    have hwhole := IsCodePointBoundary.length hdecoded
    rw [← hend rfl] at hwhole
    exact ⟨hwhole, hwhole⟩
  | lf =>
    rw [hkind] at hbyte
    exact IsCodePointBoundary.of_ascii hdecoded (hbyte 0 (by decide)) (by decide)
  | crlf =>
    rw [hkind] at hbyte
    exact ⟨(IsCodePointBoundary.of_ascii hdecoded (hbyte 0 (by decide)) (by decide)).1,
      (IsCodePointBoundary.of_ascii hdecoded (hbyte 1 (by decide)) (by decide)).2⟩

/-- A line begins where another stops, or where the tiling begins. -/
theorem Tiles.byteStart_cases : ∀ {lines : List ArtifactTextLine} {start stop i : ℕ}
    {line : ArtifactTextLine}, Tiles start lines stop → lines[i]? = some line →
    i = 0 ∧ line.byteStart = start ∨
      ∃ j previous, i = j + 1 ∧ lines[j]? = some previous ∧ line.byteStart = previous.stop := by
  intro lines
  induction lines with
  | nil =>
    intro start stop i line _ hline
    cases hline
  | cons first rest ih =>
    intro start stop i line htiles hline
    cases i with
    | zero =>
      obtain rfl := Option.some.inj hline
      exact .inl ⟨rfl, htiles.1⟩
    | succ i =>
      right
      rcases ih htiles.2.2 hline with ⟨rfl, hstart⟩ | ⟨j, previous, rfl, hprevious, hstart⟩
      · exact ⟨0, first, rfl, rfl, hstart⟩
      · exact ⟨j + 1, previous, rfl, hprevious, hstart⟩

/-- The last line stops where the tiling does. -/
theorem Tiles.stop_last : ∀ {lines : List ArtifactTextLine} {start stop i : ℕ}
    {line : ArtifactTextLine}, Tiles start lines stop → lines[i]? = some line →
    i + 1 = lines.length → line.stop = stop := by
  intro lines
  induction lines with
  | nil =>
    intro start stop i line _ hline
    cases hline
  | cons first rest ih =>
    intro start stop i line htiles hline hlast
    cases i with
    | zero =>
      obtain rfl := Option.some.inj hline
      obtain rfl := List.length_eq_zero_iff.mp (Nat.succ.inj hlast).symm
      exact htiles.2.2
    | succ i => exact ih htiles.2.2 hline (Nat.succ.inj hlast)

/-- A line stops no later than a line after it begins. -/
theorem Tiles.stop_le_byteStart : ∀ {lines : List ArtifactTextLine} {start stop i j : ℕ}
    {line later : ArtifactTextLine}, Tiles start lines stop → i < j → lines[i]? = some line →
    lines[j]? = some later → line.stop ≤ later.byteStart := by
  intro lines
  induction lines with
  | nil =>
    intro start stop i j line later _ _ hline
    cases hline
  | cons first rest ih =>
    intro start stop i j line later htiles hlt hline hlater
    obtain ⟨j, rfl⟩ : ∃ k, j = k + 1 := ⟨j - 1, by omega⟩
    cases i with
    | zero =>
      obtain rfl := Option.some.inj hline
      exact (htiles.2.2.bounds hlater).1
    | succ i => exact ih htiles.2.2 (Nat.lt_of_succ_lt_succ hlt) hline hlater

/-- Every byte is of a line. -/
theorem Tiles.exists_containing : ∀ {lines : List ArtifactTextLine} {start stop offset : ℕ},
    Tiles start lines stop → start ≤ offset → offset < stop →
    ∃ (i : ℕ) (line : ArtifactTextLine), lines[i]? = some line ∧ line.byteStart ≤ offset ∧
      offset < line.stop := by
  intro lines
  induction lines with
  | nil =>
    intro start stop offset htiles hstart hstop
    obtain rfl : start = stop := htiles
    omega
  | cons first rest ih =>
    intro start stop offset htiles hstart hstop
    by_cases hfirst : offset < first.stop
    · exact ⟨0, first, rfl, htiles.1.trans_le hstart, hfirst⟩
    · obtain ⟨i, line, hline, hcontains⟩ := ih htiles.2.2 (Nat.le_of_not_lt hfirst) hstop
      exact ⟨i + 1, line, hline, hcontains⟩

end Boundaries

/-- The lines of a decodable source. -/
structure LinesOf (source : Bytes) (lines : List ArtifactTextLine) : Prop where
  decodes : ∃ decoded, decodeUtf8 source = some decoded
  tiles : Tiles 0 lines source.length
  scanned : Scanned source 1 lines

namespace LinesOf

variable {source : Bytes} {lines : List ArtifactTextLine} {first last line : ArtifactTextLine}
  {i j : ℕ}

theorem end_boundaries (h : LinesOf source lines) (hline : lines[i]? = some line) :
    IsCodePointBoundary source (line.byteStart + line.contentByteLength) ∧
      IsCodePointBoundary source line.stop := by
  obtain ⟨decoded, hdecoded⟩ := h.decodes
  obtain ⟨-, -, hdescribes, hlast⟩ := h.scanned.nth hline
  exact hdescribes.boundaries hdecoded fun hnone => h.tiles.stop_last hline (hlast hnone)

theorem start_boundary (h : LinesOf source lines) (hline : lines[i]? = some line) :
    IsCodePointBoundary source line.byteStart := by
  obtain ⟨decoded, hdecoded⟩ := h.decodes
  rcases h.tiles.byteStart_cases hline with ⟨-, hzero⟩ | ⟨j, previous, -, hprevious, hstart⟩
  · rw [hzero]
    exact IsCodePointBoundary.zero hdecoded
  · rw [hstart]
    exact (h.end_boundaries hprevious).2

/-- A run of consecutive lines is valid UTF-8. -/
theorem decodes_run (h : LinesOf source lines) (hle : i ≤ j) (hfirst : lines[i]? = some first)
    (hlast : lines[j]? = some last) :
    ∃ s, decodeUtf8 (subarray source first.byteStart last.stop) = some s := by
  refine (h.start_boundary hfirst).decodes (h.end_boundaries hlast).2 ?_
  exact (h.tiles.start_lt_stop hle hfirst hlast).le

/-- And so is a line without its newline. -/
theorem decodes_content (h : LinesOf source lines) (hmem : line ∈ lines) :
    ∃ s, decodeUtf8 (line.content source) = some s := by
  obtain ⟨i, hi⟩ := List.mem_iff_getElem?.mp hmem
  exact (h.start_boundary hi).decodes (h.end_boundaries hi).1 (Nat.le_add_right _ _)

/-- A line without a newline has content. -/
theorem content_pos (h : LinesOf source lines) (hline : lines[i]? = some line)
    (hnone : line.newlineKind = .none) : 0 < line.contentByteLength := by
  obtain ⟨-, -, hdescribes, -⟩ := h.scanned.nth hline
  have hlt := (h.tiles.bounds hline).2.1
  rw [ArtifactTextLine.stop, hdescribes.newlineByteLength, hnone] at hlt
  have hlength : IndexedNewlineKind.none.bytes.length = 0 := rfl
  omega

end LinesOf

theorem linesOf_of_scanLines {source : Bytes} {decoded : Text} {lines : List ArtifactTextLine}
    (hdecoded : decodeUtf8 source = some decoded) (h : scanLines source = .ok lines) :
    LinesOf source lines :=
  ⟨⟨decoded, hdecoded⟩, scanLines_tiles h, scanLines_scanned h⟩

end TextIndex
