import SupabaseUserMcp.TextIndex.Acceptance

/- The bounds of the profile, as bounds on a source: on its bytes, on its lines, and in
   Markdown on the headings outside its fences. A source has an index exactly when it
   keeps to them. -/
namespace TextIndex

open Js

/-! Lines. -/

/-- The lines that are left of a source, after a pending one or not: one for each LF, and
one for what follows the last. -/
def linesLeft (pending : Bool) (bytes : Bytes) : ℕ :=
  bytes.count lf + if bytes.getLast?.elim pending (· != lf) then 1 else 0

def lineCountOf (source : Bytes) : ℕ := linesLeft false source

section Lines

variable {start lineNumber offset : ℕ}

theorem linesLeft_lf (pending : Bool) (rest : Bytes) :
    linesLeft pending (lf :: rest) = linesLeft false rest + 1 := by
  cases rest with
  | nil => rfl
  | cons c rest =>
    rw [linesLeft, linesLeft, List.count_cons_self, List.getLast?_cons_cons]
    cases hlast : (c :: rest).getLast? with
    | none => exact absurd (List.getLast?_eq_none_iff.mp hlast) (List.cons_ne_nil c rest)
    | some _ => exact Nat.add_right_comm _ _ _

theorem linesLeft_of_ne {b : UInt8} (hb : b ≠ lf) (pending : Bool) (rest : Bytes) :
    linesLeft pending (b :: rest) = linesLeft true rest := by
  rw [linesLeft, linesLeft, List.count_cons_of_ne hb]
  cases rest with
  | nil => simp [hb]
  | cons c rest =>
    rw [List.getLast?_cons_cons]
    cases hlast : (c :: rest).getLast? with
    | none => exact absurd (List.getLast?_eq_none_iff.mp hlast) (List.cons_ne_nil c rest)
    | some _ => rfl

/-- So many lines from this one on are within the bound. -/
def LinesFit (lineNumber left : ℕ) : Prop := left = 0 ∨ lineNumber + left ≤ maxTextIndexLines + 1

theorem linesFit_succ {left : ℕ} : LinesFit lineNumber (left + 1) ↔
    lineNumber ≤ maxTextIndexLines ∧ LinesFit (lineNumber + 1) left := by
  simp only [LinesFit]
  omega

theorem exists_pushLine_iff {line : ArtifactTextLine} {rest : Checked (List ArtifactTextLine)} :
    (∃ lines, pushLine line rest = .ok lines) ↔
      line.lineNumber ≤ maxTextIndexLines ∧ ∃ tail, rest = .ok tail := by
  simp only [pushLine_eq_ok]
  constructor
  · rintro ⟨lines, hnumber, tail, htail, -⟩
    exact ⟨hnumber, tail, htail⟩
  · rintro ⟨hnumber, tail, htail⟩
    exact ⟨_, hnumber, tail, htail, rfl⟩

theorem exists_scanLastLine_iff : (∃ lines, scanLastLine start lineNumber offset = .ok lines) ↔
    LinesFit lineNumber (linesLeft (decide (start < offset)) []) := by
  rw [scanLastLine]
  by_cases hpending : start < offset
  · have hleft : linesLeft (decide (start < offset)) [] = 0 + 1 := by simp [linesLeft, hpending]
    rw [if_pos hpending, exists_pushLine_iff, hleft, linesFit_succ]
    exact and_congr_right fun _ => ⟨fun _ => .inl rfl, fun _ => ⟨[], rfl⟩⟩
  · have hleft : linesLeft (decide (start < offset)) [] = 0 := by simp [linesLeft, hpending]
    rw [if_neg hpending, hleft]
    exact ⟨fun _ => .inl rfl, fun _ => ⟨[], rfl⟩⟩

/-- The scan succeeds when the lines that are left are within the bound. -/
theorem exists_scanLinesFrom_iff (bytes : Bytes) (hle : start ≤ offset) :
    (∃ lines, scanLinesFrom start lineNumber offset bytes = .ok lines) ↔
      LinesFit lineNumber (linesLeft (decide (start < offset)) bytes) := by
  induction start, lineNumber, offset, bytes using scanLinesFrom.induct with
  | case1 start lineNumber offset => exact exists_scanLastLine_iff
  | case2 start lineNumber offset =>
    rw [scanLinesFrom, if_pos rfl, exists_pushLine_iff, exists_scanLastLine_iff, linesLeft_lf,
      linesFit_succ, decide_eq_false (Nat.lt_irrefl _)]
  | case3 start lineNumber offset b hb =>
    rw [scanLinesFrom, if_neg hb, exists_scanLastLine_iff, linesLeft_of_ne hb,
      decide_eq_true (Nat.lt_succ_of_le hle)]
  | case4 start lineNumber offset c rest ih =>
    rw [scanLinesFrom, if_pos rfl, exists_pushLine_iff, ih (Nat.le_refl _), linesLeft_lf,
      linesFit_succ, decide_eq_false (Nat.lt_irrefl _)]
  -- CR LF is one line end: the LF counts and the CR does not
  | case5 start lineNumber offset b c rest hb hcrlf ih =>
    rw [scanLinesFrom, if_neg hb, if_pos hcrlf, exists_pushLine_iff, ih (Nat.le_refl _),
      linesLeft_of_ne hb, hcrlf.2, linesLeft_lf, linesFit_succ, decide_eq_false (Nat.lt_irrefl _)]
  | case6 start lineNumber offset b c rest hb hcrlf ih =>
    rw [scanLinesFrom, if_neg hb, if_neg hcrlf, ih (Nat.le_succ_of_le hle), linesLeft_of_ne hb,
      decide_eq_true (Nat.lt_succ_of_le hle)]

theorem exists_scanLines_iff {source : Bytes} :
    (∃ lines, scanLines source = .ok lines) ↔ lineCountOf source ≤ maxTextIndexLines := by
  refine (exists_scanLinesFrom_iff source (Nat.le_refl 0)).trans ?_
  show LinesFit 1 (lineCountOf source) ↔ _
  rw [LinesFit]
  omega

end Lines

/-! Headings. -/

/-- The texts of the headings of some lines, behind a fence that may be open. -/
inductive HeadingTexts : Option Fence → List Text → List Text → Prop
  | nil (fence : Option Fence) : HeadingTexts fence [] []
  | closes {opening : Fence} {s : Text} {rest texts : List Text} : ClosesFence s opening →
    HeadingTexts none rest texts → HeadingTexts (some opening) (s :: rest) texts
  | inside {opening : Fence} {s : Text} {rest texts : List Text} : ¬ ClosesFence s opening →
    HeadingTexts (some opening) rest texts → HeadingTexts (some opening) (s :: rest) texts
  | opens {found : Fence} {s : Text} {rest texts : List Text} : OpensFence s found →
    HeadingTexts (some found) rest texts → HeadingTexts none (s :: rest) texts
  | skips {s : Text} {rest texts : List Text} : (∀ found, ¬ OpensFence s found) →
    (∀ level title, ¬ AtxLine s level title) → HeadingTexts none rest texts →
    HeadingTexts none (s :: rest) texts
  | heading {s title : Text} {level : ℕ} {rest texts : List Text} :
    (∀ found, ¬ OpensFence s found) → AtxLine s level title → HeadingTexts none rest texts →
    HeadingTexts none (s :: rest) (stripClosingHashes title :: texts)

section Headings

variable {platform : Platform} {source : Bytes}

theorem parseFence_eq_none {s : Text} :
    parseFence s = none ↔ ∀ found, ¬ OpensFence s found := by
  rw [Option.eq_none_iff_forall_ne_some]
  exact forall_congr' fun found => not_congr parseFence_eq_some

/-- The headings that a scan finds are those of the lines. -/
theorem ScansHeadings.headingTexts {ids : List Text} {fence : Option Fence}
    {lines : List ArtifactTextLine} {headings : List ArtifactTextHeading}
    (h : ScansHeadings platform source ids fence lines headings)
    (hfence : ∀ opening ∈ fence, opening.IsOpening) :
    HeadingTexts fence (lineTexts source lines) (headings.map ArtifactTextHeading.rawText) := by
  have hnone : ∀ opening ∈ (none : Option Fence), opening.IsOpening := fun _ h => (by cases h)
  induction h with
  | nil ids fence => exact .nil fence
  | closes hs hclosing _ ih =>
    obtain ⟨hmarker, hlength⟩ := hfence _ rfl
    rw [lineTexts, List.map_cons, hs, Option.getD_some]
    exact .closes ((isClosingFence_iff hmarker hlength).mp hclosing) (ih hnone)
  | inside hs hclosing _ ih =>
    obtain ⟨hmarker, hlength⟩ := hfence _ rfl
    rw [lineTexts, List.map_cons, hs, Option.getD_some]
    refine .inside (fun hcloses => ?_) (ih hfence)
    rw [(isClosingFence_iff hmarker hlength).mpr hcloses] at hclosing
    cases hclosing
  | opens hs hparsed _ ih =>
    have hopens := parseFence_eq_some.mp hparsed
    rw [lineTexts, List.map_cons, hs, Option.getD_some]
    exact .opens hopens (ih fun opening h => Option.some.inj h ▸ hopens.isOpening)
  | skips hs hparsed hatx _ ih =>
    rw [lineTexts, List.map_cons, hs, Option.getD_some]
    refine .skips (parseFence_eq_none.mp hparsed) (fun level title hline => ?_) (ih hnone)
    rw [parseAtxHeading_of_atxLine hline] at hatx
    obtain ⟨-, hsome⟩ := atxResult_eq_ok.mp hatx
    cases hsome
  | heading hs hparsed hatx _ _ _ ih =>
    obtain ⟨title, hline, rfl, -⟩ := parseAtxHeading_eq_some.mp hatx
    rw [lineTexts, List.map_cons, hs, Option.getD_some]
    exact .heading (parseFence_eq_none.mp hparsed) hline (ih hnone)

/-- A scan of headings within the bounds succeeds. -/
theorem exists_scanHeadingsFrom {lines : List ArtifactTextLine} :
    ∀ {ids : List Text} {fence : Option Fence} {texts : List Text},
      (∀ line ∈ lines, ∃ s, decodeUtf8 (line.content source) = some s) →
      (∀ opening ∈ fence, opening.IsOpening) → HeadingTexts fence (lineTexts source lines) texts →
      ids.length + texts.length ≤ maxTextIndexHeadings →
      (∀ title ∈ texts, codePointCount title ≤ maxHeadingTextChars) →
      ∃ headings, scanHeadingsFrom platform source ids fence lines = .ok headings := by
  induction lines with
  | nil => exact fun _ _ _ _ _ => ⟨[], rfl⟩
  | cons line rest ih =>
    intro ids fence texts hdecodes hfence htexts hcount hshort
    obtain ⟨⟨s, hs⟩, hrest⟩ := List.forall_mem_cons.mp hdecodes
    have hnone : ∀ opening ∈ (none : Option Fence), opening.IsOpening := fun _ h => (by cases h)
    rw [lineTexts, List.map_cons, hs, Option.getD_some] at htexts
    have hdecode : decode (subarray source line.byteStart
        (line.byteStart + line.contentByteLength)) = .ok s := decode_eq_ok.mpr hs
    -- the branch of the scan is that of the texts; only a heading spends one of the bound
    rw [scanHeadingsFrom, hdecode, ok_bind]
    cases htexts with
    | closes hcloses htail =>
      obtain ⟨hmarker, hlength⟩ := hfence _ rfl
      simp only [(isClosingFence_iff hmarker hlength).mpr hcloses, if_true]
      exact ih hrest hnone htail hcount hshort
    | @inside opening _ _ _ hcloses htail =>
      obtain ⟨hmarker, hlength⟩ := hfence _ rfl
      have hclosing : isClosingFence s opening = false :=
        Bool.eq_false_iff.mpr (mt (isClosingFence_iff hmarker hlength).mp hcloses)
      simp only [hclosing, Bool.false_eq_true, if_false]
      exact ih hrest hfence htail hcount hshort
    | opens hopens htail =>
      simp only [parseFence_eq_some.mpr hopens]
      exact ih hrest (fun opening h => Option.some.inj h ▸ hopens.isOpening) htail hcount hshort
    | skips hopens hatx htail =>
      have hparsed : parseAtxHeading s = .ok none := by
        rcases parseAtxHeading_cases s with ⟨level, title, hline, -⟩ | ⟨-, hnone⟩
        · exact absurd hline (hatx level title)
        · exact hnone
      simp only [parseFence_eq_none.mpr hopens, hparsed, ok_bind]
      exact ih hrest hnone htail hcount hshort
    | @heading _ title level _ texts hopens hatx htail =>
      obtain ⟨htitle, hshort⟩ := List.forall_mem_cons.mp hshort
      have hparsed : parseAtxHeading s = .ok (some (level, stripClosingHashes title)) :=
        parseAtxHeading_eq_some.mpr ⟨title, hatx, rfl, htitle⟩
      rw [List.length_cons] at hcount
      obtain ⟨headings, hheadings⟩ := @ih (nextHeadingId (headingSlug
        (normalizedHeadingText platform (stripClosingHashes title))) ids :: ids) _ _ hrest hnone
        htail (by rw [List.length_cons]; omega) hshort
      have hroom : decide (ids.length + 1 > maxTextIndexHeadings) = false :=
        decide_eq_false (by omega)
      simp only [parseFence_eq_none.mpr hopens, hparsed, ok_bind, hroom, failIf_false, hheadings]
      exact ⟨_, rfl⟩

end Headings

/-! Sources. -/

/-- The bounds of the profile on a source of a kind. -/
structure WithinBounds (source : Bytes) (kind : ArtifactTextMediaType) : Prop where
  bytes : source.length ≤ maxTextIndexBytes
  lines : lineCountOf source ≤ maxTextIndexLines
  headings : kind = .markdown → ∀ lines, scanLines source = .ok lines → ∃ texts,
    HeadingTexts none (lineTexts source lines) texts ∧ texts.length ≤ maxTextIndexHeadings ∧
      ∀ title ∈ texts, codePointCount title ≤ maxHeadingTextChars

/-- A source that decodes has an index exactly when it is within the bounds. -/
theorem exists_build_iff {platform : Platform} {source : Bytes} {decoded : Text}
    (hdecoded : decodeUtf8 source = some decoded) (kind : ArtifactTextMediaType) :
    (∃ index, buildArtifactTextIndex platform (.bytes source) (.string kind.name) = .ok index) ↔
      WithinBounds source kind := by
  have hnone : ∀ opening ∈ (none : Option Fence), opening.IsOpening := fun _ h => (by cases h)
  constructor
  · rintro ⟨index, hbuild⟩
    have hindex := indexOf_of_build hbuild
    refine ⟨hindex.source_le, exists_scanLines_iff.mp ⟨_, scanLines_of_build hbuild⟩, ?_⟩
    rintro rfl lines hlines
    cases (scanLines_of_build hbuild).symm.trans hlines
    have hscans := hindex.markdown (mediaType_of_build .markdown hbuild)
    refine ⟨_, hscans.headingTexts hnone, ?_, ?_⟩
    · have hcount := hscans.count_le (Nat.zero_le _)
      rw [List.length_map]
      omega
    · exact List.forall_mem_map.mpr fun heading hmem => (hscans.text_bounds heading hmem).2.2
  · intro h
    obtain ⟨lines, hlines⟩ := exists_scanLines_iff.mpr h.lines
    have hof := linesOf_of_scanLines hdecoded hlines
    obtain ⟨headings, hheadings⟩ : ∃ headings,
        scanHeadings platform source lines kind = .ok headings := by
      cases kind with
      | plain => exact ⟨[], rfl⟩
      | markdown =>
        obtain ⟨texts, htexts, hcount, hshort⟩ := h.headings rfl lines hlines
        exact exists_scanHeadingsFrom (fun line hline => hof.decodes_content hline) hnone htexts
          (by simpa using hcount) hshort
    have hsize : decide (source.length > maxTextIndexBytes) = false :=
      decide_eq_false (Nat.not_lt.mpr h.bytes)
    have hbytes : assertBytes (.bytes source) = .ok source := rfl
    rw [buildArtifactTextIndex, hbytes, ok_bind, assertMediaType_name, ok_bind, hsize, failIf_false,
      ok_bind, decode_eq_ok.mpr hdecoded, ok_bind, hlines, ok_bind, hheadings, ok_bind]
    exact ⟨_, rfl⟩

end TextIndex
