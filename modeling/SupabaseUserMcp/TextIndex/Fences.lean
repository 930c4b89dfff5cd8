import SupabaseUserMcp.TextIndex.Selection

/- The headings of a Markdown source against the fenced spans of its lines. A span runs
   from the first opening line outside any other to the first line that closes it, or to
   the end; the headings are the ATX lines outside all spans. -/
namespace TextIndex

open Js

/-! Spans. -/

/-- No line from `i` up to `j` opens a fence. -/
def NoOpener (texts : List Text) (i j : ℕ) : Prop :=
  ∀ k s, i ≤ k → k < j → texts[k]? = some s → ∀ found, ¬ OpensFence s found

/-- No line from `i` up to `j` closes the fence. -/
def NoCloser (texts : List Text) (opening : Fence) (i j : ℕ) : Prop :=
  ∀ k s, i ≤ k → k < j → texts[k]? = some s → ¬ ClosesFence s opening

/-- The fenced spans of the lines from `i` on, each by its first and its last line. -/
inductive FencedSpans (texts : List Text) : ℕ → List (ℕ × ℕ) → Prop
  | none {i : ℕ} : NoOpener texts i texts.length → FencedSpans texts i []
  | closed {i first last : ℕ} {opener closer : Text} {opening : Fence} {spans : List (ℕ × ℕ)} :
      i ≤ first → NoOpener texts i first → texts[first]? = some opener →
      OpensFence opener opening → first < last → NoCloser texts opening (first + 1) last →
      texts[last]? = some closer → ClosesFence closer opening →
      FencedSpans texts (last + 1) spans → FencedSpans texts i ((first, last) :: spans)
  | unclosed {i first : ℕ} {opener : Text} {opening : Fence} :
      i ≤ first → NoOpener texts i first → texts[first]? = some opener →
      OpensFence opener opening → NoCloser texts opening (first + 1) texts.length →
      FencedSpans texts i [(first, texts.length - 1)]

/-- The line is of a span, its opening and its closing line included. -/
def Fenced (spans : List (ℕ × ℕ)) (i : ℕ) : Prop := ∃ span ∈ spans, span.1 ≤ i ∧ i ≤ span.2

/-- A line that is a heading of the profile. -/
def IsHeadingLine (texts : List Text) (spans : List (ℕ × ℕ)) (i : ℕ) : Prop :=
  ¬ Fenced spans i ∧ ∃ s level rest, texts[i]? = some s ∧ AtxLine s level rest

/-- The heading that the profile gives a line. -/
def DescribesHeading (texts : List Text) (lines : List ArtifactTextLine) (i : ℕ)
    (heading : ArtifactTextHeading) : Prop :=
  ∃ line s rest, lines[i]? = some line ∧ texts[i]? = some s ∧ AtxLine s heading.level rest ∧
    heading.lineNumber = line.lineNumber ∧ heading.byteStart = line.byteStart ∧
    heading.byteLength = line.contentByteLength ∧
    (ClosedBy rest heading.rawText ∨ heading.rawText = rest ∧ ∀ rawText, ¬ ClosedBy rest rawText)

/-- The headings, in order, are those of the heading lines from `i` on. -/
def HeadingsFrom (texts : List Text) (lines : List ArtifactTextLine) (spans : List (ℕ × ℕ))
    (i : ℕ) (headings : List ArtifactTextHeading) : Prop :=
  ∃ indices : List ℕ, indices.Pairwise (· < ·) ∧
    (∀ j, j ∈ indices ↔ i ≤ j ∧ IsHeadingLine texts spans j) ∧
    List.Forall₂ (DescribesHeading texts lines) indices headings

section Spans

variable {texts : List Text} {lines : List ArtifactTextLine} {spans : List (ℕ × ℕ)}
  {headings : List ArtifactTextHeading} {i : ℕ} {s : Text}

theorem FencedSpans.le_first (h : FencedSpans texts i spans) : ∀ span ∈ spans, i ≤ span.1 := by
  induction h with
  | none _ => simp
  | closed hle _ _ _ hlt _ _ _ _ ih =>
    intro span hmem
    rcases List.mem_cons.mp hmem with rfl | hlater
    · exact hle
    · have hfirst := ih span hlater
      omega
  | unclosed hle _ _ _ _ =>
    intro span hmem
    rw [List.mem_singleton.mp hmem]
    exact hle

/-- A line before the spans is not fenced. -/
theorem FencedSpans.not_fenced (h : FencedSpans texts (i + 1) spans) : ¬ Fenced spans i := by
  intro hfenced
  obtain ⟨span, hmem, hle, -⟩ := hfenced
  have hfirst := h.le_first span hmem
  omega

theorem NoOpener.cons {j : ℕ} (hs : texts[i]? = some s) (hopens : ∀ found, ¬ OpensFence s found)
    (h : NoOpener texts (i + 1) j) : NoOpener texts i j := by
  intro k t hle hlt ht
  rcases Nat.eq_or_lt_of_le hle with rfl | hlater
  · rw [hs] at ht
    cases ht
    exact hopens
  · exact h k t hlater hlt ht

theorem NoCloser.cons {j : ℕ} {opening : Fence} (hs : texts[i]? = some s)
    (hcloses : ¬ ClosesFence s opening) (h : NoCloser texts opening (i + 1) j) :
    NoCloser texts opening i j := by
  intro k t hle hlt ht
  rcases Nat.eq_or_lt_of_le hle with rfl | hlater
  · rw [hs] at ht
    cases ht
    exact hcloses
  · exact h k t hlater hlt ht

/-- A line that opens no fence may precede the lines of the spans. -/
theorem FencedSpans.cons (hs : texts[i]? = some s) (hopens : ∀ found, ¬ OpensFence s found)
    (h : FencedSpans texts (i + 1) spans) : FencedSpans texts i spans := by
  cases h with
  | none hnone => exact .none (hnone.cons hs hopens)
  | closed hle hnone hopener hopening hlt hopen hcloser hcloses hrest =>
    exact .closed (by omega) (hnone.cons hs hopens) hopener hopening hlt hopen hcloser hcloses hrest
  | unclosed hle hnone hopener hopening hopen =>
    exact .unclosed (by omega) (hnone.cons hs hopens) hopener hopening hopen

theorem OpensFence.unique {found other : Fence} (h : OpensFence s found)
    (h' : OpensFence s other) : found = other := by
  have heq := parseFence_eq_some.mpr h
  rw [parseFence_eq_some.mpr h'] at heq
  exact (Option.some.inj heq).symm

/-- The opening line of a span is the first that there is. -/
theorem first_unique {first other : ℕ} {opener opener' : Text} {opening opening' : Fence}
    (hle : i ≤ first) (hnone : NoOpener texts i first) (hopener : texts[first]? = some opener)
    (hopens : OpensFence opener opening) (hle' : i ≤ other) (hnone' : NoOpener texts i other)
    (hopener' : texts[other]? = some opener') (hopens' : OpensFence opener' opening') :
    first = other ∧ opening = opening' := by
  rcases Nat.lt_trichotomy first other with hlt | rfl | hlt
  · exact absurd hopens (hnone' first opener hle hlt hopener opening)
  · rw [hopener] at hopener'
    cases hopener'
    exact ⟨rfl, hopens.unique hopens'⟩
  · exact absurd hopens' (hnone other opener' hle' hlt hopener' opening')

/-- The spans are determined. -/
theorem FencedSpans.unique (h : FencedSpans texts i spans) :
    ∀ {others : List (ℕ × ℕ)}, FencedSpans texts i others → spans = others := by
  induction h with
  | none hnone =>
    intro others hothers
    cases hothers with
    | none _ => rfl
    | closed hle _ hopener hopens _ _ _ _ _ =>
      obtain ⟨hlt, -⟩ := List.getElem?_eq_some_iff.mp hopener
      exact absurd hopens (hnone _ _ hle hlt hopener _)
    | unclosed hle _ hopener hopens _ =>
      obtain ⟨hlt, -⟩ := List.getElem?_eq_some_iff.mp hopener
      exact absurd hopens (hnone _ _ hle hlt hopener _)
  | @closed i first last _ _ _ _ hle hnone hopener hopens hlt hopen hcloser hcloses _ ih =>
    intro others hothers
    cases hothers with
    | none hnone' =>
      obtain ⟨hinside, -⟩ := List.getElem?_eq_some_iff.mp hopener
      exact absurd hopens (hnone' _ _ hle hinside hopener _)
    | @closed _ _ other _ _ _ _ hle' hnone' hopener' hopens' hlt' hopen' hcloser' hcloses' hrest' =>
      obtain ⟨rfl, rfl⟩ := first_unique hle hnone hopener hopens hle' hnone' hopener' hopens'
      rcases Nat.lt_trichotomy last other with hearlier | rfl | hlater
      · exact absurd hcloses (hopen' _ _ hlt hearlier hcloser)
      · rw [ih hrest']
      · exact absurd hcloses' (hopen _ _ hlt' hlater hcloser')
    | unclosed hle' hnone' hopener' hopens' hopen' =>
      obtain ⟨rfl, rfl⟩ := first_unique hle hnone hopener hopens hle' hnone' hopener' hopens'
      obtain ⟨hinside, -⟩ := List.getElem?_eq_some_iff.mp hcloser
      exact absurd hcloses (hopen' _ _ hlt hinside hcloser)
  | unclosed hle hnone hopener hopens hopen =>
    intro others hothers
    cases hothers with
    | none hnone' =>
      obtain ⟨hinside, -⟩ := List.getElem?_eq_some_iff.mp hopener
      exact absurd hopens (hnone' _ _ hle hinside hopener _)
    | closed hle' hnone' hopener' hopens' hlt' hopen' hcloser' hcloses' hrest' =>
      obtain ⟨rfl, rfl⟩ := first_unique hle hnone hopener hopens hle' hnone' hopener' hopens'
      obtain ⟨hinside, -⟩ := List.getElem?_eq_some_iff.mp hcloser'
      exact absurd hcloses' (hopen _ _ hlt' hinside hcloser')
    | unclosed hle' hnone' hopener' hopens' _ =>
      obtain ⟨rfl, rfl⟩ := first_unique hle hnone hopener hopens hle' hnone' hopener' hopens'
      rfl

/-! What the headings from a line on are. -/

namespace HeadingsFrom

theorem nil (h : ∀ j, i ≤ j → ¬ IsHeadingLine texts spans j) :
    HeadingsFrom texts lines spans i [] := by
  refine ⟨[], List.Pairwise.nil, fun j => ?_, .nil⟩
  constructor
  · intro hmem
    cases hmem
  · intro hline
    exact absurd hline.2 (h j hline.1)

theorem skip (hline : ¬ IsHeadingLine texts spans i)
    (h : HeadingsFrom texts lines spans (i + 1) headings) :
    HeadingsFrom texts lines spans i headings := by
  obtain ⟨indices, hsorted, hmem, hdescribes⟩ := h
  refine ⟨indices, hsorted, fun j => ?_, hdescribes⟩
  rw [hmem]
  constructor
  · intro hj
    exact ⟨by omega, hj.2⟩
  · intro hj
    rcases Nat.eq_or_lt_of_le hj.1 with rfl | hlater
    · exact absurd hj.2 hline
    · exact ⟨hlater, hj.2⟩

theorem cons {heading : ArtifactTextHeading} (hline : IsHeadingLine texts spans i)
    (hdescribes : DescribesHeading texts lines i heading)
    (h : HeadingsFrom texts lines spans (i + 1) headings) :
    HeadingsFrom texts lines spans i (heading :: headings) := by
  obtain ⟨indices, hsorted, hmem, hall⟩ := h
  refine ⟨i :: indices, List.pairwise_cons.mpr ⟨?_, hsorted⟩, fun j => ?_, .cons hdescribes hall⟩
  · intro j hj
    exact ((hmem j).mp hj).1
  · rw [List.mem_cons, hmem]
    constructor
    · rintro (rfl | hj)
      · exact ⟨Nat.le_refl _, hline⟩
      · exact ⟨by omega, hj.2⟩
    · intro hj
      rcases Nat.eq_or_lt_of_le hj.1 with rfl | hlater
      · exact .inl rfl
      · exact .inr ⟨hlater, hj.2⟩

/-- Behind a closed span the other spans decide. -/
theorem span {last : ℕ} (hlast : i ≤ last)
    (h : HeadingsFrom texts lines spans (last + 1) headings) :
    HeadingsFrom texts lines ((i, last) :: spans) i headings := by
  obtain ⟨indices, hsorted, hmem, hall⟩ := h
  refine ⟨indices, hsorted, fun j => ?_, hall⟩
  rw [hmem]
  constructor
  · intro hj
    obtain ⟨hle, hnot, hatx⟩ := hj
    refine ⟨by omega, ?_, hatx⟩
    intro hfenced
    obtain ⟨span, hspan, hbounds⟩ := hfenced
    rcases List.mem_cons.mp hspan with rfl | hlater
    · exact absurd hbounds.2 (Nat.not_le.mpr hle)
    · exact hnot ⟨span, hlater, hbounds⟩
  · intro hj
    obtain ⟨hle, hnot, hatx⟩ := hj
    refine ⟨?_, fun hfenced => ?_, hatx⟩
    · by_contra hinside
      exact hnot ⟨(i, last), List.mem_cons_self, hle, by omega⟩
    · obtain ⟨span, hspan, hbounds⟩ := hfenced
      exact hnot ⟨span, List.mem_cons_of_mem _ hspan, hbounds⟩

/-- A span that nothing closes leaves no heading behind its opener. -/
theorem unclosed : HeadingsFrom texts lines [(i, texts.length - 1)] i [] := by
  refine nil fun j hle hline => ?_
  obtain ⟨hnot, s, level, rest, hs, -⟩ := hline
  obtain ⟨hlt, -⟩ := List.getElem?_eq_some_iff.mp hs
  exact hnot ⟨_, List.mem_cons_self, hle, by omega⟩

end HeadingsFrom

end Spans

/-! The scan against the spans. -/

/-- What a scan that stands at line `i` finds: spans and headings, and first, in an open
fence, the line that closes it or the end. -/
def ScansFrom (texts : List Text) (lines : List ArtifactTextLine) (i : ℕ)
    (headings : List ArtifactTextHeading) : Option Fence → Prop
  | none => ∃ spans, FencedSpans texts i spans ∧ HeadingsFrom texts lines spans i headings
  | some opening => opening.IsOpening →
    (∃ last closer spans, i ≤ last ∧ NoCloser texts opening i last ∧ texts[last]? = some closer ∧
      ClosesFence closer opening ∧ FencedSpans texts (last + 1) spans ∧
      HeadingsFrom texts lines spans (last + 1) headings) ∨
    NoCloser texts opening i texts.length ∧ headings = []

theorem lineTexts_getElem? {source : Bytes} {lines : List ArtifactTextLine} {i : ℕ}
    {line : ArtifactTextLine} {s : Text} (hline : lines[i]? = some line)
    (hs : decodeUtf8 (line.content source) = some s) :
    (lineTexts source lines)[i]? = some s := by
  rw [lineTexts, List.getElem?_map, hline, Option.map_some, hs, Option.getD_some]

/-- One case a constructor of the scan: each line moves it by one. -/
theorem scansFrom {platform : Platform} {source : Bytes} {lines : List ArtifactTextLine}
    {ids : List Text} {fence : Option Fence} {rest : List ArtifactTextLine}
    {headings : List ArtifactTextHeading}
    (h : ScansHeadings platform source ids fence rest headings) : ∀ i, lines.drop i = rest →
    ScansFrom (lineTexts source lines) lines i headings fence := by
  have hlength : (lineTexts source lines).length = lines.length := List.length_map _
  have hhead : ∀ {i : ℕ} {line : ArtifactTextLine} {rest : List ArtifactTextLine},
      lines.drop i = line :: rest → lines[i]? = some line ∧ lines.drop (i + 1) = rest := by
    intro i line rest hdrop
    have hfirst := congrArg List.head? hdrop
    rw [List.head?_drop] at hfirst
    refine ⟨hfirst, ?_⟩
    rw [← List.tail_drop, hdrop]
    rfl
  induction h with
  | nil ids fence =>
    intro i hdrop
    have hend : lines.length ≤ i := List.drop_eq_nil_iff.mp hdrop
    have hnone : ∀ k, i ≤ k → (lineTexts source lines)[k]? = none := by
      intro k hk
      exact List.getElem?_eq_none (by omega)
    cases fence with
    | none =>
      refine ⟨[], .none fun k s hle hlt => by omega, .nil fun j hle hline => ?_⟩
      obtain ⟨-, s, level, rest, hs, -⟩ := hline
      rw [hnone j hle] at hs
      cases hs
    | some opening => exact fun _ => .inr ⟨fun k s hle hlt => by omega, rfl⟩
  | closes hs hclosing _ ih =>
    intro i hdrop hopening
    obtain ⟨hline, hrest⟩ := hhead hdrop
    obtain ⟨spans, hspans, hheadings⟩ := ih (i + 1) hrest
    exact .inl ⟨i, _, spans, Nat.le_refl _, fun k s hle hlt => by omega,
      lineTexts_getElem? hline hs, (isClosingFence_iff hopening.1 hopening.2).mp hclosing, hspans,
      hheadings⟩
  | inside hs hclosing _ ih =>
    intro i hdrop hopening
    obtain ⟨hline, hrest⟩ := hhead hdrop
    have htext := lineTexts_getElem? hline hs
    have hopen : ¬ ClosesFence _ _ := fun hcloses => by
      rw [(isClosingFence_iff hopening.1 hopening.2).mpr hcloses] at hclosing
      cases hclosing
    rcases ih (i + 1) hrest hopening with
      ⟨last, closer, spans, hle, hnone, hcloser, hfound⟩ | ⟨hnone, hempty⟩
    · exact .inl ⟨last, closer, spans, by omega, hnone.cons htext hopen, hcloser, hfound⟩
    · exact .inr ⟨hnone.cons htext hopen, hempty⟩
  | opens hs hfence _ ih =>
    intro i hdrop
    obtain ⟨hline, hrest⟩ := hhead hdrop
    have htext := lineTexts_getElem? hline hs
    have hopens := parseFence_eq_some.mp hfence
    have hbefore : NoOpener (lineTexts source lines) i i := fun k s hle hlt => by omega
    rcases ih (i + 1) hrest ⟨hopens.marker, hopens.length⟩ with
      ⟨last, closer, spans, hle, hnone, hcloser, hcloses, hspans, hheadings⟩ | ⟨hnone, rfl⟩
    · exact ⟨(i, last) :: spans, .closed (Nat.le_refl _) hbefore htext hopens hle hnone hcloser
        hcloses hspans, hheadings.span (by omega)⟩
    · exact ⟨_, .unclosed (Nat.le_refl _) hbefore htext hopens hnone, .unclosed⟩
  | skips hs hfence hatx _ ih =>
    intro i hdrop
    obtain ⟨hline, hrest⟩ := hhead hdrop
    have htext := lineTexts_getElem? hline hs
    obtain ⟨spans, hspans, hheadings⟩ := ih (i + 1) hrest
    refine ⟨spans, hspans.cons htext fun found hopens => ?_, hheadings.skip fun hheading => ?_⟩
    · rw [parseFence_eq_some.mpr hopens] at hfence
      cases hfence
    · obtain ⟨-, t, level, rest, ht, hline⟩ := hheading
      rw [htext] at ht
      cases ht
      rw [parseAtxHeading_of_atxLine hline] at hatx
      obtain ⟨-, hsome⟩ := atxResult_eq_ok.mp hatx
      cases hsome
  | heading hs hfence hatx _ _ _ ih =>
    intro i hdrop
    obtain ⟨hline, hrest⟩ := hhead hdrop
    have htext := lineTexts_getElem? hline hs
    obtain ⟨spans, hspans, hheadings⟩ := ih (i + 1) hrest
    obtain ⟨rest, hshape, rfl, -⟩ := parseAtxHeading_eq_some.mp hatx
    refine ⟨spans, hspans.cons htext fun found hopens => ?_, hheadings.cons ?_ ?_⟩
    · rw [parseFence_eq_some.mpr hopens] at hfence
      cases hfence
    · exact ⟨hspans.not_fenced, _, _, rest, htext, hshape⟩
    · exact ⟨_, _, rest, hline, htext, hshape, rfl, rfl, rfl, stripClosingHashes_cases rest⟩

/-- A heading that was read is one of the index. -/
theorem exists_heading_of_read {platform : Platform} {source : Bytes} {mediaType : Value}
    {index : ArtifactTextIndex}
    (hbuild : buildArtifactTextIndex platform (.bytes source) mediaType = .ok index)
    {headingId : Value} {read : IndexedTextRead}
    (h : readIndexedHeading platform (.bytes source) index.toValue headingId = .ok read) :
    ∃ heading ∈ index.headings, decodeUtf8 (subarray source heading.byteStart
      (heading.byteStart + heading.byteLength)) = some read.text := by
  cases headingId with
  | string headingId =>
    obtain ⟨heading, hfound, hs⟩ := readIndexedHeading_eq_ok (indexes_of_build hbuild) h
    exact ⟨heading, List.mem_of_find?_eq_some hfound, hs⟩
  | _ =>
    obtain ⟨bytes, -, h⟩ := bind_eq_ok.mp h
    obtain ⟨checked, -, h⟩ := bind_eq_ok.mp h
    cases h

/-- The headings of a Markdown source are the ATX lines outside its fenced spans, no id reads
a line inside one, and plain text has no headings. -/
theorem headings_outside_fences {platform : Platform} {source : Bytes} {index : ArtifactTextIndex}
    (hbuild : buildArtifactTextIndex platform (.bytes source) (.string (text "text/markdown")) =
      .ok index) :
    (∀ line ∈ index.lines, ∃ s, decodeUtf8 (line.content source) = some s) ∧
    (∃ spans, FencedSpans (lineTexts source index.lines) 0 spans ∧
      (∀ others, FencedSpans (lineTexts source index.lines) 0 others → others = spans) ∧
      HeadingsFrom (lineTexts source index.lines) index.lines spans 0 index.headings ∧
      ∀ headingId read,
        readIndexedHeading platform (.bytes source) index.toValue headingId = .ok read →
        ∃ i line, index.lines[i]? = some line ∧ ¬ Fenced spans i ∧
          decodeUtf8 (line.content source) = some read.text) ∧
    ∀ bytes plain, buildArtifactTextIndex platform bytes (.string (text "text/plain")) = .ok plain →
      plain.headings = [] := by
  have hindex := indexOf_of_build hbuild
  have hmedia : index.mediaType = .markdown := mediaType_of_build .markdown hbuild
  obtain ⟨spans, hspans, hheadings⟩ := scansFrom (hindex.markdown hmedia) 0 rfl
  refine ⟨fun line => hindex.lines.decodes_content,
    ⟨spans, hspans, fun others hothers => (hspans.unique hothers).symm, hheadings, ?_⟩, ?_⟩
  · intro headingId read hread
    obtain ⟨heading, hmem, hs⟩ := exists_heading_of_read hbuild hread
    obtain ⟨indices, -, hlines, hall⟩ := hheadings
    obtain ⟨i, hi, line, s, rest, hline, -, -, -, hstart, hlength, -⟩ :=
      exists_of_forall₂_right hall hmem
    rw [hstart, hlength] at hs
    exact ⟨i, line, hline, ((hlines i).mp hi).2.1, hs⟩
  · intro bytes plain hplain
    cases bytes with
    | bytes bytes =>
      exact (indexOf_of_build hplain).plain (mediaType_of_build .plain hplain)
    | _ => cases hplain

theorem headings_outside_fences_note : ∃ spans,
    FencedSpans (lineTexts fencedNote fencedNoteIndex.lines) 0 spans ∧
      HeadingsFrom (lineTexts fencedNote fencedNoteIndex.lines) fencedNoteIndex.lines spans 0
        fencedNoteIndex.headings := by
  obtain ⟨-, ⟨spans, hspans, -, hheadings, -⟩, -⟩ := headings_outside_fences build_fencedNote
  exact ⟨spans, hspans, hheadings⟩

end TextIndex
