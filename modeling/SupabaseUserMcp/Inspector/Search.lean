import SupabaseUserMcp.Inspector.Operations
import SupabaseUserMcp.Js.CodePoints
import SupabaseUserMcp.Js.Utf16
import SupabaseUserMcp.Search.Greedy

/- What an exact search returns. Its loop is the search from left to right that goes on
   behind each match, and the line cursor, which only moves forward, is at the line of
   each match in turn, for the lines tile the source. -/
namespace Inspector

open Js TextIndex Inspection
open Search (OccursAt IsFirst Greedy exists_greedy)

/-! Queries. -/

/-- The scan stops at the first surrogate without its other half. -/
theorem hasUnpairedSurrogate_eq_false {value : Text} :
    hasUnpairedSurrogate value = false ↔ ∀ i, ¬IsUnpairedAt value i := by
  fun_induction hasUnpairedSurrogate value with
  | case1 => simp [IsUnpairedAt]
  | case2 u =>
    rw [Bool.or_eq_false_iff]
    constructor
    · intro h
      exact isUtf16_iff.mp (.singleton h.1 h.2)
    · intro h
      exact ⟨Bool.eq_false_iff.mpr fun hu => h 0 (isUnpairedAt_high hu (by simp)),
        Bool.eq_false_iff.mpr fun hu => h 0 (isUnpairedAt_low hu)⟩
  | case3 u v rest hhigh ih =>
    cases hlow : isLowSurrogate v with
    | true => simpa [forall_not_isUnpairedAt_pair hhigh hlow] using ih
    | false =>
      have hunpaired : IsUnpairedAt (u :: v :: rest) 0 := by
        refine isUnpairedAt_high hhigh fun w hw => ?_
        obtain rfl : v = w := by simpa using hw
        exact hlow
      simp only [Bool.not_false, Bool.true_or, Bool.true_eq_false, false_iff, not_forall, not_not]
      exact ⟨0, hunpaired⟩
  | case4 u v rest hhigh ih =>
    have hhigh := Bool.eq_false_iff.mpr hhigh
    cases hlow : isLowSurrogate u with
    | true =>
      simp only [Bool.true_or, Bool.true_eq_false, false_iff, not_forall, not_not]
      exact ⟨0, isUnpairedAt_low hlow⟩
    | false => simpa [forall_not_isUnpairedAt_scalar hhigh hlow] using ih

/-- **A query has bytes when no surrogate of it is unpaired.** They are its UTF-8, so the
comparison with what they decode to never fails. -/
theorem encodeUnicodeScalarValueString_exact (value : Text) :
    (∀ bytes, encodeUnicodeScalarValueString value = some bytes ↔
      (∀ i, ¬IsUnpairedAt value i) ∧ bytes = encodeUtf8 value) ∧
    ((∀ i, ¬IsUnpairedAt value i) → decodeUtf8 (encodeUtf8 value) = some value ∧
      ∃ cs, value = utf16 cs ∧ encodeUtf8 value = cs.flatMap String.utf8EncodeChar) := by
  have hdecodes : (∀ i, ¬IsUnpairedAt value i) → decodeUtf8 (encodeUtf8 value) = some value :=
    fun h => (isUtf16_iff.mpr h).decodeUtf8_encodeUtf8
  refine ⟨fun bytes => ?_, fun h => ⟨hdecodes h, ?_⟩⟩
  · rw [encodeUnicodeScalarValueString]
    by_cases hpaired : ∀ i, ¬IsUnpairedAt value i
    · rw [if_neg (Bool.eq_false_iff.mp (hasUnpairedSurrogate_eq_false.mpr hpaired)),
        if_pos (hdecodes hpaired), Option.some.injEq, and_iff_right hpaired, eq_comm]
    · have hunpaired : hasUnpairedSurrogate value = true :=
        Bool.not_eq_false _ ▸ hasUnpairedSurrogate_eq_false.not.mpr hpaired
      simp [hunpaired, hpaired]
  · obtain ⟨cs, rfl⟩ := isUtf16_iff.mpr h
    exact ⟨cs, rfl, by rw [encodeUtf8, scalars_utf16]⟩

-- a byte order mark is kept
example : encodeUnicodeScalarValueString (text "\uFEFFa") = some [0xEF, 0xBB, 0xBF, 0x61] := by
  decide

/-! Lines. -/

/-- The byte at `offset` is of the line's content or of its newline. -/
def Contains (line : ArtifactTextLine) (offset : ℕ) : Prop :=
  line.byteStart ≤ offset ∧ offset < line.stop

/-- `number` is that of the line that has the byte at `offset`. -/
def IsLineOf (lines : List ArtifactTextLine) (offset number : ℕ) : Prop :=
  (∃ line ∈ lines, Contains line offset ∧ line.lineNumber = number) ∧
    ∀ line ∈ lines, Contains line offset → line.lineNumber = number

/-- A byte is of one line. -/
theorem eq_of_contains {offset : ℕ} : ∀ {lines : List ArtifactTextLine} {start stop : ℕ}
    {line other : ArtifactTextLine}, Tiles start lines stop → line ∈ lines → other ∈ lines →
    Contains line offset → Contains other offset → line = other := by
  intro lines
  induction lines with
  | nil =>
    intro start stop line other _ hline
    cases hline
  | cons first rest ih =>
    intro start stop line other htiles hline hother hin hin'
    have hbehind : ∀ later ∈ rest, Contains later offset → first.stop ≤ offset := by
      intro later hlater hlaterIn
      obtain ⟨i, hi⟩ := List.mem_iff_getElem?.mp hlater
      have hbounds := htiles.2.2.bounds hi
      have hstarts := hlaterIn.1
      omega
    rcases List.mem_cons.mp hline with rfl | hlater
    · rcases List.mem_cons.mp hother with rfl | hlater
      · rfl
      · have hstop := hbehind other hlater hin'
        have hlt := hin.2
        omega
    · rcases List.mem_cons.mp hother with rfl | hlater'
      · have hstop := hbehind line hlater hin
        have hlt := hin'.2
        omega
      · exact ih htiles.2.2 hlater hlater' hin hin'

/-- The cursor stops at the line of the match. -/
theorem contains_advanceLine {offset stop : ℕ} : ∀ {rest : List ArtifactTextLine}
    {line : ArtifactTextLine} {start : ℕ} (lineIndex : ℕ), Tiles start (line :: rest) stop →
    start ≤ offset → offset < stop →
    ∃ m found, advanceLine offset lineIndex rest = lineIndex + m ∧ (line :: rest)[m]? = some found ∧
      Contains found offset := by
  intro rest
  induction rest with
  | nil =>
    intro line start lineIndex htiles hstart hstop
    obtain ⟨hline, -, hend⟩ := htiles
    refine ⟨0, line, rfl, rfl, ?_, ?_⟩
    · omega
    · exact hstop.trans_eq hend.symm
  | cons next rest ih =>
    intro line start lineIndex htiles hstart hstop
    obtain ⟨hline, -, hrest⟩ := htiles
    have hnext := hrest.1
    rw [advanceLine]
    split
    · next hbefore =>
      obtain ⟨m, found, hadvance, hfound, hcontains⟩ :=
        ih (lineIndex + 1) hrest (hnext ▸ hbefore) hstop
      refine ⟨m + 1, found, ?_, hfound, hcontains⟩
      rw [hadvance]
      omega
    · next hbehind =>
      refine ⟨0, line, rfl, rfl, ?_, ?_⟩
      · omega
      · omega

/-- What is left of the lines tiles what is left of the source. -/
theorem tiles_drop {stop : ℕ} : ∀ {lines : List ArtifactTextLine} {start lineIndex : ℕ}
    {line : ArtifactTextLine}, Tiles start lines stop → lines[lineIndex]? = some line →
    lines.drop lineIndex = line :: lines.drop (lineIndex + 1) ∧
      Tiles line.byteStart (lines.drop lineIndex) stop := by
  intro lines
  induction lines with
  | nil =>
    intro start lineIndex line _ hline
    cases hline
  | cons first rest ih =>
    intro start lineIndex line htiles hline
    cases lineIndex with
    | zero =>
      obtain rfl := Option.some.inj hline
      exact ⟨rfl, htiles.1 ▸ htiles⟩
    | succ lineIndex => exact ih htiles.2.2 hline

/-! Matches. -/

theorem indexOf_isFirst {source query : Bytes} {start k : ℕ}
    (h : indexOf source query start = some k) : IsFirst query source start k := by
  obtain ⟨hoccurs, hmem, hleast⟩ := List.find?_range'_eq_some.mp h
  refine ⟨(List.mem_range'_1.mp hmem).1, List.isPrefixOf_iff_prefix.mp hoccurs, fun j hj hlt hocc => ?_⟩
  have hnot := hleast j hj hlt
  rw [List.isPrefixOf_iff_prefix.mpr hocc] at hnot
  cases hnot

theorem indexOf_eq_none {source query : Bytes} (hne : query ≠ []) {start : ℕ}
    (h : indexOf source query start = none) : ∀ k, start ≤ k → ¬ OccursAt query source k := by
  intro k hk hocc
  have hinside := hocc.inside hne
  have hnot := List.find?_range'_eq_none.mp h k hk (by omega)
  rw [List.isPrefixOf_iff_prefix.mpr hocc] at hnot
  cases hnot

/-- What a search from `start` for `remaining` hits finds. -/
structure Found (source queryBytes : Bytes) (lines : List ArtifactTextLine) (remaining start : ℕ)
    (hits : List ArtifactSearchHit) (occurrences : List ℕ) : Prop where
  greedy : Greedy queryBytes source start occurrences
  ranges : hits.map ArtifactSearchHit.matchRange =
    (occurrences.take remaining).map (fun k => ⟨k, queryBytes.length⟩)
  occurs : ∀ hit ∈ hits, OccursAt queryBytes source hit.matchRange.offset
  lengths : ∀ hit ∈ hits, hit.matchRange.length = queryBytes.length
  contained : ∀ hit ∈ hits, ∃ line ∈ lines, Contains line hit.matchRange.offset ∧
    line.lineNumber = hit.lineNumber

theorem Found.empty {source queryBytes : Bytes} {lines : List ArtifactTextLine}
    {remaining start : ℕ} {occurrences : List ℕ} (h : Greedy queryBytes source start occurrences)
    (hempty : occurrences.take remaining = []) :
    Found source queryBytes lines remaining start [] occurrences := by
  refine ⟨h, ?_, by simp, by simp, by simp⟩
  rw [hempty]
  rfl

/-- The loop, from where both cursors stand. -/
theorem searchHits_from (platform : Platform) {source queryBytes : Bytes} (query : Text)
    {lines : List ArtifactTextLine} (htiles : Tiles 0 lines source.length)
    (hne : queryBytes ≠ []) : ∀ remaining {searchOffset lineIndex : ℕ} {line : ArtifactTextLine},
    lines[lineIndex]? = some line → line.byteStart ≤ searchOffset →
    ∃ hits occurrences, searchHits platform source queryBytes query lines remaining searchOffset
        lineIndex = .ok hits ∧
      Found source queryBytes lines remaining searchOffset hits occurrences := by
  intro remaining
  induction remaining with
  | zero =>
    intro searchOffset lineIndex line _ _
    obtain ⟨occurrences, hgreedy⟩ : ∃ ks, Greedy queryBytes source searchOffset ks :=
      exists_greedy hne searchOffset
    exact ⟨[], occurrences, rfl, .empty hgreedy rfl⟩
  | succ remaining ih =>
    intro searchOffset lineIndex line hline hbefore
    rw [searchHits]
    split
    · cases hmatch : indexOf source queryBytes searchOffset with
      | none => exact ⟨[], [], rfl, .empty (.done (indexOf_eq_none hne hmatch)) rfl⟩
      | some k =>
        have hfirst := indexOf_isFirst hmatch
        have hinside := hfirst.occurs.inside hne
        have hpos := List.length_pos_iff.mpr hne
        have hstart := hfirst.from_start
        obtain ⟨hdrop, hleft⟩ := tiles_drop htiles hline
        rw [hdrop] at hleft
        obtain ⟨m, found, hadvance, hfound, hcontains⟩ :=
          contains_advanceLine lineIndex hleft (hbefore.trans hstart) (by omega)
        have hindexed : lines[lineIndex + m]? = some found := by
          rw [← List.getElem?_drop, hdrop, hfound]
        obtain ⟨hits, occurrences, hhits, hrest⟩ :=
          ih hindexed (hcontains.1.trans (Nat.le_add_right k queryBytes.length))
        simp only [hadvance, hindexed, definedAt_some, ok_bind, hhits]
        refine ⟨_, k :: occurrences, rfl, .next hfirst hrest.greedy, ?_, ?_, ?_, ?_⟩
        · rw [List.map_cons, hrest.ranges, List.take_succ_cons, List.map_cons]
        · exact List.forall_mem_cons.mpr ⟨hfirst.occurs, hrest.occurs⟩
        · exact List.forall_mem_cons.mpr ⟨rfl, hrest.lengths⟩
        · refine List.forall_mem_cons.mpr ⟨⟨found, ?_, hcontains, rfl⟩, hrest.contained⟩
          exact List.mem_of_getElem? hindexed
    · next hroom =>
      refine ⟨[], [], rfl, .empty (.done fun k hk hocc => ?_) rfl⟩
      have hinside := hocc.inside hne
      omega

/-- The loop, from the beginning. A source without lines is empty. -/
theorem searchHits_found (platform : Platform) {source queryBytes : Bytes} (query : Text)
    {lines : List ArtifactTextLine} (hlines : scanLines source = .ok lines)
    (hne : queryBytes ≠ []) (maxHits : ℕ) : ∃ hits occurrences,
      searchHits platform source queryBytes query lines maxHits 0 0 = .ok hits ∧
      Found source queryBytes lines maxHits 0 hits occurrences := by
  have htiles := scanLines_tiles hlines
  cases lines with
  | cons line rest => exact searchHits_from platform query htiles hne maxHits rfl htiles.1.le
  | nil =>
    obtain rfl := List.length_eq_zero_iff.mp htiles.symm
    have hpos := List.length_pos_iff.mpr hne
    have hnowhere : ∀ k, 0 ≤ k → ¬ OccursAt queryBytes [] k := by
      intro k _ hocc
      have hinside := hocc.inside hne
      simp only [List.length_nil] at hinside
      omega
    refine ⟨[], [], ?_, .empty (.done hnowhere) List.take_nil⟩
    cases maxHits with
    | zero => rfl
    | succ remaining => rw [searchHits, if_neg (by simp only [List.length_nil]; omega)]

/-- **The hits of a search are the first of its greedy occurrences.** -/
theorem searchHits_greedy (platform : Platform) {source queryBytes : Bytes} {s query : Text}
    {lines : List ArtifactTextLine} (hsource : decodeUtf8 source = some s)
    (hlines : scanLines source = .ok lines)
    (hquery : encodeUnicodeScalarValueString query = some queryBytes) (hne : queryBytes ≠ [])
    (maxHits : ℕ) :
    ∃ hits occurrences,
      searchHits platform source queryBytes query lines maxHits 0 0 = .ok hits ∧
      (∀ ks, Greedy queryBytes source 0 ks ↔ ks = occurrences) ∧
      hits.map ArtifactSearchHit.matchRange =
        (occurrences.take maxHits).map (fun k => ⟨k, queryBytes.length⟩) ∧
      ∀ hit ∈ hits, IsLineOf lines hit.matchRange.offset hit.lineNumber ∧
        IsCodePointBoundary source hit.matchRange.offset ∧
        IsCodePointBoundary source (hit.matchRange.offset + hit.matchRange.length) := by
  have hdecoded := decodeUtf8_of_encodeUnicodeScalarValueString hquery
  obtain ⟨hits, occurrences, hhits, hfound⟩ := searchHits_found platform query hlines hne maxHits
  refine ⟨hits, occurrences, hhits, fun ks => ?_, hfound.ranges, fun hit hmem => ?_⟩
  · constructor
    · intro h
      exact h.unique hfound.greedy
    · intro h
      rw [h]
      exact hfound.greedy
  · obtain ⟨line, hline, hcontains, hnumber⟩ := hfound.contained hit hmem
    obtain ⟨hbegins, hends⟩ :=
      isCodePointBoundary_of_prefix hsource hdecoded hne (hfound.occurs hit hmem)
    refine ⟨⟨⟨line, hline, hcontains, hnumber⟩, fun other hother hin => ?_⟩, hbegins, ?_⟩
    · rw [eq_of_contains (scanLines_tiles hlines) hother hline hin hcontains, hnumber]
    · rw [hfound.lengths hit hmem]
      exact hends

/-- A query that overlaps itself, in two lines. -/
theorem searchHits_greedy_overlapping : ∃ hits occurrences,
    searchHits asciiPlatform [0x61, 0x61, 0x61, 0x0A, 0x61, 0x61] [0x61, 0x61] (text "aa")
        [⟨1, 0, 3, 1, .lf⟩, ⟨2, 4, 2, 0, .none⟩] 5 0 0 = .ok hits ∧
      (∀ ks, Greedy [0x61, 0x61] ([0x61, 0x61, 0x61, 0x0A, 0x61, 0x61] : Bytes) 0 ks ↔
        ks = occurrences) ∧
      hits.map ArtifactSearchHit.matchRange = (occurrences.take 5).map (fun k => ⟨k, 2⟩) := by
  have hsource : decodeUtf8 [0x61, 0x61, 0x61, 0x0A, 0x61, 0x61] = some (text "aaa\naa") := by
    decide
  have hlines : scanLines [0x61, 0x61, 0x61, 0x0A, 0x61, 0x61] =
      .ok [⟨1, 0, 3, 1, .lf⟩, ⟨2, 4, 2, 0, .none⟩] := by decide
  have hquery : encodeUnicodeScalarValueString (text "aa") = some [0x61, 0x61] := by decide
  obtain ⟨hits, occurrences, hhits, hgreedy, hranges, -⟩ :=
    searchHits_greedy asciiPlatform hsource hlines hquery (by decide) 5
  exact ⟨hits, occurrences, hhits, hgreedy, hranges⟩

end Inspector
