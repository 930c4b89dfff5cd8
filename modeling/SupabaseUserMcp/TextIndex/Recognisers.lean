import Mathlib.Data.List.TakeWhile
import SupabaseUserMcp.TextIndex.Reads

/- What the recognisers of a line accept, written as the shape of the line: indentation,
   a run of one mark, and what may follow it. -/
namespace TextIndex

open Js

/-! Runs. -/

theorem run_append {a : UInt16} {t : Text} (n : ℕ) (h : t.head? ≠ some a) :
    (List.replicate n a ++ t).takeWhile (· == a) = List.replicate n a := by
  rw [List.takeWhile_append_of_pos]
  · have hnil : t.takeWhile (· == a) = [] := by
      cases t with
      | nil => rfl
      | cons u us =>
        rw [List.takeWhile_cons_of_neg]
        intro hu
        exact h (congrArg some (beq_iff_eq.mp hu))
    rw [hnil, List.append_nil]
  · intro u hu
    exact beq_iff_eq.mpr (List.eq_of_mem_replicate hu)

theorem drop_run (n : ℕ) (a : UInt16) (t : Text) : (List.replicate n a ++ t).drop n = t :=
  List.drop_left' List.length_replicate

theorem exists_run (a : UInt16) (s : Text) : ∃ n t, (s.takeWhile (· == a)).length = n ∧
    s = List.replicate n a ++ t ∧ t.head? ≠ some a := by
  refine ⟨_, s.dropWhile (· == a), rfl, ?_, ?_⟩
  · have hrun : List.replicate (s.takeWhile (· == a)).length a = s.takeWhile (· == a) := by
      symm
      rw [List.eq_replicate_iff]
      refine ⟨rfl, fun u hu => ?_⟩
      have hmark := List.mem_takeWhile_imp hu
      exact beq_iff_eq.mp hmark
    rw [hrun, List.takeWhile_append_dropWhile]
  · intro hhead
    have hnot := List.head?_dropWhile_not (fun u => u == a) s
    rw [hhead] at hnot
    simp at hnot

/-- Every line is its indentation and what follows. -/
theorem exists_indent (s : Text) : ∃ k t, s = List.replicate k 0x20 ++ t ∧ t.head? ≠ some 0x20 := by
  obtain ⟨k, t, -, hs, hhead⟩ := exists_run 0x20 s
  exact ⟨k, t, hs, hhead⟩

theorem countLeadingSpaces_indent {k : ℕ} {t : Text} (h : t.head? ≠ some 0x20) :
    countLeadingSpaces (List.replicate k 0x20 ++ t) = k := by
  rw [countLeadingSpaces, run_append k h, List.length_replicate]

theorem head?_replicate_append {n : ℕ} (a : UInt16) (t : Text) (h : 0 < n) :
    (List.replicate n a ++ t).head? = some a := by
  obtain ⟨n, rfl⟩ : ∃ m, n = m + 1 := ⟨n - 1, by omega⟩
  rfl

/-! Fences. -/

/-- A line that opens a fence. -/
structure OpensFence (s : Text) (found : Fence) : Prop where
  marker : found.marker = backtick ∨ found.marker = tilde
  length : 3 ≤ found.length
  shape : ∃ k rest, k ≤ 3 ∧ rest.head? ≠ some found.marker ∧
    s = List.replicate k 0x20 ++ (List.replicate found.length found.marker ++ rest)

/-- A fence as the recogniser returns it. -/
def Fence.IsOpening (opening : Fence) : Prop :=
  (opening.marker = backtick ∨ opening.marker = tilde) ∧ 3 ≤ opening.length

theorem OpensFence.isOpening {s : Text} {found : Fence} (h : OpensFence s found) :
    found.IsOpening := ⟨h.marker, h.length⟩

/-- A line that closes a fence. -/
def ClosesFence (s : Text) (opening : Fence) : Prop :=
  ∃ k n blanks, k ≤ 3 ∧ opening.length ≤ n ∧ (∀ u ∈ blanks, u = 0x20 ∨ u = 0x09) ∧
    s = List.replicate k 0x20 ++ (List.replicate n opening.marker ++ blanks)

theorem marker_ne {m : UInt16} (h : m = backtick ∨ m = tilde) : m ≠ 0x20 ∧ m ≠ 0x09 := by
  rcases h with rfl | rfl
  · decide
  · decide

/-- The recogniser, on a line whose indentation is written out. -/
theorem parseFence_indent {k : ℕ} {t : Text} (h : t.head? ≠ some 0x20) :
    parseFence (List.replicate k 0x20 ++ t) =
      if k > 3 then none
      else t.head?.bind fun marker =>
        if marker != backtick && marker != tilde then none
        else if (t.takeWhile (· == marker)).length ≥ 3 then
          some ⟨marker, (t.takeWhile (· == marker)).length⟩
        else none := by
  simp only [parseFence, countLeadingSpaces_indent h, drop_run]
  split
  · rfl
  · cases t.head? <;> rfl

theorem parseFence_eq_some {s : Text} {found : Fence} :
    parseFence s = some found ↔ OpensFence s found := by
  constructor
  · intro h
    obtain ⟨k, t, rfl, hspace⟩ := exists_indent s
    rw [parseFence_indent hspace] at h
    split at h
    · cases h
    · next hindent =>
      obtain ⟨marker, -, h⟩ := Option.bind_eq_some_iff.mp h
      obtain ⟨n, rest, hrun, hrest, hhead⟩ := exists_run marker t
      rw [hrun] at h
      split at h
      · cases h
      · next hkind =>
        split at h
        · next hlength =>
          cases h
          refine ⟨?_, hlength, k, rest, Nat.le_of_not_gt hindent, hhead, ?_⟩
          · by_contra hneither
            push Not at hneither
            simp [hneither.1, hneither.2] at hkind
          · rw [← hrest]
        · cases h
  · intro h
    obtain ⟨hmarker, hlength, k, rest, hindent, hhead, rfl⟩ := h
    have hstart := head?_replicate_append found.marker rest (show 0 < found.length by omega)
    have hspace : (List.replicate found.length found.marker ++ rest).head? ≠ some 0x20 := by
      rw [hstart]
      exact fun heq => (marker_ne hmarker).1 (Option.some.inj heq)
    rw [parseFence_indent hspace, if_neg (Nat.not_lt.mpr hindent), hstart, Option.bind_some,
      run_append _ hhead, List.length_replicate, if_neg, if_pos hlength]
    rcases hmarker with heq | heq
    · simp [heq]
    · simp [heq]

theorem isClosingFence_iff {s : Text} {opening : Fence}
    (hmarker : opening.marker = backtick ∨ opening.marker = tilde) (hlength : 3 ≤ opening.length) :
    isClosingFence s opening = true ↔ ClosesFence s opening := by
  have hne := marker_ne hmarker
  constructor
  · intro h
    obtain ⟨k, t, rfl, hspace⟩ := exists_indent s
    obtain ⟨n, blanks, hrun, rfl, hhead⟩ := exists_run opening.marker t
    have hblanks : (List.replicate k 0x20 ++ (List.replicate n opening.marker ++ blanks)).drop
        (k + n) = blanks := by
      rw [← List.drop_drop, drop_run, drop_run]
    simp only [isClosingFence, countLeadingSpaces_indent hspace, drop_run, hrun, hblanks] at h
    split at h
    · cases h
    · next hindent =>
      rw [Bool.or_eq_true, decide_eq_true_eq, not_or] at hindent
      split at h
      · cases h
      · next hshort =>
        refine ⟨k, n, blanks, Nat.le_of_not_gt hindent.1, Nat.le_of_not_lt hshort, ?_, rfl⟩
        intro u hu
        rw [List.all_eq_true] at h
        simpa using h u hu
  · intro h
    obtain ⟨k, n, blanks, hindent, hle, hblank, rfl⟩ := h
    have hstart := head?_replicate_append opening.marker blanks (show 0 < n by omega)
    have hspace : (List.replicate n opening.marker ++ blanks).head? ≠ some 0x20 := by
      rw [hstart]
      exact fun heq => hne.1 (Option.some.inj heq)
    have hhead : blanks.head? ≠ some opening.marker := by
      intro hhead
      rcases hblank _ (List.mem_of_head? hhead) with heq | heq
      · exact hne.1 heq
      · exact hne.2 heq
    have hrest : (List.replicate k 0x20 ++ (List.replicate n opening.marker ++ blanks)).drop
        (k + n) = blanks := by
      rw [← List.drop_drop, drop_run, drop_run]
    simp only [isClosingFence, countLeadingSpaces_indent hspace, drop_run, hstart,
      run_append n hhead, List.length_replicate, hrest]
    rw [if_neg (by simp; omega), if_neg (by omega), List.all_eq_true]
    intro u hu
    simpa using hblank u hu

/-! Headings. -/

/-- A line of at most three spaces, one to six hashes, and a space before `rest`. -/
def AtxLine (s : Text) (level : ℕ) (rest : Text) : Prop :=
  ∃ k, k ≤ 3 ∧ 1 ≤ level ∧ level ≤ maxHeadingLevel ∧
    s = List.replicate k 0x20 ++ (List.replicate level hash ++ 0x20 :: rest)

/-- What an accepted heading line gives, or that its text is too long. -/
def atxResult (level : ℕ) (rest : Text) : Checked (Option (ℕ × Text)) := do
  failIf (codePointCount (stripClosingHashes rest) > maxHeadingTextChars) .responseLimitExceeded
    "Heading text exceeds the profile heading-text bound."
  return some (level, stripClosingHashes rest)

theorem parseAtxHeading_of_atxLine {s rest : Text} {level : ℕ} (h : AtxLine s level rest) :
    parseAtxHeading s = atxResult level rest := by
  obtain ⟨k, hindent, hpos, hle, rfl⟩ := h
  have hstart := head?_replicate_append hash (0x20 :: rest) hpos
  have hspace : (List.replicate level hash ++ 0x20 :: rest).head? ≠ some 0x20 := by
    rw [hstart]
    decide
  have hrun : (List.replicate level hash ++ 0x20 :: rest).takeWhile (· == hash) =
      List.replicate level hash := run_append level (by simp [hash])
  have hlevel : min level (maxHeadingLevel + 1) = level := by omega
  have hafter : (List.replicate k 0x20 ++ (List.replicate level hash ++ 0x20 :: rest)).drop
      (k + level) = 0x20 :: rest := by
    rw [← List.drop_drop, drop_run, drop_run]
  simp only [parseAtxHeading, countLeadingSpaces_indent hspace, drop_run, hrun,
    List.length_replicate, hlevel, hafter]
  rw [if_neg (Nat.not_lt.mpr hindent), if_neg (by simp; omega), ← List.drop_drop, hafter]
  rfl

theorem atxLine_of_parseAtxHeading {s : Text} (h : parseAtxHeading s ≠ .ok none) :
    ∃ level rest, AtxLine s level rest := by
  obtain ⟨k, t, rfl, hspace⟩ := exists_indent s
  obtain ⟨n, u, hrun, rfl, hhead⟩ := exists_run hash t
  simp only [parseAtxHeading, countLeadingSpaces_indent hspace, drop_run, hrun] at h
  split at h
  · exact absurd rfl h
  · next hindent =>
    split at h
    · exact absurd rfl h
    · next hmarks =>
      simp only [Bool.or_eq_true, decide_eq_true_eq, not_or, bne_iff_ne, ne_eq,
        Decidable.not_not] at hmarks
      obtain ⟨⟨hpos, hle⟩, hafter⟩ := hmarks
      have hlevel : min n (maxHeadingLevel + 1) = n := by omega
      rw [hlevel, ← List.drop_drop, drop_run, drop_run] at hafter
      cases u with
      | nil => cases hafter
      | cons v rest =>
        obtain rfl := Option.some.inj hafter
        exact ⟨n, rest, k, by omega, by omega, by omega, rfl⟩

/-- A line is an ATX line, or the recogniser passes over it. -/
theorem parseAtxHeading_cases (s : Text) :
    (∃ level rest, AtxLine s level rest ∧ parseAtxHeading s = atxResult level rest) ∨
      (∀ level rest, ¬ AtxLine s level rest) ∧ parseAtxHeading s = .ok none := by
  by_cases hatx : ∃ level rest, AtxLine s level rest
  · obtain ⟨level, rest, hline⟩ := hatx
    exact .inl ⟨level, rest, hline, parseAtxHeading_of_atxLine hline⟩
  · right
    refine ⟨fun level rest hline => hatx ⟨level, rest, hline⟩, ?_⟩
    by_contra hsome
    exact hatx (atxLine_of_parseAtxHeading hsome)

theorem atxResult_eq_ok {level : ℕ} {rest : Text} {result : Option (ℕ × Text)} :
    atxResult level rest = .ok result ↔
      codePointCount (stripClosingHashes rest) ≤ maxHeadingTextChars ∧
        result = some (level, stripClosingHashes rest) := by
  simp only [atxResult, bind_eq_ok, failIf_eq_ok, exists_const, pure_eq_ok, Except.ok.injEq,
    decide_eq_false_iff_not, Nat.not_lt, gt_iff_lt]
  exact and_congr_right fun _ => eq_comm

/-! Closing hashes. -/

section DropEnd

variable (p : UInt16 → Bool)

/-- What is left of a text when the units that satisfy `p` are cut off its end. -/
theorem dropEnd_append {a b : Text} (ha : a.getLast?.any p = false) (hb : ∀ u ∈ b, p u = true) :
    ((a ++ b).reverse.dropWhile p).reverse = a := by
  rw [List.reverse_append, List.dropWhile_append_of_pos]
  · rw [← List.head?_reverse] at ha
    cases hrev : a.reverse with
    | nil => rw [List.dropWhile_nil, ← hrev, List.reverse_reverse]
    | cons u us =>
      rw [hrev] at ha
      rw [List.dropWhile_cons_of_neg (by simpa using ha), ← hrev, List.reverse_reverse]
  · intro u hu
    exact hb u (List.mem_reverse.mp hu)

theorem exists_dropEnd (s : Text) : ∃ a b, (s.reverse.dropWhile p).reverse = a ∧ s = a ++ b ∧
    a.getLast?.any p = false ∧ ∀ u ∈ b, p u = true := by
  refine ⟨_, (s.reverse.takeWhile p).reverse, rfl, ?_, ?_, ?_⟩
  · rw [← List.reverse_append, List.takeWhile_append_dropWhile, List.reverse_reverse]
  · rw [List.getLast?_reverse]
    have hnot := List.head?_dropWhile_not p s.reverse
    cases hhead : (s.reverse.dropWhile p).head? with
    | none => rfl
    | some u =>
      rw [hhead] at hnot
      simpa using hnot
  · intro u hu
    exact List.mem_takeWhile_imp (List.mem_reverse.mp hu)

end DropEnd

/-- `rest` is `rawText`, then whitespace, a run of hashes, and perhaps whitespace. -/
def ClosedBy (rest rawText : Text) : Prop :=
  ∃ gap hashes blank, rest = rawText ++ gap ++ hashes ++ blank ∧ gap ≠ [] ∧ hashes ≠ [] ∧
    (∀ u ∈ gap, isWhitespace u = true) ∧ (∀ u ∈ hashes, u = hash) ∧
    (∀ u ∈ blank, isWhitespace u = true) ∧ rawText.getLast?.any isWhitespace = false

theorem any_getLast?_of_forall {p : UInt16 → Bool} {b : Bool} {s t : Text} (hne : t ≠ [])
    (h : ∀ u ∈ t, p u = b) : (s ++ t).getLast?.any p = b := by
  rw [List.getLast?_append_of_ne_nil _ hne, List.getLast?_eq_some_getLast hne]
  exact h _ (List.getLast_mem hne)

theorem isWhitespace_hash : isWhitespace hash = false := by decide

/-- A run of closing hashes goes, with the whitespace around it. -/
theorem stripClosingHashes_of_closedBy {rest rawText : Text} (h : ClosedBy rest rawText) :
    stripClosingHashes rest = rawText := by
  obtain ⟨gap, hashes, blank, rfl, hgap, hhashes, hspace, hmark, hblank, hlast⟩ := h
  have hbody : trimEnd (rawText ++ gap ++ hashes ++ blank) = rawText ++ gap ++ hashes := by
    refine dropEnd_append isWhitespace ?_ hblank
    refine any_getLast?_of_forall hhashes fun u hu => ?_
    rw [hmark u hu]
    exact isWhitespace_hash
  have hspaceNot : ∀ u ∈ gap, (u == hash) = false := by
    intro u hu
    rw [beq_eq_false_iff_ne]
    rintro rfl
    have hwhite := hspace hash hu
    rw [isWhitespace_hash] at hwhite
    cases hwhite
  have hunmarked : ((rawText ++ gap ++ hashes).reverse.dropWhile (· == hash)).reverse =
      rawText ++ gap :=
    dropEnd_append _ (any_getLast?_of_forall hgap hspaceNot) fun u hu => beq_iff_eq.mpr (hmark u hu)
  have hshorter : (rawText ++ gap).length < (rawText ++ gap ++ hashes).length := by
    rw [@List.length_append _ (rawText ++ gap)]
    exact Nat.lt_add_of_pos_right (List.length_pos_iff.mpr hhashes)
  simp only [stripClosingHashes, hbody, hunmarked]
  rw [decide_eq_true hshorter, any_getLast?_of_forall hgap hspace, Bool.and_true, if_pos rfl]
  exact dropEnd_append isWhitespace hlast hspace

/-- And nothing else does. -/
theorem stripClosingHashes_cases (rest : Text) :
    ClosedBy rest (stripClosingHashes rest) ∨
      stripClosingHashes rest = rest ∧ ∀ rawText, ¬ ClosedBy rest rawText := by
  by_cases hclosed : ∃ rawText, ClosedBy rest rawText
  · obtain ⟨rawText, hraw⟩ := hclosed
    left
    rwa [stripClosingHashes_of_closedBy hraw]
  right
  refine ⟨?_, fun rawText hraw => hclosed ⟨rawText, hraw⟩⟩
  obtain ⟨body, blank, hbody, hrest, -, hblank⟩ := exists_dropEnd isWhitespace rest
  obtain ⟨unmarked, hashes, hunmarked, hmarks, -, hmark⟩ := exists_dropEnd (· == hash) body
  obtain ⟨rawText, gap, -, hgap, hlast, hspace⟩ := exists_dropEnd isWhitespace unmarked
  simp only [stripClosingHashes, trimEnd, hbody, hunmarked]
  split
  · next hboth =>
    -- the run and the gap that the branch saw close the heading
    rw [Bool.and_eq_true, decide_eq_true_eq] at hboth
    refine absurd ⟨rawText, gap, hashes, blank, ?_, ?_, ?_, hspace,
      fun u hu => beq_iff_eq.mp (hmark u hu), hblank, hlast⟩ hclosed
    · rw [← hgap, ← hmarks, ← hrest]
    · rintro rfl
      rw [List.append_nil] at hgap
      rw [hgap, hlast] at hboth
      cases hboth.2
    · rintro rfl
      rw [List.append_nil] at hmarks
      rw [hmarks] at hboth
      exact absurd hboth.1 (Nat.lt_irrefl _)
  · rfl

end TextIndex
