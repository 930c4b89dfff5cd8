import Mathlib.Data.List.Nodup
import Mathlib.Data.List.Perm.Subperm
import SupabaseUserMcp.Inspection
import SupabaseUserMcp.Js.Digits
import SupabaseUserMcp.TextIndex.Lines
import SupabaseUserMcp.TextIndex.Recognisers

/- The headings of a source: what one step of their scan does, and their ids. An id is a
   slug cut to 128 units, or cut further for a numbered suffix, so suffixed ids of
   different headings may meet; the loop that looks for an unused one ends because the
   candidates with a suffix all differ in it. -/
namespace TextIndex

open Js

/-! The scan. -/

/-- The scan of the headings of some lines, from the ids in use and an open fence. -/
inductive ScansHeadings (platform : Platform) (source : Bytes) : List Text → Option Fence →
    List ArtifactTextLine → List ArtifactTextHeading → Prop
  | nil (ids : List Text) (fence : Option Fence) : ScansHeadings platform source ids fence [] []
  | closes {ids : List Text} {opening : Fence} {line : ArtifactTextLine}
      {rest : List ArtifactTextLine} {headings : List ArtifactTextHeading} {s : Text} :
      decodeUtf8 (line.content source) = some s → isClosingFence s opening = true →
      ScansHeadings platform source ids none rest headings →
      ScansHeadings platform source ids (some opening) (line :: rest) headings
  | inside {ids : List Text} {opening : Fence} {line : ArtifactTextLine}
      {rest : List ArtifactTextLine} {headings : List ArtifactTextHeading} {s : Text} :
      decodeUtf8 (line.content source) = some s → isClosingFence s opening = false →
      ScansHeadings platform source ids (some opening) rest headings →
      ScansHeadings platform source ids (some opening) (line :: rest) headings
  | opens {ids : List Text} {found : Fence} {line : ArtifactTextLine}
      {rest : List ArtifactTextLine} {headings : List ArtifactTextHeading} {s : Text} :
      decodeUtf8 (line.content source) = some s → parseFence s = some found →
      ScansHeadings platform source ids (some found) rest headings →
      ScansHeadings platform source ids none (line :: rest) headings
  | skips {ids : List Text} {line : ArtifactTextLine} {rest : List ArtifactTextLine}
      {headings : List ArtifactTextHeading} {s : Text} :
      decodeUtf8 (line.content source) = some s → parseFence s = none →
      parseAtxHeading s = .ok none → ScansHeadings platform source ids none rest headings →
      ScansHeadings platform source ids none (line :: rest) headings
  | heading {ids : List Text} {line : ArtifactTextLine} {rest : List ArtifactTextLine}
      {headings : List ArtifactTextHeading} {s rawText headingId : Text} {level : ℕ} :
      decodeUtf8 (line.content source) = some s → parseFence s = none →
      parseAtxHeading s = .ok (some (level, rawText)) →
      headingId = nextHeadingId (headingSlug (normalizedHeadingText platform rawText)) ids →
      ids.length + 1 ≤ maxTextIndexHeadings →
      ScansHeadings platform source (headingId :: ids) none rest headings →
      ScansHeadings platform source ids none (line :: rest)
        (⟨headingId, level, rawText, normalizedHeadingText platform rawText, line.lineNumber,
          line.byteStart, line.contentByteLength⟩ :: headings)

theorem decode_eq_ok {bytes : Bytes} {s : Text} :
    decode bytes = .ok s ↔ decodeUtf8 bytes = some s := by
  rw [decode]
  cases decodeUtf8 bytes with
  | none => simp [fail]
  | some t => simp

theorem scansHeadings_of_ok {platform : Platform} {source : Bytes} :
    ∀ {lines : List ArtifactTextLine} {ids : List Text} {fence : Option Fence}
      {headings : List ArtifactTextHeading},
      scanHeadingsFrom platform source ids fence lines = .ok headings →
      ScansHeadings platform source ids fence lines headings := by
  intro lines
  induction lines with
  | nil =>
    intro ids fence headings h
    cases h
    exact .nil ids fence
  | cons line rest ih =>
    intro ids fence headings h
    simp only [scanHeadingsFrom] at h
    obtain ⟨s, hs, h⟩ := bind_eq_ok.mp h
    have hs := decode_eq_ok.mp hs
    cases fence with
    | some opening =>
      cases hclosing : isClosingFence s opening with
      | true =>
        simp only [hclosing, if_true] at h
        exact .closes hs hclosing (ih h)
      | false =>
        simp only [hclosing] at h
        exact .inside hs hclosing (ih h)
    | none =>
      cases hfence : parseFence s with
      | some found =>
        rw [hfence] at h
        exact .opens hs hfence (ih h)
      | none =>
        rw [hfence] at h
        obtain ⟨parsed, hparsed, h⟩ := bind_eq_ok.mp h
        cases parsed with
        | none => exact .skips hs hfence hparsed (ih h)
        | some levelText =>
          obtain ⟨level, rawText⟩ := levelText
          obtain ⟨⟨⟩, hcount, h⟩ := bind_eq_ok.mp h
          obtain ⟨tail, htail, h⟩ := bind_eq_ok.mp h
          cases h
          have hcount : ids.length + 1 ≤ maxTextIndexHeadings := by simpa using hcount
          exact .heading hs hfence hparsed rfl hcount (ih htail)

/-- What the scan takes for a heading. -/
theorem parseAtxHeading_eq_some {s rawText : Text} {level : ℕ} :
    parseAtxHeading s = .ok (some (level, rawText)) ↔ ∃ rest, AtxLine s level rest ∧
      stripClosingHashes rest = rawText ∧ codePointCount rawText ≤ maxHeadingTextChars := by
  constructor
  · intro h
    rcases parseAtxHeading_cases s with ⟨level', rest, hline, heq⟩ | ⟨-, hnone⟩
    · rw [heq] at h
      obtain ⟨hcount, hresult⟩ := atxResult_eq_ok.mp h
      cases hresult
      exact ⟨rest, hline, rfl, hcount⟩
    · rw [hnone] at h
      cases h
  · intro h
    obtain ⟨rest, hline, rfl, hcount⟩ := h
    rw [parseAtxHeading_of_atxLine hline]
    exact atxResult_eq_ok.mpr ⟨hcount, rfl⟩

/-- Of more candidates than there are used ids, one is unused. -/
theorem exists_unused {α : Type} (used : List α) (f : ℕ → α) (k : ℕ)
    (hinj : ∀ m n, k ≤ m → k ≤ n → f m = f n → m = n) :
    ∃ n, k ≤ n ∧ n ≤ k + used.length ∧ f n ∉ used := by
  by_contra hall
  push Not at hall
  have hnodup : ((List.range' k (used.length + 1)).map f).Nodup := by
    refine List.Nodup.map_on ?_ List.nodup_range'
    intro m hm n hn hf
    exact hinj m n (List.mem_range'_1.mp hm).1 (List.mem_range'_1.mp hn).1 hf
  have hsubset : (List.range' k (used.length + 1)).map f ⊆ used := by
    intro a ha
    obtain ⟨n, hn, rfl⟩ := List.mem_map.mp ha
    obtain ⟨hlo, hhi⟩ := List.mem_range'_1.mp hn
    exact hall n hlo (by omega)
  have hle := (hnodup.subperm hsubset).length_le
  rw [List.length_map, List.length_range'] at hle
  omega

/-! Ids. -/

/-- The digits a candidate ends in are those of its suffix. -/
theorem digits_of_candidate (slug : Text) {n : ℕ} (hn : 2 ≤ n) :
    ((headingIdCandidate slug n).reverse.takeWhile isDigit).reverse = decimal n := by
  have hdigits : ∀ u ∈ (decimal n).reverse, isDigit u = true := by
    intro u hu
    exact isDigit_of_mem_decimal (List.mem_reverse.mp hu)
  rw [headingIdCandidate, if_neg (by omega), List.reverse_append, List.reverse_cons,
    List.append_assoc, List.takeWhile_append_of_pos hdigits]
  show ((decimal n).reverse ++ []).reverse = decimal n
  rw [List.append_nil, List.reverse_reverse]

theorem headingIdCandidate_inj (slug : Text) {m n : ℕ} (hm : 2 ≤ m) (hn : 2 ≤ n)
    (h : headingIdCandidate slug m = headingIdCandidate slug n) : m = n := by
  refine decimal_injective ?_
  rw [← digits_of_candidate slug hm, h, digits_of_candidate slug hn]

theorem nextHeadingIdFrom_first (slug : Text) (used : List Text) : ∀ fuel k, ∃ n, k ≤ n ∧
    n ≤ k + fuel ∧ nextHeadingIdFrom slug used fuel k = headingIdCandidate slug n ∧
    (∀ m, k ≤ m → m < n → headingIdCandidate slug m ∈ used) ∧
    (n < k + fuel → headingIdCandidate slug n ∉ used) := by
  intro fuel
  induction fuel with
  | zero =>
    intro k
    exact ⟨k, Nat.le_refl _, Nat.le_refl _, rfl, fun m hle hlt => by omega, fun hlt => by omega⟩
  | succ fuel ih =>
    intro k
    rw [nextHeadingIdFrom]
    split
    · next hused =>
      obtain ⟨n, hle, hbound, heq, hbefore, hunused⟩ := ih (k + 1)
      refine ⟨n, by omega, by omega, heq, ?_, fun hlt => hunused (by omega)⟩
      intro m hm hlt
      rcases Nat.eq_or_lt_of_le hm with rfl | hlater
      · exact List.contains_iff_mem.mp hused
      · exact hbefore m hlater hlt
    · next hunused =>
      refine ⟨k, Nat.le_refl _, by omega, rfl, fun m hle hlt => by omega, fun _ => ?_⟩
      intro hmem
      exact hunused (List.contains_iff_mem.mpr hmem)

/-- The loop ends at the first unused candidate. -/
theorem nextHeadingId_first (slug : Text) (used : List Text) :
    ∃ n, 1 ≤ n ∧ n ≤ used.length + 2 ∧ nextHeadingId slug used = headingIdCandidate slug n ∧
      (∀ m, 1 ≤ m → m < n → headingIdCandidate slug m ∈ used) ∧
      headingIdCandidate slug n ∉ used := by
  obtain ⟨n, hpos, hle, heq, hbefore, hunused⟩ :=
    nextHeadingIdFrom_first slug used (used.length + 1) 1
  refine ⟨n, hpos, by omega, heq, hbefore, ?_⟩
  rcases Nat.eq_or_lt_of_le hle with rfl | hlt
  · -- every earlier candidate is used, so the last one cannot be
    obtain ⟨k, hk, hbound, hfree⟩ := exists_unused used (headingIdCandidate slug) 2
      fun m n hm hn => headingIdCandidate_inj slug hm hn
    rcases Nat.eq_or_lt_of_le hbound with rfl | hearlier
    · rwa [show 1 + (used.length + 1) = 2 + used.length by omega]
    · exact absurd (hbefore k (by omega) (by omega)) hfree
  · exact hunused hlt

/-! The grammar of an id. -/

abbrev IsSlug (s : Text) : Prop := Schema.headTail isAlphanumeric Inspection.isOpaqueUnit s = true

theorem isSlug_append {s t : Text} (hs : IsSlug s) (ht : t.all Inspection.isOpaqueUnit = true) :
    IsSlug (s ++ t) := by
  cases s with
  | nil => cases hs
  | cons u us =>
    simp only [IsSlug, Schema.headTail, List.cons_append, List.all_append, Bool.and_eq_true] at hs ⊢
    exact ⟨hs.1, hs.2, ht⟩

theorem isSlug_take {s : Text} (hs : IsSlug s) {k : ℕ} (hk : 0 < k) : IsSlug (s.take k) := by
  cases s with
  | nil => cases hs
  | cons u us =>
    obtain ⟨k, rfl⟩ : ∃ j, k = j + 1 := ⟨k - 1, by omega⟩
    simp only [IsSlug, Schema.headTail, List.take_succ_cons, Bool.and_eq_true,
      List.all_eq_true] at hs ⊢
    exact ⟨hs.1, fun v hv => hs.2 v (List.mem_of_mem_take hv)⟩

theorem isOpaqueUnit_decimal (n : ℕ) : (decimal n).all Inspection.isOpaqueUnit = true := by
  rw [List.all_eq_true]
  intro u hu
  simp [Inspection.isOpaqueUnit, isAlphanumeric, isDigit_of_mem_decimal hu]

theorem isOpaqueUnit_of_isLowerHexDigit {u : UInt16} (h : isLowerHexDigit u = true) :
    Inspection.isOpaqueUnit u = true := by
  obtain ⟨n, hn, -, rfl⟩ := hexDigit_of_isLowerHexDigit h
  interval_cases n <;> decide

theorem isOpaqueUnit_hexadecimal (n : ℕ) : (hexadecimal n).all Inspection.isOpaqueUnit = true := by
  rw [List.all_eq_true]
  intro u hu
  obtain ⟨c, hc, rfl⟩ := List.mem_map.mp hu
  obtain ⟨d, hd, rfl⟩ := exists_digit_of_mem_toDigits (by decide) hc
  exact isOpaqueUnit_of_isLowerHexDigit (isLowerHexDigit_digitChar hd)

theorem isAlphanumeric_ofNat {code : ℕ}
    (h : 0x61 ≤ code ∧ code ≤ 0x7A ∨ 0x30 ≤ code ∧ code ≤ 0x39) :
    isAlphanumeric (UInt16.ofNat code) = true := by
  have key : ∀ n < 0x7B, 0x61 ≤ n ∧ n ≤ 0x7A ∨ 0x30 ≤ n ∧ n ≤ 0x39 →
      isAlphanumeric (UInt16.ofNat n) = true := by decide
  exact key code (by omega) h

/-- What a step adds to a slug begins as a slug does, but for a hyphen in between. -/
theorem isSlug_extend {slug token : Text} (separator : Bool) (hslug : slug = [] ∨ IsSlug slug)
    (htoken : IsSlug token) :
    IsSlug (slug ++ (if separator && slug.length > 0 then [0x2D] else []) ++ token) := by
  have htail : token.all Inspection.isOpaqueUnit = true := by
    cases token with
    | nil => cases htoken
    | cons u us =>
      simp only [IsSlug, Schema.headTail, Bool.and_eq_true] at htoken
      simp [Inspection.isOpaqueUnit, htoken.1, htoken.2]
  rcases hslug with rfl | hslug
  · simpa using htoken
  · rw [List.append_assoc]
    refine isSlug_append hslug ?_
    rw [List.all_append, htail, Bool.and_true]
    split
    · decide
    · rfl

theorem isSlug_step {state : Text × Bool} (code : ℕ) (h : state.1 = [] ∨ IsSlug state.1) :
    (headingSlugStep state code).1 = [] ∨ IsSlug (headingSlugStep state code).1 := by
  obtain ⟨slug, separator⟩ := state
  rw [headingSlugStep]
  split
  · next hplain =>
    right
    refine isSlug_extend separator h ?_
    simp only [IsSlug, Schema.headTail, List.all_nil, Bool.and_true]
    exact isAlphanumeric_ofNat (by simpa using hplain)
  · split
    · right
      have htoken : IsSlug (text "u--" ++ hexadecimal code ++ text "--") := by
        refine isSlug_append (isSlug_append (by decide) (isOpaqueUnit_hexadecimal code)) ?_
        decide
      simpa only [List.append_assoc] using isSlug_extend separator h htoken
    · exact h

theorem isSlug_headingSlug (normalizedText : Text) : IsSlug (headingSlug normalizedText) := by
  have hfold : ∀ (codes : List ℕ) (state : Text × Bool), (state.1 = [] ∨ IsSlug state.1) →
      (codes.foldl headingSlugStep state).1 = [] ∨ IsSlug (codes.foldl headingSlugStep state).1 := by
    intro codes
    induction codes with
    | nil =>
      intro state h
      exact h
    | cons code codes ih =>
      intro state h
      exact ih _ (isSlug_step code h)
  simp only [headingSlug]
  rcases hfold (codePoints normalizedText) ([], false) (.inl rfl) with hnil | hslug
  · rw [if_pos hnil]
    decide
  · rw [if_neg]
    · exact hslug
    · intro hnil
      rw [hnil] at hslug
      cases hslug

/-- An id the public schema accepts. -/
def IsHeadingId (headingId : Text) : Prop :=
  1 ≤ headingId.length ∧ headingId.length ≤ 128 ∧ IsSlug headingId

theorem IsHeadingId.accepted {headingId : Text} (h : IsHeadingId headingId) :
    Inspection.headingIdSchema (.string headingId) = some headingId := by
  obtain ⟨hpos, hle, hslug⟩ := h
  refine Schema.refine_of (Schema.refine_of rfl ?_) hslug
  rw [Bool.and_eq_true, decide_eq_true_eq, decide_eq_true_eq]
  exact ⟨hpos, hle⟩

theorem isHeadingId_candidate {slug : Text} (hslug : IsSlug slug) {n : ℕ} (hn : n < 10000) :
    IsHeadingId (headingIdCandidate slug n) := by
  have hpos : ∀ s, IsSlug s → 1 ≤ s.length := by
    intro s hs
    cases s with
    | nil => cases hs
    | cons u us => exact Nat.succ_pos _
  rw [headingIdCandidate]
  split
  · have htake := isSlug_take hslug (k := 128) (by decide)
    exact ⟨hpos _ htake, List.length_take_le _ _, htake⟩
  · have hdigits : (decimal n).length ≤ 4 := length_decimal_le (by decide) hn
    have hsuffix : (0x2D :: decimal n).length ≤ 5 := Nat.succ_le_succ hdigits
    have hcandidate : IsSlug (slug.take (128 - (0x2D :: decimal n).length) ++ 0x2D :: decimal n) := by
      refine isSlug_append (isSlug_take hslug (by omega)) ?_
      rw [List.all_cons, isOpaqueUnit_decimal, Bool.and_true]
      decide
    refine ⟨hpos _ hcandidate, ?_, hcandidate⟩
    rw [List.length_append, List.length_take]
    omega

theorem isHeadingId_nextHeadingId {slug : Text} (hslug : IsSlug slug) {used : List Text}
    (h : used.length + 1 ≤ maxTextIndexHeadings) : IsHeadingId (nextHeadingId slug used) := by
  obtain ⟨n, -, hle, heq, -⟩ := nextHeadingId_first slug used
  rw [heq]
  refine isHeadingId_candidate hslug ?_
  simp only [maxTextIndexHeadings] at h
  omega

theorem nextHeadingId_notMem (slug : Text) (used : List Text) : nextHeadingId slug used ∉ used := by
  obtain ⟨n, -, -, heq, -, hunused⟩ := nextHeadingId_first slug used
  rwa [heq]

/-! The ids of a source. -/

namespace ScansHeadings

variable {platform : Platform} {source : Bytes} {ids : List Text} {fence : Option Fence}
  {lines : List ArtifactTextLine} {headings : List ArtifactTextHeading}

/-- The scan gives every heading an id that none before it has. -/
theorem nodup (h : ScansHeadings platform source ids fence lines headings) :
    (headings.map ArtifactTextHeading.headingId).Nodup ∧
      ∀ heading ∈ headings, heading.headingId ∉ ids := by
  induction h with
  | nil ids fence => exact ⟨List.nodup_nil, by simp⟩
  | closes _ _ _ ih => exact ih
  | inside _ _ _ ih => exact ih
  | opens _ _ _ ih => exact ih
  | skips _ _ _ _ ih => exact ih
  | heading _ _ _ hid _ _ ih =>
    obtain ⟨hnodup, hfresh⟩ := ih
    refine ⟨List.nodup_cons.mpr ⟨?_, hnodup⟩, ?_⟩
    · intro hmem
      obtain ⟨later, hlater, heq⟩ := List.mem_map.mp hmem
      exact hfresh later hlater (List.mem_cons.mpr (.inl heq))
    · intro heading hmem
      rcases List.mem_cons.mp hmem with rfl | hlater
      · rw [hid]
        exact nextHeadingId_notMem _ _
      · exact fun hused => hfresh heading hlater (List.mem_cons_of_mem _ hused)

theorem isHeadingId (h : ScansHeadings platform source ids fence lines headings) :
    ∀ heading ∈ headings, IsHeadingId heading.headingId := by
  induction h with
  | nil ids fence => simp
  | closes _ _ _ ih => exact ih
  | inside _ _ _ ih => exact ih
  | opens _ _ _ ih => exact ih
  | skips _ _ _ _ ih => exact ih
  | heading _ _ _ hid hcount _ ih =>
    intro heading hmem
    rcases List.mem_cons.mp hmem with rfl | hlater
    · rw [hid]
      exact isHeadingId_nextHeadingId (isSlug_headingSlug _) hcount
    · exact ih heading hlater

/-- A heading is its own line. -/
theorem ownLine (h : ScansHeadings platform source ids fence lines headings) :
    ∀ heading ∈ headings, ∃ line ∈ lines, heading.lineNumber = line.lineNumber ∧
      heading.byteStart = line.byteStart ∧ heading.byteLength = line.contentByteLength := by
  induction h with
  | nil ids fence => simp
  | closes _ _ _ ih | inside _ _ _ ih | opens _ _ _ ih | skips _ _ _ _ ih =>
    intro heading hmem
    obtain ⟨line, hline, hown⟩ := ih heading hmem
    exact ⟨line, List.mem_cons_of_mem _ hline, hown⟩
  | heading _ _ _ _ _ _ ih =>
    intro heading hmem
    rcases List.mem_cons.mp hmem with rfl | hlater
    · exact ⟨_, List.mem_cons_self, rfl, rfl, rfl⟩
    · obtain ⟨line, hline, hown⟩ := ih heading hlater
      exact ⟨line, List.mem_cons_of_mem _ hline, hown⟩

theorem count_le (h : ScansHeadings platform source ids fence lines headings)
    (hids : ids.length ≤ maxTextIndexHeadings) :
    ids.length + headings.length ≤ maxTextIndexHeadings := by
  induction h with
  | nil ids fence => exact hids
  | closes _ _ _ ih => exact ih hids
  | inside _ _ _ ih => exact ih hids
  | opens _ _ _ ih => exact ih hids
  | skips _ _ _ _ ih => exact ih hids
  | heading _ _ _ _ hcount _ ih =>
    have hrest := ih hcount
    rw [List.length_cons] at hrest ⊢
    omega

theorem text_bounds (h : ScansHeadings platform source ids fence lines headings) :
    ∀ heading ∈ headings, 1 ≤ heading.level ∧ heading.level ≤ maxHeadingLevel ∧
      codePointCount heading.rawText ≤ maxHeadingTextChars := by
  induction h with
  | nil ids fence => simp
  | closes _ _ _ ih => exact ih
  | inside _ _ _ ih => exact ih
  | opens _ _ _ ih => exact ih
  | skips _ _ _ _ ih => exact ih
  | heading _ _ hparsed _ _ _ ih =>
    intro heading hmem
    rcases List.mem_cons.mp hmem with rfl | hlater
    · obtain ⟨rest, ⟨k, -, hpos, hle, -⟩, -, hcount⟩ := parseAtxHeading_eq_some.mp hparsed
      exact ⟨hpos, hle, hcount⟩
    · exact ih heading hlater

end ScansHeadings

end TextIndex
