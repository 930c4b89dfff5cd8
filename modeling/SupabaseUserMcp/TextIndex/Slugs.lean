import Mathlib.Data.List.Chain
import Mathlib.Data.List.DropRight
import SupabaseUserMcp.Js.Digits
import SupabaseUserMcp.Js.Utf16
import SupabaseUserMcp.TextIndex

/- What a slug tells of the text it was made of. A text is read as tokens, a run of
   separators being one of them, and a slug spells them one after the other. The hyphen
   spells a separator and also stands twice at either side of an escaped code point, but
   two separators are never neighbours, so that a `u` before two hyphens is no letter and
   what is spelled can be read back. -/
namespace TextIndex

open Js

/-! Tokens. -/

def IsLetterOrDigit (code : ℕ) : Prop :=
  0x30 ≤ code ∧ code ≤ 0x39 ∨ 0x41 ≤ code ∧ code ≤ 0x5A ∨ 0x61 ≤ code ∧ code ≤ 0x7A

instance (code : ℕ) : Decidable (IsLetterOrDigit code) := by
  unfold IsLetterOrDigit
  infer_instance

inductive HeadingToken where
  | separator
  | character (code : ℕ) (h : IsLetterOrDigit code)
  | nonAscii (code : ℕ)
  deriving DecidableEq

def headingToken (code : ℕ) : HeadingToken :=
  if h : IsLetterOrDigit code then .character code h
  else if code > 0x7F then .nonAscii code
  else .separator

def isSeparator (token : HeadingToken) : Bool := token == .separator

/-- Every maximal run of separators as one. -/
def separatorRuns : List HeadingToken → List HeadingToken
  | [] => []
  | [token] => [token]
  | token :: token' :: rest =>
    if isSeparator token && isSeparator token' then separatorRuns (token' :: rest)
    else token :: separatorRuns (token' :: rest)

/-- The tokens of some code points, with leading and trailing separators dropped. -/
def tokensOf (codes : List ℕ) : List HeadingToken :=
  (separatorRuns ((codes.map headingToken).dropWhile isSeparator)).rdropWhile isSeparator

def headingTokens (s : Text) : List HeadingToken := tokensOf (codePoints s)

/-! Spelling. -/

def HeadingToken.spelling : HeadingToken → Text
  | separator => [0x2D]
  | character code _ => [UInt16.ofNat code]
  | nonAscii code => text "u--" ++ hexadecimal code ++ text "--"

def spelled (tokens : List HeadingToken) : Text := tokens.flatMap HeadingToken.spelling

@[simp] theorem spelled_cons (token : HeadingToken) (tokens : List HeadingToken) :
    spelled (token :: tokens) = token.spelling ++ spelled tokens := rfl

/-! No two separators are neighbours. -/

def Neighbours (token token' : HeadingToken) : Prop :=
  ¬ (isSeparator token = true ∧ isSeparator token' = true)

theorem head_separatorRuns : ∀ (tokens : List HeadingToken),
    (separatorRuns tokens).head? = tokens.head? := by
  intro tokens
  fun_induction separatorRuns tokens with
  | case1 => rfl
  | case2 token => rfl
  | case3 token token' rest hboth ih =>
    simp only [Bool.and_eq_true, isSeparator, beq_iff_eq] at hboth
    rw [ih, List.head?_cons, List.head?_cons, hboth.1, hboth.2]
  | case4 token token' rest hone ih => rfl

theorem isChain_separatorRuns (tokens : List HeadingToken) :
    (separatorRuns tokens).IsChain Neighbours := by
  fun_induction separatorRuns tokens with
  | case1 => exact List.IsChain.nil
  | case2 token => exact List.IsChain.singleton token
  | case3 token token' rest hboth ih => exact ih
  | case4 token token' rest hone ih =>
    refine List.isChain_cons.mpr ⟨fun next hnext => ?_, ih⟩
    rw [head_separatorRuns, List.head?_cons, Option.mem_some_iff] at hnext
    subst hnext
    exact fun hboth => hone (by rw [hboth.1, hboth.2, Bool.and_self])

theorem isChain_tokensOf (codes : List ℕ) : (tokensOf codes).IsChain Neighbours := by
  obtain ⟨last, hlast⟩ := List.rdropWhile_prefix isSeparator
    (separatorRuns ((codes.map headingToken).dropWhile isSeparator))
  have hall := isChain_separatorRuns ((codes.map headingToken).dropWhile isSeparator)
  rw [← hlast] at hall
  exact hall.left_of_append

/-! Reading back. -/

theorem ofNat_ne_hyphen {code : ℕ} (h : IsLetterOrDigit code) : UInt16.ofNat code ≠ 0x2D := by
  have key : ∀ n < 0x7B, IsLetterOrDigit n → UInt16.ofNat n ≠ 0x2D := by decide
  exact key code (by rw [IsLetterOrDigit] at h; omega) h

theorem ofNat_inj_of_letters {code code' : ℕ} (h : IsLetterOrDigit code)
    (h' : IsLetterOrDigit code') (heq : UInt16.ofNat code = UInt16.ofNat code') : code = code' := by
  have htoNat := congrArg UInt16.toNat heq
  rw [IsLetterOrDigit] at h h'
  rw [UInt16.toNat_ofNat', UInt16.toNat_ofNat'] at htoNat
  omega

theorem hexadecimal_injective : Function.Injective hexadecimal :=
  Function.LeftInverse.injective hexadecimalValue_toDigits

theorem ne_hyphen_of_mem_hexadecimal {n : ℕ} {u : UInt16} (h : u ∈ hexadecimal n) : u ≠ 0x2D := by
  obtain ⟨c, hc, rfl⟩ := List.mem_map.mp h
  obtain ⟨d, hd, rfl⟩ := exists_digit_of_mem_toDigits (by decide) hc
  have hdigit := isLowerHexDigit_digitChar hd
  intro hhyphen
  rw [hhyphen] at hdigit
  exact absurd hdigit (by decide)

/-- The digits of an escape end where the hyphens begin. -/
theorem hexadecimal_append_inj {n m : ℕ} {s t : Text}
    (h : hexadecimal n ++ 0x2D :: s = hexadecimal m ++ 0x2D :: t) : n = m ∧ s = t := by
  have hdigits : ∀ (n : ℕ) (s : Text),
      (hexadecimal n ++ 0x2D :: s).takeWhile (· != 0x2D) = hexadecimal n := by
    intro n s
    rw [List.takeWhile_append_of_pos fun u hu => by simpa using ne_hyphen_of_mem_hexadecimal hu]
    simp
  have hsame : hexadecimal n = hexadecimal m := by
    rw [← hdigits n s, h, hdigits]
  obtain rfl := hexadecimal_injective hsame
  exact ⟨rfl, (List.cons.inj (List.append_cancel_left h)).2⟩

theorem spelling_nonAscii (code : ℕ) (s : Text) : (HeadingToken.nonAscii code).spelling ++ s =
    0x75 :: 0x2D :: 0x2D :: (hexadecimal code ++ 0x2D :: 0x2D :: s) := by
  have hopen : text "u--" = [0x75, 0x2D, 0x2D] := by decide
  have hclose : text "--" = [0x2D, 0x2D] := by decide
  simp [HeadingToken.spelling, hopen, hclose]

/-- What follows a token begins with no two hyphens. -/
theorem not_twoHyphens {tokens : List HeadingToken} (h : tokens.IsChain Neighbours) {s : Text} :
    spelled tokens ≠ 0x2D :: 0x2D :: s := by
  intro hspelled
  match tokens, h with
  | [], _ => cases hspelled
  | .character code hcode :: _, _ => exact ofNat_ne_hyphen hcode (List.cons.inj hspelled).1
  | .nonAscii code :: rest, _ =>
    rw [spelled_cons, spelling_nonAscii] at hspelled
    exact absurd (List.cons.inj hspelled).1 (by decide)
  | .separator :: rest, h =>
    have hrest : spelled rest = 0x2D :: s := (List.cons.inj hspelled).2
    match rest, h with
    | [], _ => cases hrest
    | .separator :: _, h => exact (List.isChain_cons_cons.mp h).1 ⟨rfl, rfl⟩
    | .character code hcode :: _, _ => exact ofNat_ne_hyphen hcode (List.cons.inj hrest).1
    | .nonAscii code :: _, _ =>
      rw [spelled_cons, spelling_nonAscii] at hrest
      exact absurd (List.cons.inj hrest).1 (by decide)

/-- A token can be told from what follows it. -/
theorem spelling_append_inj {token token' : HeadingToken} {s s' : Text}
    (hs : ∀ t, s ≠ 0x2D :: 0x2D :: t) (hs' : ∀ t, s' ≠ 0x2D :: 0x2D :: t)
    (h : token.spelling ++ s = token'.spelling ++ s') : token = token' ∧ s = s' := by
  cases token with
  | separator =>
    cases token' with
    | separator => exact ⟨rfl, (List.cons.inj h).2⟩
    | character code' hcode' => exact absurd (List.cons.inj h).1.symm (ofNat_ne_hyphen hcode')
    | nonAscii code' =>
      rw [spelling_nonAscii] at h
      exact absurd (List.cons.inj h).1 (by decide)
  | character code hcode =>
    cases token' with
    | separator => exact absurd (List.cons.inj h).1 (ofNat_ne_hyphen hcode)
    | character code' hcode' =>
      obtain ⟨hunit, hrest⟩ := List.cons.inj h
      obtain rfl := ofNat_inj_of_letters hcode hcode' hunit
      exact ⟨rfl, hrest⟩
    | nonAscii code' =>
      rw [spelling_nonAscii] at h
      exact absurd (List.cons.inj h).2 (hs _)
  | nonAscii code =>
    rw [spelling_nonAscii] at h
    cases token' with
    | separator => exact absurd (List.cons.inj h).1 (by decide)
    | character code' hcode' => exact absurd (List.cons.inj h).2.symm (hs' _)
    | nonAscii code' =>
      rw [spelling_nonAscii] at h
      obtain ⟨rfl, hrest⟩ := hexadecimal_append_inj
        (List.cons.inj (List.cons.inj (List.cons.inj h).2).2).2
      exact ⟨rfl, (List.cons.inj hrest).2⟩

theorem spelling_ne_nil (token : HeadingToken) (s : Text) : token.spelling ++ s ≠ [] := by
  cases token with
  | separator => exact List.cons_ne_nil _ _
  | character code h => exact List.cons_ne_nil _ _
  | nonAscii code =>
    rw [spelling_nonAscii]
    exact List.cons_ne_nil _ _

/-- What is spelled without two separators side by side can be read back. -/
theorem spelled_inj : ∀ {tokens tokens' : List HeadingToken}, tokens.IsChain Neighbours →
    tokens'.IsChain Neighbours → spelled tokens = spelled tokens' → tokens = tokens'
  | [], [], _, _, _ => rfl
  | [], token' :: _, _, _, h => absurd h.symm (spelling_ne_nil token' _)
  | token :: _, [], _, _, h => absurd h (spelling_ne_nil token _)
  | token :: rest, token' :: rest', hchain, hchain', h => by
    have hrest : rest.IsChain Neighbours := hchain.tail
    have hrest' : rest'.IsChain Neighbours := hchain'.tail
    obtain ⟨rfl, hsame⟩ := spelling_append_inj (fun _ => not_twoHyphens hrest)
      (fun _ => not_twoHyphens hrest') h
    rw [spelled_inj hrest hrest' hsame]

/-! The loop of `headingSlug`. -/

/-- Runs of separators as one, and none at the end. -/
def closedTokens (tokens : List HeadingToken) : List HeadingToken :=
  (separatorRuns tokens).rdropWhile isSeparator

theorem rdropWhile_cons {token : HeadingToken} {tokens : List HeadingToken}
    (h : isSeparator token = false ∨ tokens.rdropWhile isSeparator ≠ []) :
    (token :: tokens).rdropWhile isSeparator = token :: tokens.rdropWhile isSeparator := by
  induction tokens using List.reverseRecOn with
  | nil =>
    obtain hno : isSeparator token = false := h.resolve_right (· (List.rdropWhile_nil _))
    rw [List.rdropWhile_singleton, if_neg (by simp [hno]), List.rdropWhile_nil]
  | append_singleton tokens last ih =>
    rw [List.rdropWhile_concat] at h
    rw [← List.cons_append, List.rdropWhile_concat, List.rdropWhile_concat]
    by_cases hlast : isSeparator last = true
    · rw [if_pos hlast] at h ⊢
      rw [if_pos hlast, ih h]
    · rw [if_neg hlast, if_neg hlast]
      rfl

theorem closedTokens_cons {token : HeadingToken} (h : isSeparator token = false)
    (tokens : List HeadingToken) : closedTokens (token :: tokens) = token :: closedTokens tokens := by
  cases tokens with
  | nil => exact rdropWhile_cons (.inl h)
  | cons token' rest =>
    rw [closedTokens, separatorRuns, h, Bool.false_and, if_neg Bool.false_ne_true,
      rdropWhile_cons (.inl h)]
    rfl

theorem closedTokens_separators (rest : List HeadingToken) :
    closedTokens (.separator :: .separator :: rest) = closedTokens (.separator :: rest) := by
  rw [closedTokens, separatorRuns]
  exact if_pos rfl ▸ rfl

theorem closedTokens_separator_cons {token : HeadingToken} (h : isSeparator token = false)
    (tokens : List HeadingToken) :
    closedTokens (.separator :: token :: tokens) = .separator :: token :: closedTokens tokens := by
  have hrest := closedTokens_cons h tokens
  have hsome : (separatorRuns (token :: tokens)).rdropWhile isSeparator ≠ [] := by
    rw [closedTokens] at hrest
    rw [hrest]
    exact List.cons_ne_nil _ _
  rw [closedTokens, separatorRuns, h, Bool.and_false, if_neg Bool.false_ne_true,
    rdropWhile_cons (.inr hsome), ← hrest]
  rfl

/-- The separator that is due. -/
def due (separator : Bool) : List HeadingToken := if separator then [.separator] else []

theorem closedTokens_due_separator (separator : Bool) (tokens : List HeadingToken) :
    closedTokens (due separator ++ .separator :: tokens) =
      closedTokens (.separator :: tokens) := by
  cases separator with
  | false => rfl
  | true => exact closedTokens_separators tokens

theorem closedTokens_due_cons (separator : Bool) {token : HeadingToken}
    (h : isSeparator token = false) (tokens : List HeadingToken) :
    closedTokens (due separator ++ token :: tokens) =
      due separator ++ token :: closedTokens tokens := by
  cases separator with
  | false => exact closedTokens_cons h tokens
  | true => exact closedTokens_separator_cons h tokens

def NotUpper (code : ℕ) : Prop := ¬ (0x41 ≤ code ∧ code ≤ 0x5A)

/-- One step, by the token of its code point. -/
theorem headingSlugStep_eq (slug : Text) (separator : Bool) {code : ℕ} (h : NotUpper code) :
    headingSlugStep (slug, separator) code =
      if isSeparator (headingToken code) then (slug, true)
      else (slug ++ (if slug = [] then [] else spelled (due separator)) ++
        (headingToken code).spelling, false) := by
  have hhyphen : (if separator && slug.length > 0 then [0x2D] else []) =
      if slug = [] then [] else spelled (due separator) := by
    cases separator <;> cases slug <;> rfl
  have hletters : ((0x61 ≤ code && code ≤ 0x7A) || (0x30 ≤ code && code ≤ 0x39)) = true ↔
      IsLetterOrDigit code := by
    simp only [Bool.or_eq_true, Bool.and_eq_true, decide_eq_true_eq, IsLetterOrDigit]
    rw [NotUpper] at h
    omega
  rw [headingSlugStep, hhyphen, headingToken]
  by_cases hletter : IsLetterOrDigit code
  · simp [hletters, hletter, isSeparator, HeadingToken.spelling]
  · by_cases hascii : code > 0x7F
    · simp [hletters, hletter, hascii, isSeparator, HeadingToken.spelling, List.append_assoc]
    · simp [hletters, hletter, hascii, isSeparator]

/-- The loop once the slug has begun. -/
theorem foldl_headingSlugStep : ∀ (codes : List ℕ) {slug : Text} (separator : Bool), slug ≠ [] →
    (∀ code ∈ codes, NotUpper code) →
    (codes.foldl headingSlugStep (slug, separator)).1 =
      slug ++ spelled (closedTokens (due separator ++ codes.map headingToken)) := by
  intro codes
  induction codes with
  | nil =>
    intro slug separator _ _
    cases separator <;> exact (List.append_nil slug).symm
  | cons code codes ih =>
    intro slug separator hslug hcodes
    have hrest : ∀ code ∈ codes, NotUpper code := fun c hc => hcodes c (List.mem_cons_of_mem _ hc)
    rw [List.foldl_cons, headingSlugStep_eq slug separator (hcodes code List.mem_cons_self),
      List.map_cons]
    by_cases hsep : isSeparator (headingToken code) = true
    · have htoken : headingToken code = .separator := by simpa [isSeparator] using hsep
      rw [if_pos hsep, ih true hslug hrest, htoken, closedTokens_due_separator]
      rfl
    · have hno : isSeparator (headingToken code) = false := by simpa using hsep
      rw [if_neg hsep, if_neg hslug, ih false (by simp [hslug]) hrest, closedTokens_due_cons _ hno]
      simp [spelled, due]

/-- The loop from the start, where separators are dropped. -/
theorem foldl_headingSlugStep_nil : ∀ (codes : List ℕ) (separator : Bool),
    (∀ code ∈ codes, NotUpper code) →
    (codes.foldl headingSlugStep ([], separator)).1 = spelled (tokensOf codes) := by
  intro codes
  induction codes with
  | nil =>
    intro separator _
    rfl
  | cons code codes ih =>
    intro separator hcodes
    have hrest : ∀ code ∈ codes, NotUpper code := fun c hc => hcodes c (List.mem_cons_of_mem _ hc)
    rw [List.foldl_cons, headingSlugStep_eq [] separator (hcodes code List.mem_cons_self), tokensOf,
      List.map_cons]
    by_cases hsep : isSeparator (headingToken code) = true
    · rw [if_pos hsep, ih true hrest, tokensOf, List.dropWhile_cons_of_pos hsep]
    · have hno : isSeparator (headingToken code) = false := by simpa using hsep
      have hsome : [] ++ [] ++ (headingToken code).spelling ≠ [] := by
        simpa using spelling_ne_nil (headingToken code) []
      have hclosed := closedTokens_cons hno (codes.map headingToken)
      rw [if_neg hsep, if_pos rfl, foldl_headingSlugStep codes false hsome hrest,
        List.dropWhile_cons_of_neg hsep]
      rw [closedTokens] at hclosed
      rw [hclosed]
      rfl

/-! Texts without capitals. -/

theorem le_toNat_surrogatePair {hi lo : UInt16} (hhigh : isHighSurrogate hi = true)
    (hlow : isLowSurrogate lo = true) : 0x10000 ≤ (surrogatePair hi lo).toNat := by
  simp only [isHighSurrogate, isLowSurrogate, Bool.and_eq_true, decide_eq_true_eq,
    UInt16.le_iff_toNat_le, UInt16.reduceToNat] at hhigh hlow
  have hvalid : (0x10000 + (hi.toNat - 0xD800) * 0x400 + (lo.toNat - 0xDC00)).isValidChar := by
    rw [Nat.isValidChar]
    omega
  rw [surrogatePair, toNat_charOfNat hvalid]
  omega

/-- A code point is a unit of the text or lies beyond all of them. -/
theorem of_mem_codePoints (s : Text) : ∀ code ∈ codePoints s,
    (∃ u ∈ s, code = u.toNat) ∨ 0x10000 ≤ code := by
  fun_induction codePoints s with
  | case1 =>
    intro code hcode
    cases hcode
  | case2 u =>
    intro code hcode
    exact .inl ⟨u, List.mem_singleton_self u, List.mem_singleton.mp hcode⟩
  | case3 u v rest hpair ih =>
    intro code hcode
    rw [Bool.and_eq_true] at hpair
    rcases List.mem_cons.mp hcode with heq | hcode
    · exact .inr (heq ▸ le_toNat_surrogatePair hpair.1 hpair.2)
    · refine (ih code hcode).imp_left fun ⟨w, hw, heq⟩ => ⟨w, ?_, heq⟩
      exact List.mem_cons_of_mem _ (List.mem_cons_of_mem _ hw)
  | case4 u v rest hpair ih =>
    intro code hcode
    cases hcode with
    | head => exact .inl ⟨u, List.mem_cons_self, rfl⟩
    | tail _ hcode =>
      exact (ih code hcode).imp_left fun ⟨w, hw, heq⟩ => ⟨w, List.mem_cons_of_mem _ hw, heq⟩

theorem notUpper_of_mem_codePoints {s : Text} (h : ∀ u ∈ s, isUpper u = false) :
    ∀ code ∈ codePoints s, NotUpper code := by
  intro code hcode
  rcases of_mem_codePoints s code hcode with ⟨u, hu, rfl⟩ | hbeyond
  · have hlower := h u hu
    simp only [isUpper, Bool.and_eq_false_iff, decide_eq_false_iff_not, UInt16.le_iff_toNat_le,
      UInt16.reduceToNat] at hlower
    rw [NotUpper]
    omega
  · rw [NotUpper]
    omega

theorem headingSlug_eq {s : Text} (h : ∀ u ∈ s, isUpper u = false) :
    headingSlug s =
      if headingTokens s = [] then spelled (headingTokens (text "heading"))
      else spelled (headingTokens s) := by
  have hnil : spelled (headingTokens s) = [] ↔ headingTokens s = [] := by
    cases headingTokens s with
    | nil => exact iff_of_true rfl rfl
    | cons token rest => exact iff_of_false (spelling_ne_nil token _) (List.cons_ne_nil _ _)
  have hheading : text "heading" = spelled (headingTokens (text "heading")) := by decide
  simp only [headingSlug, foldl_headingSlugStep_nil _ false (notUpper_of_mem_codePoints h)]
  rw [← headingTokens, ← hheading]
  simp only [hnil]

theorem spelled_headingTokens_inj {s s' : Text} :
    spelled (headingTokens s) = spelled (headingTokens s') ↔ headingTokens s = headingTokens s' :=
  ⟨spelled_inj (isChain_tokensOf _) (isChain_tokensOf _), congrArg spelled⟩

/-- Slugs are equal where tokens are, but for the slug of a text with none. -/
theorem headingSlug_inj {s s' : Text} (h : ∀ u ∈ s, isUpper u = false)
    (h' : ∀ u ∈ s', isUpper u = false) : headingSlug s = headingSlug s' ↔
      headingTokens s = headingTokens s' ∨
      headingTokens s = [] ∧ headingTokens s' = headingTokens (text "heading") ∨
      headingTokens s' = [] ∧ headingTokens s = headingTokens (text "heading") := by
  have hsome : headingTokens (text "heading") ≠ [] := by decide
  rw [headingSlug_eq h, headingSlug_eq h']
  split
  · next hnone =>
    split
    · next hnone' => simp [hnone, hnone']
    · next hsome' =>
      rw [spelled_headingTokens_inj, hnone, eq_comm]
      simp [hsome', Ne.symm hsome', Ne.symm hsome]
  · next hsome₁ =>
    split
    · next hnone' =>
      rw [spelled_headingTokens_inj, hnone']
      simp [hsome₁, Ne.symm hsome]
    · next hsome' =>
      rw [spelled_headingTokens_inj]
      simp [hsome₁, hsome']

/-! Escapes. -/

def HeadingToken.escaped : HeadingToken → Option ℕ
  | nonAscii code => some code
  | _ => none

theorem escaped_of_isSeparator {token : HeadingToken} (h : isSeparator token = true) :
    token.escaped = none := by
  obtain rfl : token = .separator := by simpa [isSeparator] using h
  rfl

theorem escaped_separatorRuns (tokens : List HeadingToken) :
    (separatorRuns tokens).filterMap HeadingToken.escaped =
      tokens.filterMap HeadingToken.escaped := by
  fun_induction separatorRuns tokens with
  | case1 => rfl
  | case2 token => rfl
  | case3 token token' rest hboth ih =>
    rw [Bool.and_eq_true] at hboth
    rw [ih, List.filterMap_cons_none (escaped_of_isSeparator hboth.1)]
  | case4 token token' rest hone ih => rw [List.filterMap_cons, ih, ← List.filterMap_cons]

theorem escaped_dropWhile (tokens : List HeadingToken) :
    (tokens.dropWhile isSeparator).filterMap HeadingToken.escaped =
      tokens.filterMap HeadingToken.escaped := by
  induction tokens with
  | nil => rfl
  | cons token tokens ih =>
    by_cases hsep : isSeparator token = true
    · rw [List.dropWhile_cons_of_pos hsep, ih,
        List.filterMap_cons_none (escaped_of_isSeparator hsep)]
    · rw [List.dropWhile_cons_of_neg hsep]

theorem escaped_tokensOf (codes : List ℕ) :
    (tokensOf codes).filterMap HeadingToken.escaped = codes.filter (· > 0x7F) := by
  have hcode : ∀ code, (headingToken code).escaped = if code > 0x7F then some code else none := by
    intro code
    rw [headingToken]
    split
    · next hletter =>
      rw [IsLetterOrDigit] at hletter
      rw [if_neg (by omega)]
      rfl
    · split
      · rfl
      · rfl
  have hcodes : (codes.map headingToken).filterMap HeadingToken.escaped =
      codes.filter (· > 0x7F) := by
    rw [List.filterMap_map, ← List.filterMap_eq_filter]
    refine List.filterMap_congr fun code _ => ?_
    rw [Function.comp_apply, hcode]
    simp [Option.guard]
  rw [tokensOf, List.rdropWhile, List.filterMap_reverse, escaped_dropWhile, List.filterMap_reverse,
    List.reverse_reverse, escaped_separatorRuns, escaped_dropWhile, hcodes]

/-- Texts of one slug have the same code points beyond ASCII, in the same order. -/
theorem filter_codePoints_of_headingSlug {s s' : Text} (h : ∀ u ∈ s, isUpper u = false)
    (h' : ∀ u ∈ s', isUpper u = false) (hslug : headingSlug s = headingSlug s') :
    (codePoints s).filter (· > 0x7F) = (codePoints s').filter (· > 0x7F) := by
  have hheading : (headingTokens (text "heading")).filterMap HeadingToken.escaped = [] := by decide
  rw [← escaped_tokensOf, ← escaped_tokensOf, ← headingTokens, ← headingTokens]
  rcases (headingSlug_inj h h').mp hslug with htokens | ⟨hnone, hword⟩ | ⟨hnone, hword⟩
  · rw [htokens]
  · rw [hnone, hword, hheading]
    rfl
  · rw [hnone, hword, hheading]
    rfl

/-- Two hyphens side by side spell an escape. -/
theorem exists_escaped_of_twoHyphens {tokens : List HeadingToken} (h : tokens.IsChain Neighbours)
    (hhyphens : [0x2D, 0x2D] <:+: spelled tokens) : tokens.filterMap HeadingToken.escaped ≠ [] := by
  induction tokens with
  | nil => exact absurd (List.infix_nil.mp hhyphens) (by decide)
  | cons token rest ih =>
    intro hnone
    have hrest : ¬ [0x2D, 0x2D] <:+: spelled rest := by
      intro hhyphens
      refine ih h.tail hhyphens (List.eq_nil_of_sublist_nil (hnone ▸ ?_))
      exact (List.sublist_cons_self token rest).filterMap _
    obtain ⟨u, hu⟩ : ∃ u, token.spelling = [u] := by
      cases token with
      | separator => exact ⟨_, rfl⟩
      | character code hcode => exact ⟨_, rfl⟩
      | nonAscii code => cases hnone
    have hspelled : spelled (token :: rest) = u :: spelled rest := by
      rw [spelled_cons, hu]
      rfl
    rw [hspelled, List.infix_cons_iff] at hhyphens
    obtain ⟨t, ht⟩ := hhyphens.resolve_right hrest
    exact not_twoHyphens h (hspelled.trans ht.symm)

/-- What ASCII text makes has no escape in it. -/
theorem not_escape_infix_headingSlug {s : Text} (h : ∀ u ∈ s, isUpper u = false)
    (hascii : ∀ code ∈ codePoints s, code ≤ 0x7F) (code : ℕ) :
    ¬ (HeadingToken.nonAscii code).spelling <:+: headingSlug s := by
  intro hinfix
  have hhyphens : [0x2D, 0x2D] <:+: headingSlug s := by
    refine List.IsInfix.trans ?_ hinfix
    rw [← List.append_nil (HeadingToken.spelling _), spelling_nonAscii]
    exact List.infix_append [0x75] [0x2D, 0x2D] _
  have hheading : (headingTokens (text "heading")).filterMap HeadingToken.escaped = [] := by decide
  have hnone : (headingTokens s).filterMap HeadingToken.escaped = [] := by
    rw [headingTokens, escaped_tokensOf, List.filter_eq_nil_iff]
    intro code hcode
    simpa using hascii code hcode
  rw [headingSlug_eq h] at hhyphens
  split at hhyphens
  · exact exists_escaped_of_twoHyphens (isChain_tokensOf _) hhyphens hheading
  · exact exists_escaped_of_twoHyphens (isChain_tokensOf _) hhyphens hnone

/-- No lowercase text has a capital of ASCII. -/
def LowersCapitals (platform : Platform) : Prop :=
  ∀ s, ∀ u ∈ platform.toLowerCase s, isUpper u = false

theorem headingSlug_normalized_inj {platform : Platform} (hlower : LowersCapitals platform)
    (rawText rawText' : Text) :
    let s := normalizedHeadingText platform rawText
    let s' := normalizedHeadingText platform rawText'
    (headingSlug s = headingSlug s' ↔
      headingTokens s = headingTokens s' ∨
      headingTokens s = [] ∧ headingTokens s' = headingTokens (text "heading") ∨
      headingTokens s' = [] ∧ headingTokens s = headingTokens (text "heading")) ∧
    (headingSlug s = headingSlug s' →
      (codePoints s).filter (· > 0x7F) = (codePoints s').filter (· > 0x7F)) ∧
    ((∀ code ∈ codePoints s, code ≤ 0x7F) →
      ∀ code, ¬ (HeadingToken.nonAscii code).spelling <:+: headingSlug s) := by
  intro s s'
  have h : ∀ u ∈ s, isUpper u = false := hlower _
  have h' : ∀ u ∈ s', isUpper u = false := hlower _
  exact ⟨headingSlug_inj h h', filter_codePoints_of_headingSlug h h',
    not_escape_infix_headingSlug h⟩

theorem lowersCapitals_ascii : LowersCapitals asciiPlatform := by
  intro s u hu
  obtain ⟨v, -, rfl⟩ := List.mem_map.mp hu
  by_cases hv : isUpper v = true
  · rw [if_pos hv]
    simp only [isUpper, Bool.and_eq_true, decide_eq_true_eq, UInt16.le_iff_toNat_le,
      UInt16.reduceToNat, Bool.and_eq_false_iff, decide_eq_false_iff_not, UInt16.toNat_add] at hv ⊢
    omega
  · rw [if_neg hv]
    exact Bool.eq_false_iff.mpr hv

theorem headingSlug_normalized_inj_heading :
    headingSlug (normalizedHeadingText asciiPlatform (text " Heading ")) =
        headingSlug (normalizedHeadingText asciiPlatform (text "#")) ↔
      headingTokens (normalizedHeadingText asciiPlatform (text " Heading ")) =
        headingTokens (normalizedHeadingText asciiPlatform (text "#")) ∨
      headingTokens (normalizedHeadingText asciiPlatform (text " Heading ")) = [] ∧
        headingTokens (normalizedHeadingText asciiPlatform (text "#")) =
          headingTokens (text "heading") ∨
      headingTokens (normalizedHeadingText asciiPlatform (text "#")) = [] ∧
        headingTokens (normalizedHeadingText asciiPlatform (text " Heading ")) =
          headingTokens (text "heading") :=
  (headingSlug_normalized_inj lowersCapitals_ascii _ _).1

end TextIndex
