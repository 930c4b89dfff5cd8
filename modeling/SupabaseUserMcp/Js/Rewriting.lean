import SupabaseUserMcp.Js.JsonText

/- Two rewritings of JSON texts: replacing a marker by another spelling of it, and
   escaping code units of a class. Both only respell strings, and what they take away
   they do not put back: the first leaves no marker, since a marker's first unit comes
   once in it and once in its replacement; the second leaves no unit of the class and
   makes no marker. -/
namespace Js

/-! Replacing a marker. -/

section ReplaceAll

variable {c : UInt16} {marker replacement : Text}

theorem replaceAllFrom_append (pattern : Text) {skipped : Text} (s : Text) :
    replaceAllFrom pattern replacement skipped.length (skipped ++ s) =
      replaceAllFrom pattern replacement 0 s := by
  induction skipped with
  | nil => rfl
  | cons u skipped ih => exact ih

theorem replaceAll_match (s : Text) : replaceAll (c :: marker) replacement (c :: marker ++ s) =
    replacement ++ replaceAll (c :: marker) replacement s := by
  have hprefix : (c :: marker).isPrefixOf (c :: (marker ++ s)) = true :=
    List.isPrefixOf_iff_prefix.mpr (List.prefix_append (c :: marker) s)
  rw [replaceAll, List.cons_append, replaceAllFrom, if_pos hprefix, List.length_cons,
    Nat.add_sub_cancel, replaceAllFrom_append]
  rfl

theorem replaceAll_cons {u : UInt16} {s : Text} (h : ¬ c :: marker <+: u :: s) :
    replaceAll (c :: marker) replacement (u :: s) =
      u :: replaceAll (c :: marker) replacement s := by
  rw [replaceAll, replaceAllFrom, if_neg (by rwa [List.isPrefixOf_iff_prefix])]
  rfl

theorem replaceAll_cons_of_ne {u : UInt16} (h : u ≠ c) (s : Text) :
    replaceAll (c :: marker) replacement (u :: s) =
      u :: replaceAll (c :: marker) replacement s :=
  replaceAll_cons fun hprefix => h (List.cons_prefix_cons.mp hprefix).1.symm

theorem replaceAll_append_of_not_mem {s : Text} (h : c ∉ s) (rest : Text) :
    replaceAll (c :: marker) replacement (s ++ rest) =
      s ++ replaceAll (c :: marker) replacement rest := by
  induction s with
  | nil => rfl
  | cons u s ih =>
    rw [List.mem_cons, not_or] at h
    rw [List.cons_append, replaceAll_cons_of_ne (Ne.symm h.1), ih h.2]
    rfl

/-- What units that stand for themselves spell. -/
theorem Spells.of_append {pattern body s : Text} (h : Spells (pattern ++ body) s)
    (hpattern : ∀ u ∈ pattern, isUnescaped u = true) : ∃ t, s = pattern ++ t ∧ Spells body t := by
  induction pattern generalizing s with
  | nil => exact ⟨s, rfl, h⟩
  | cons u pattern ih =>
    have hu := hpattern u List.mem_cons_self
    have hne : u ≠ 0x5C := by
      rintro rfl
      exact absurd hu (by decide)
    rw [List.cons_append] at h
    generalize hwhole : u :: (pattern ++ body) = whole at h
    cases h with
    | nil => cases hwhole
    | unit hv hrest =>
      cases hwhole
      obtain ⟨t, rfl, ht⟩ := ih hrest fun v hv => hpattern v (List.mem_cons_of_mem _ hv)
      exact ⟨t, rfl, ht⟩
    | escape he hrest => exact absurd (List.cons.inj hwhole).1 hne
    | unicode v hrest => exact absurd (List.cons.inj hwhole).1 hne

theorem mem_unicodeEscape {u v : UInt16} (h : v ∈ unicodeEscape u) :
    v = 0x5C ∨ isOutsideUnit v = true := by
  have hu := u.toNat_lt
  have hdigit : ∀ {n : ℕ}, n < 16 → isOutsideUnit (hexDigit n) = true := by
    intro n hn
    interval_cases n <;> decide
  have hescape : unicodeEscape u = [0x5C, 0x75, hexDigit (u.toNat / 4096),
    hexDigit (u.toNat / 256 % 16), hexDigit (u.toNat / 16 % 16), hexDigit (u.toNat % 16)] := rfl
  rw [hescape] at h
  simp only [List.mem_cons, List.not_mem_nil, or_false] at h
  rcases h with rfl | rfl | rfl | rfl | rfl | rfl
  · exact Or.inl rfl
  · exact Or.inr (by decide)
  · exact Or.inr (hdigit (by omega))
  · exact Or.inr (hdigit (by omega))
  · exact Or.inr (hdigit (by omega))
  · exact Or.inr (hdigit (by omega))

theorem not_mem_unicodeEscape (hunescaped : isUnescaped c = true)
    (hinside : isOutsideUnit c = false) (u : UInt16) : c ∉ unicodeEscape u := by
  intro hc
  rcases mem_unicodeEscape hc with rfl | hout
  · exact absurd hunescaped (by decide)
  · rw [hout] at hinside
    cases hinside

/-- A marker without quotes lies before the closing quote. -/
theorem prefix_of_prefix_append_quote {pattern body rest : Text} (hquote : (0x22 : UInt16) ∉ pattern)
    (h : pattern <+: body ++ 0x22 :: rest) : pattern <+: body := by
  rcases Nat.lt_or_ge body.length pattern.length with hlt | hle
  · exfalso
    apply hquote
    have hupTo : body ++ [0x22] <+: body ++ 0x22 :: rest := ⟨rest, by simp⟩
    have hin : body ++ [0x22] <+: pattern := List.prefix_of_prefix_length_le hupTo h (by simpa)
    exact hin.subset (by simp)
  · exact List.prefix_of_prefix_length_le h (List.prefix_append _ _) hle

/-- Inside of a string the marker gives way to its other spelling. -/
theorem replaceAll_body (hmarker : ∀ u ∈ c :: marker, isUnescaped u = true)
    (hinside : isOutsideUnit c = false) (hescape : unescape? c = none)
    (hreplacement : Spells replacement (c :: marker)) :
    ∀ (n : ℕ) {body s : Text}, body.length ≤ n → Spells body s → ∃ body', Spells body' s ∧
      ∀ rest, replaceAll (c :: marker) replacement (body ++ 0x22 :: rest) =
        body' ++ 0x22 :: replaceAll (c :: marker) replacement rest := by
  have hc := hmarker c List.mem_cons_self
  have hquote : (0x22 : UInt16) ∉ c :: marker := fun hmem => absurd (hmarker _ hmem) (by decide)
  have hquoteNe : (0x22 : UInt16) ≠ c := by
    rintro rfl
    exact absurd hc (by decide)
  have hbackslash : (0x5C : UInt16) ≠ c := by
    rintro rfl
    exact absurd hc (by decide)
  intro n
  induction n with
  | zero =>
    intro body s hn h
    obtain rfl := List.eq_nil_of_length_eq_zero (Nat.le_zero.mp hn)
    refine ⟨[], h, fun rest => ?_⟩
    exact replaceAll_cons_of_ne hquoteNe rest
  | succ n ih =>
    intro body s hn h
    by_cases hmatch : c :: marker <+: body
    · obtain ⟨body, rfl⟩ := hmatch
      obtain ⟨t, rfl, ht⟩ := h.of_append hmarker
      rw [List.length_append, List.length_cons] at hn
      obtain ⟨body', hbody', hrewrite⟩ := ih (by omega) ht
      refine ⟨replacement ++ body', hreplacement.append hbody', fun rest => ?_⟩
      rw [List.append_assoc, replaceAll_match, hrewrite, List.append_assoc]
    · have hkeep : ∀ {u : UInt16} {tail : Text}, body = u :: tail → ∀ rest,
          replaceAll (c :: marker) replacement (u :: (tail ++ 0x22 :: rest)) =
            u :: replaceAll (c :: marker) replacement (tail ++ 0x22 :: rest) := by
        intro u tail hbody rest
        subst hbody
        exact replaceAll_cons fun hprefix => hmatch (prefix_of_prefix_append_quote hquote hprefix)
      cases h with
      | nil => exact ih (Nat.zero_le n) .nil
      | @unit u tail t hu ht =>
        obtain ⟨tail', htail', hrewrite⟩ := ih (Nat.le_of_succ_le_succ hn) ht
        refine ⟨u :: tail', .unit hu htail', fun rest => ?_⟩
        rw [List.cons_append, hkeep rfl, hrewrite]
        rfl
      | @escape e u tail t he ht =>
        rw [List.length_cons, List.length_cons] at hn
        obtain ⟨tail', htail', hrewrite⟩ := ih (by omega) ht
        have hne : e ≠ c := by
          rintro rfl
          rw [hescape] at he
          cases he
        refine ⟨0x5C :: e :: tail', .escape he htail', fun rest => ?_⟩
        rw [List.cons_append, List.cons_append, replaceAll_cons_of_ne hbackslash,
          replaceAll_cons_of_ne hne, hrewrite]
        rfl
      | @unicode u tail t ht =>
        have hlength : (unicodeEscape u).length = 6 := rfl
        rw [List.length_append, hlength] at hn
        obtain ⟨tail', htail', hrewrite⟩ := ih (by omega) ht
        refine ⟨unicodeEscape u ++ tail', .unicode u htail', fun rest => ?_⟩
        rw [List.append_assoc, replaceAll_append_of_not_mem (not_mem_unicodeEscape hc hinside u),
          hrewrite, List.append_assoc]

/-- Another spelling of a marker is a respelling wherever the marker stands. -/
theorem respelling_replaceAll (hmarker : ∀ u ∈ c :: marker, isUnescaped u = true)
    (hinside : isOutsideUnit c = false) (hescape : unescape? c = none)
    (hreplacement : Spells replacement (c :: marker)) :
    Respelling (replaceAll (c :: marker) replacement) where
  nil := rfl
  outside := by
    intro u rest hu
    refine replaceAll_cons_of_ne ?_ rest
    rintro rfl
    rw [hu] at hinside
    cases hinside
  body := by
    intro body s h
    exact replaceAll_body hmarker hinside hescape hreplacement body.length le_rfl h

/-- Up to the next marker's first unit the text is as it was. -/
theorem prefix_of_prefix_replaceAll {other part : Text} (hc : c ∉ part) {s : Text}
    (h : part <+: replaceAll (c :: marker) (c :: other) s) : part <+: s := by
  induction s generalizing part with
  | nil => exact h
  | cons u s ih =>
    cases part with
    | nil => exact List.nil_prefix
    | cons v part =>
      rw [List.mem_cons, not_or] at hc
      by_cases hmatch : c :: marker <+: u :: s
      · obtain ⟨rest, hrest⟩ := hmatch
        rw [← hrest, replaceAll_match, List.cons_append, List.cons_prefix_cons] at h
        exact absurd h.1.symm hc.1
      · rw [replaceAll_cons hmatch, List.cons_prefix_cons] at h
        exact List.cons_prefix_cons.mpr ⟨h.1, ih hc.2 h.2⟩

/-- An occurrence that begins with `c` does not begin where there is no `c`. -/
theorem isInfix_of_isInfix_append {pattern before s : Text} (hc : c ∉ before)
    (h : c :: pattern <:+: before ++ s) : c :: pattern <:+: s := by
  induction before with
  | nil => exact h
  | cons u before ih =>
    rw [List.mem_cons, not_or] at hc
    rcases List.infix_cons_iff.mp h with hprefix | hinfix
    · exact absurd (List.cons_prefix_cons.mp hprefix).1 hc.1
    · exact ih hc.2 hinfix

/-- No marker is left. -/
theorem not_isInfix_replaceAll {other : Text} (hmarker : c ∉ marker) (hother : c ∉ other)
    (hlength : marker.length ≤ other.length) (hdiffer : ¬ marker <+: other) :
    ∀ (n : ℕ) {s : Text}, s.length ≤ n →
      ¬ c :: marker <:+: replaceAll (c :: marker) (c :: other) s := by
  intro n
  induction n with
  | zero =>
    intro s hn h
    obtain rfl := List.eq_nil_of_length_eq_zero (Nat.le_zero.mp hn)
    exact absurd (List.infix_nil.mp h) (List.cons_ne_nil c marker)
  | succ n ih =>
    intro s hn h
    by_cases hmatch : c :: marker <+: s
    · obtain ⟨rest, rfl⟩ := hmatch
      rw [List.length_append, List.length_cons] at hn
      rw [replaceAll_match, List.cons_append] at h
      rcases List.infix_cons_iff.mp h with hprefix | hinfix
      · -- the replacement differs from the marker before it ends
        have hmarkerPrefix := (List.cons_prefix_cons.mp hprefix).2
        exact hdiffer (List.prefix_of_prefix_length_le hmarkerPrefix (List.prefix_append _ _) hlength)
      · exact ih (by omega) (isInfix_of_isInfix_append hother hinfix)
    · cases s with
      | nil => exact absurd (List.infix_nil.mp h) (List.cons_ne_nil c marker)
      | cons u s =>
        rw [replaceAll_cons hmatch] at h
        rcases List.infix_cons_iff.mp h with hprefix | hinfix
        · -- a marker here was there before
          obtain ⟨rfl, hrest⟩ := List.cons_prefix_cons.mp hprefix
          have hbefore := prefix_of_prefix_replaceAll hmarker hrest
          exact hmatch (List.cons_prefix_cons.mpr ⟨rfl, hbefore⟩)
        · exact ih (Nat.le_of_succ_le_succ hn) hinfix

end ReplaceAll

/-! Escaping a class of code units. -/

section EscapeUnits

variable {escaped : UInt16 → Bool}

/-- `s.replace(/[...]/g, ...)`, where each match gives way to its `\uXXXX`. -/
def escapeUnits (escaped : UInt16 → Bool) (s : Text) : Text :=
  s.flatMap fun u => if escaped u then unicodeEscape u else [u]

theorem escapeUnits_cons_of_pos {u : UInt16} (h : escaped u = true) (s : Text) :
    escapeUnits escaped (u :: s) = unicodeEscape u ++ escapeUnits escaped s := by
  rw [escapeUnits, List.flatMap_cons, if_pos h]
  rfl

theorem escapeUnits_cons_of_neg {u : UInt16} (h : escaped u = false) (s : Text) :
    escapeUnits escaped (u :: s) = u :: escapeUnits escaped s := by
  rw [escapeUnits, List.flatMap_cons, h]
  rfl

theorem escapeUnits_append (s t : Text) :
    escapeUnits escaped (s ++ t) = escapeUnits escaped s ++ escapeUnits escaped t :=
  List.flatMap_append

theorem escapeUnits_of_all {s : Text} (h : ∀ u ∈ s, escaped u = false) :
    escapeUnits escaped s = s := by
  induction s with
  | nil => rfl
  | cons u s ih =>
    rw [escapeUnits_cons_of_neg (h u List.mem_cons_self),
      ih fun v hv => h v (List.mem_cons_of_mem _ hv)]

theorem lt_of_isOutsideUnit {u : UInt16} (h : isOutsideUnit u = true) : u < 0x80 := by
  simp only [isOutsideUnit, isNumberUnit, isDigit, isLower, Bool.or_eq_true, Bool.and_eq_true,
    beq_iff_eq, decide_eq_true_eq, UInt16.le_iff_toNat_le, UInt16.lt_iff_toNat_lt,
    ← UInt16.toNat_inj] at h ⊢
  simp only [UInt16.reduceToNat] at h ⊢
  omega

theorem lt_of_unescape? {e u : UInt16} (h : unescape? e = some u) : e < 0x80 := by
  rw [unescape?] at h
  split_ifs at h with h1 h2 h3 h4 h5 h6 h7 h8
  · subst h1; decide
  · subst h2; decide
  · subst h3; decide
  · subst h4; decide
  · subst h5; decide
  · subst h6; decide
  · subst h7; decide
  · subst h8; decide

theorem lt_of_mem_unicodeEscape {u v : UInt16} (h : v ∈ unicodeEscape u) : v < 0x80 := by
  rcases mem_unicodeEscape h with rfl | hout
  · decide
  · exact lt_of_isOutsideUnit hout

section Ascii

variable (hascii : ∀ u, u < 0x80 → escaped u = false)

include hascii

/-- Escaping the units of a class beyond ASCII is a respelling. -/
theorem respelling_escapeUnits : Respelling (escapeUnits escaped) where
  nil := rfl
  outside := fun u rest hu => escapeUnits_cons_of_neg (hascii u (lt_of_isOutsideUnit hu)) rest
  body := by
    intro body s h
    refine ⟨escapeUnits escaped body, ?_, fun rest => ?_⟩
    · induction h with
      | nil => exact .nil
      | @unit u body s hu _ ih =>
        cases hescaped : escaped u with
        | true =>
          rw [escapeUnits_cons_of_pos hescaped]
          exact .unicode u ih
        | false =>
          rw [escapeUnits_cons_of_neg hescaped]
          exact .unit hu ih
      | @escape e u body s he _ ih =>
        rw [escapeUnits_cons_of_neg (hascii _ (by decide)),
          escapeUnits_cons_of_neg (hascii e (lt_of_unescape? he))]
        exact .escape he ih
      | @unicode u body s _ ih =>
        rw [escapeUnits_append, escapeUnits_of_all fun v hv => hascii v (lt_of_mem_unicodeEscape hv)]
        exact .unicode u ih
    · rw [escapeUnits_append, escapeUnits_cons_of_neg (hascii _ (by decide))]

/-- No unit of the class is left. -/
theorem escaped_of_mem_escapeUnits {s : Text} {v : UInt16} (h : v ∈ escapeUnits escaped s) :
    escaped v = false := by
  obtain ⟨u, _, hv⟩ := List.mem_flatMap.mp h
  split at hv
  · exact hascii v (lt_of_mem_unicodeEscape hv)
  · next hu =>
    obtain rfl := List.mem_singleton.mp hv
    exact Bool.eq_false_iff.mpr hu

end Ascii

/-- Up to the next escape the text is as it was. -/
theorem prefix_of_prefix_escapeUnits {part s : Text} (hpart : (0x5C : UInt16) ∉ part)
    (h : part <+: escapeUnits escaped s) : part <+: s := by
  induction s generalizing part with
  | nil => exact h
  | cons u s ih =>
    cases part with
    | nil => exact List.nil_prefix
    | cons v part =>
      rw [List.mem_cons, not_or] at hpart
      cases hescaped : escaped u with
      | true =>
        rw [escapeUnits_cons_of_pos hescaped] at h
        exact absurd (List.cons_prefix_cons.mp h).1.symm hpart.1
      | false =>
        rw [escapeUnits_cons_of_neg hescaped, List.cons_prefix_cons] at h
        exact List.cons_prefix_cons.mpr ⟨h.1, ih hpart.2 h.2⟩

/-- Escaping makes no marker. -/
theorem isInfix_of_isInfix_escapeUnits {c : UInt16} {marker : Text}
    (hmarker : ∀ u ∈ c :: marker, isUnescaped u = true) (hinside : isOutsideUnit c = false)
    {s : Text} (h : c :: marker <:+: escapeUnits escaped s) : c :: marker <:+: s := by
  have hbackslash : (0x5C : UInt16) ∉ c :: marker := fun hmem =>
    absurd (hmarker _ hmem) (by decide)
  induction s with
  | nil => exact h
  | cons u s ih =>
    apply List.infix_cons_iff.mpr
    cases hescaped : escaped u with
    | true =>
      rw [escapeUnits_cons_of_pos hescaped] at h
      have hnot := not_mem_unicodeEscape (hmarker c List.mem_cons_self) hinside u
      exact Or.inr (ih (isInfix_of_isInfix_append hnot h))
    | false =>
      have hsame := escapeUnits_cons_of_neg hescaped s
      rw [hsame] at h
      rcases List.infix_cons_iff.mp h with hprefix | hinfix
      · rw [← hsame] at hprefix
        exact Or.inl (prefix_of_prefix_escapeUnits hbackslash hprefix)
      · exact Or.inr (ih hinfix)

end EscapeUnits

end Js
