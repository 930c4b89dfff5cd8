import Mathlib.Data.List.Basic

/- Paths over any alphabet with a separator and a dot. A path is resolved by its segments
   from left to right: empty segments and single dots say nothing, two dots go up. A path
   of plain segments resolves to them below whatever comes before it. -/
namespace Path

variable {α : Type} [DecidableEq α] (separator dot : α)

/-- A segment that resolution leaves where it is. -/
structure Plain (segment : List α) : Prop where
  ne_nil : segment ≠ []
  ne_dot : segment ≠ [dot]
  ne_dots : segment ≠ [dot, dot]

/-- The next segment below those resolved so far. Above the root is the root, and above
where a relative path starts is one segment of two dots more. -/
def resolveStep (rooted : Bool) (resolved : List (List α)) (segment : List α) : List (List α) :=
  if segment = [] ∨ segment = [dot] then resolved
  else if segment = [dot, dot] then
    match resolved.getLast? with
    | none => if rooted then [] else [segment]
    | some top => if top = [dot, dot] then resolved ++ [segment] else resolved.dropLast
  else resolved ++ [segment]

/-- The segments of a path once it is resolved. -/
def resolve (rooted : Bool) (path : List α) : List (List α) :=
  (path.splitOn separator).foldl (resolveStep dot rooted) []

/-- A run of separators is one. -/
def collapse : List α → List α
  | a :: b :: rest =>
    if a = separator ∧ b = separator then collapse (b :: rest) else a :: collapse (b :: rest)
  | path => path

variable {separator dot}

theorem foldl_resolveStep_plain {rooted : Bool} {segments : List (List α)}
    (h : ∀ segment ∈ segments, Plain dot segment) : ∀ resolved : List (List α),
    segments.foldl (resolveStep dot rooted) resolved = resolved ++ segments := by
  induction segments with
  | nil =>
    intro resolved
    rw [List.foldl_nil, List.append_nil]
  | cons segment segments ih =>
    intro resolved
    have hplain := h segment List.mem_cons_self
    have hstep : resolveStep dot rooted resolved segment = resolved ++ [segment] := by
      rw [resolveStep, if_neg (not_or.mpr ⟨hplain.ne_nil, hplain.ne_dot⟩), if_neg hplain.ne_dots]
    rw [List.foldl_cons, hstep, ih fun other hother => h other (List.mem_cons_of_mem _ hother),
      List.append_assoc, List.singleton_append]

/-- Plain segments stay as they are. -/
theorem resolve_plain {rooted : Bool} {path : List α}
    (h : ∀ segment ∈ path.splitOn separator, Plain dot segment) :
    resolve separator dot rooted path = path.splitOn separator :=
  foldl_resolveStep_plain h []

/-- Plain segments below a path resolve below what the path resolves to. -/
theorem resolve_below {rooted : Bool} {parent path : List α}
    (h : ∀ segment ∈ path.splitOn separator, Plain dot segment) :
    resolve separator dot rooted (parent ++ separator :: path) =
      resolve separator dot rooted parent ++ path.splitOn separator := by
  rw [resolve, List.splitOn_append_cons_self, List.foldl_append, ← resolve,
    foldl_resolveStep_plain h]

theorem collapse_of_not_infix : ∀ {path : List α}, ¬[separator, separator] <:+: path →
    collapse separator path = path := by
  intro path
  fun_induction collapse separator path with
  | case1 a b rest hrun =>
    intro h
    obtain ⟨rfl, rfl⟩ := hrun
    exact absurd ⟨[], rest, rfl⟩ h
  | case2 a b rest hrun ih =>
    intro h
    exact congrArg (a :: ·) (ih fun hinfix => h (List.infix_cons hinfix))
  | case3 => exact fun _ => rfl

/-- A path without empty segments has no run of separators. -/
theorem collapse_plain {path : List α} (h : [] ∉ path.splitOn separator) :
    collapse separator path = path := by
  refine collapse_of_not_infix fun hinfix => h ?_
  obtain ⟨before, after, rfl⟩ := hinfix
  rw [List.append_assoc, List.cons_append, List.singleton_append, List.splitOn_append_cons_self,
    List.splitOn_cons_eq_if_modifyHead, if_pos (beq_self_eq_true _)]
  exact List.mem_append_right _ List.mem_cons_self

/-- Whatever is in a path is the separator or in a segment. -/
theorem mem_segment {a : α} : ∀ {path : List α}, a ∈ path →
    a = separator ∨ ∃ segment ∈ path.splitOn separator, a ∈ segment := by
  intro path
  induction path with
  | nil =>
    intro h
    cases h
  | cons b path ih =>
    intro h
    rw [List.splitOn_cons_eq_if_modifyHead]
    obtain ⟨first, rest, hsplit⟩ := List.exists_cons_of_ne_nil (List.splitOn_ne_nil separator path)
    split
    · next hb =>
      obtain rfl | h := List.mem_cons.mp h
      · exact .inl (beq_iff_eq.mp hb)
      · exact (ih h).imp id fun ⟨segment, hmem, ha⟩ => ⟨segment, List.mem_cons_of_mem _ hmem, ha⟩
    · rw [hsplit, List.modifyHead_cons]
      obtain rfl | h := List.mem_cons.mp h
      · exact .inr ⟨a :: first, List.mem_cons_self, List.mem_cons_self⟩
      · refine (ih h).imp id fun ⟨segment, hmem, ha⟩ => ?_
        rw [hsplit] at hmem
        obtain rfl | hmem := List.mem_cons.mp hmem
        · exact ⟨b :: segment, List.mem_cons_self, List.mem_cons_of_mem _ ha⟩
        · exact ⟨segment, List.mem_cons_of_mem _ hmem, ha⟩

/-- Segments are rewritten as the path is, where the separator stays the only one. -/
theorem splitOn_map {β : Type} [DecidableEq β] (f : α → β) : ∀ {path : List α},
    (∀ a ∈ path, f a = f separator → a = separator) →
    (path.map f).splitOn (f separator) = (path.splitOn separator).map (List.map f) := by
  intro path
  induction path with
  | nil =>
    intro _
    rfl
  | cons a path ih =>
    intro h
    have hrest := ih fun b hb => h b (List.mem_cons_of_mem _ hb)
    rw [List.map_cons, List.splitOn_cons_eq_if_modifyHead, List.splitOn_cons_eq_if_modifyHead, hrest]
    by_cases ha : a = separator
    · rw [ha, if_pos (beq_self_eq_true _), if_pos (beq_self_eq_true _)]
      rfl
    · have hfa : f a ≠ f separator := fun hf => ha (h a List.mem_cons_self hf)
      rw [if_neg (by simpa using hfa), if_neg (by simpa using ha)]
      obtain ⟨first, rest, hsplit⟩ := List.exists_cons_of_ne_nil (List.splitOn_ne_nil separator path)
      rw [hsplit]
      rfl

end Path
