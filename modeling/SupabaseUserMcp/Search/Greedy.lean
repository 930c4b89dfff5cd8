import Mathlib.Data.List.Basic
import Mathlib.Data.Nat.Find

/- The occurrences of a pattern that a search from left to right finds when it goes on
   behind each of them: of those that are left, always the first. -/
namespace Search

variable {α : Type} {pattern source : List α} {start k : ℕ}

def OccursAt (pattern source : List α) (k : ℕ) : Prop := pattern <+: source.drop k

/-- `k` is the first occurrence at or after `start`. -/
structure IsFirst (pattern source : List α) (start k : ℕ) : Prop where
  from_start : start ≤ k
  occurs : OccursAt pattern source k
  least : ∀ j, start ≤ j → j < k → ¬ OccursAt pattern source j

/-- The leftmost occurrences that do not overlap, from `start` on. -/
inductive Greedy (pattern source : List α) : ℕ → List ℕ → Prop where
  | done {start : ℕ} : (∀ k, start ≤ k → ¬ OccursAt pattern source k) →
      Greedy pattern source start []
  | next {start k : ℕ} {rest : List ℕ} : IsFirst pattern source start k →
      Greedy pattern source (k + pattern.length) rest → Greedy pattern source start (k :: rest)

theorem OccursAt.inside (h : OccursAt pattern source k) (hne : pattern ≠ []) :
    k + pattern.length ≤ source.length := by
  have hlength := h.length_le
  rw [List.length_drop] at hlength
  have hpos := List.length_pos_iff.mpr hne
  omega

theorem IsFirst.eq {k' : ℕ} (h : IsFirst pattern source start k)
    (h' : IsFirst pattern source start k') : k = k' := by
  by_contra hne
  rcases Nat.lt_or_gt_of_ne hne with hlt | hlt
  · exact h'.least k h.from_start hlt h.occurs
  · exact h.least k' h'.from_start hlt h'.occurs

/-- There is one such list of occurrences. -/
theorem Greedy.unique {ks : List ℕ} (h : Greedy pattern source start ks) :
    ∀ {ks' : List ℕ}, Greedy pattern source start ks' → ks = ks' := by
  induction h with
  | done hnone =>
    intro ks' h'
    cases h' with
    | done => rfl
    | next hfirst _ => exact absurd hfirst.occurs (hnone _ hfirst.from_start)
  | next hfirst _ ih =>
    intro ks' h'
    cases h' with
    | done hnone => exact absurd hfirst.occurs (hnone _ hfirst.from_start)
    | next hfirst' hrest =>
      obtain rfl := hfirst.eq hfirst'
      rw [ih hrest]

theorem Greedy.from_start {ks : List ℕ} (h : Greedy pattern source start ks) :
    ∀ k ∈ ks, start ≤ k := by
  induction h with
  | done => simp
  | next hfirst _ ih =>
    refine List.forall_mem_cons.mpr ⟨hfirst.from_start, fun k hk => ?_⟩
    have hrest := ih k hk
    have hstart := hfirst.from_start
    omega

theorem Greedy.occurs {ks : List ℕ} (h : Greedy pattern source start ks) :
    ∀ k ∈ ks, OccursAt pattern source k := by
  induction h with
  | done => simp
  | next hfirst _ ih => exact List.forall_mem_cons.mpr ⟨hfirst.occurs, ih⟩

/-- No two of the occurrences overlap. -/
theorem Greedy.pairwise {ks : List ℕ} (h : Greedy pattern source start ks) :
    ks.Pairwise fun k k' => k + pattern.length ≤ k' := by
  induction h with
  | done => exact List.Pairwise.nil
  | next _ hrest ih => exact List.pairwise_cons.mpr ⟨hrest.from_start, ih⟩

/-- A search for a nonempty pattern comes to its end. -/
theorem exists_greedy (hne : pattern ≠ []) (start : ℕ) : ∃ ks, Greedy pattern source start ks := by
  have hpos := List.length_pos_iff.mpr hne
  induction hleft : source.length - start using Nat.strongRecOn generalizing start with
  | ind left ih =>
    by_cases hoccurs : ∃ k, start ≤ k ∧ OccursAt pattern source k
    · classical
      obtain ⟨hstart, hfound⟩ := Nat.find_spec hoccurs
      have hinside := hfound.inside hne
      have hfirst : IsFirst pattern source start (Nat.find hoccurs) := by
        refine ⟨hstart, hfound, fun j hj hlt hocc => ?_⟩
        exact Nat.find_min hoccurs hlt ⟨hj, hocc⟩
      obtain ⟨ks, hks⟩ := ih _ (by omega) (Nat.find hoccurs + pattern.length) rfl
      exact ⟨_, .next hfirst hks⟩
    · refine ⟨[], .done fun k hk hocc => hoccurs ⟨k, hk, hocc⟩⟩

end Search
