import Mathlib.Data.List.Basic
import Mathlib.Order.Lattice
import Mathlib.Data.Int.Order.Basic

/- A limit on how often something passes. A log of passes is pruned to a window
   that ends now and a pass is let through while the log is below the limit. The
   log need only keep what is inside the window of the last check for no window
   anywhere to hold more passes than the limit. -/
namespace Process.SlidingWindow

/-- The entries of a log in the window of a width that ends now. -/
def recent (width now : ℤ) (log : List ℤ) : List ℤ := log.filter fun t => now - width < t

/-- How many of the passes are in the window of a width that ends at a time. -/
def countIn (width t : ℤ) (passes : List ℤ) : ℕ :=
  (passes.filter fun p => t - width < p ∧ p ≤ t).length

/-- A log that stands for all passes up to a time. -/
structure Tracks (width last : ℤ) (passes log : List ℤ) : Prop where
  log_eq : log = recent width last passes
  le_last : ∀ p ∈ passes, p ≤ last

/-- No window holds more than a limit. -/
def Within (limit : ℕ) (width : ℤ) (passes : List ℤ) : Prop :=
  ∀ t, countIn width t passes ≤ limit

section Rules

variable {limit : ℕ} {width last now : ℤ} {passes log : List ℤ}

theorem tracks_nil (now : ℤ) : Tracks width now [] [] := ⟨rfl, nofun⟩

theorem within_nil : Within limit width [] := fun _ => Nat.zero_le _

theorem Within.of_sublist {part : List ℤ} (h : Within limit width passes)
    (hpart : part.Sublist passes) : Within limit width part :=
  fun t => ((hpart.filter _).length_le).trans (h t)

/-- A later window keeps of a log what it keeps of all passes. -/
theorem Tracks.recent_eq (h : Tracks width last passes log) (hlast : last ≤ now) :
    recent width now log = recent width now passes := by
  rw [h.log_eq, recent, recent, List.filter_filter, recent]
  refine List.filter_congr fun p _ => ?_
  simp only [← Bool.decide_and, decide_eq_decide]
  constructor
  · exact And.left
  · intro hp
    exact ⟨hp, by omega⟩

/-- A check that lets nothing through prunes the log. -/
theorem Tracks.prune (h : Tracks width last passes log) (hlast : last ≤ now) :
    Tracks width now passes (recent width now log) :=
  ⟨h.recent_eq hlast, fun p hp => (h.le_last p hp).trans hlast⟩

/-- A pass is the newest entry of the log. -/
theorem Tracks.pass (h : Tracks width last passes log) (hlast : last ≤ now) (hwidth : 0 < width) :
    Tracks width now (passes ++ [now]) (recent width now log ++ [now]) := by
  refine ⟨?_, fun p hp => ?_⟩
  · have hnow : now - width < now := by omega
    rw [h.recent_eq hlast, recent, recent, List.filter_append]
    simp [hnow]
  · rcases List.mem_append.mp hp with hp | hp
    · exact (h.le_last p hp).trans hlast
    · exact (List.mem_singleton.mp hp).le

/-- A pass below the limit leaves no window above it. -/
theorem Within.pass (h : Within limit width passes) (htracks : Tracks width last passes log)
    (hlast : last ≤ now) (hbelow : (recent width now log).length < limit) :
    Within limit width (passes ++ [now]) := by
  intro t
  rw [countIn, List.filter_append, List.length_append]
  by_cases ht : now ≤ t
  · have hcount : countIn width t passes ≤ (recent width now log).length := by
      rw [htracks.recent_eq hlast]
      refine (List.monotone_filter_right passes fun p hp => ?_).length_le
      simp only [decide_eq_true_eq] at hp ⊢
      omega
    have hone := List.length_filter_le (fun p => decide (t - width < p ∧ p ≤ t)) [now]
    rw [countIn] at hcount
    simp only [List.length_cons, List.length_nil] at hone
    omega
  · have hnone : [now].filter (fun p => decide (t - width < p ∧ p ≤ t)) = [] := by
      simp [ht]
    rw [hnone]
    exact h t

end Rules

end Process.SlidingWindow
