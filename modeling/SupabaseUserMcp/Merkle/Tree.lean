import Mathlib.Algebra.Group.Nat.Defs
import Mathlib.Data.List.GetD
import Mathlib.Data.Nat.Log

/- Binary hash trees in which an unpaired last node is paired with itself, over
   any node type and any way to combine two nodes. A tree of `n` leaves is
   completed by that rule to a full tree of depth `⌈log₂ n⌉`; `real` sends a
   position of the full tree to the leaf that stands there. A path climbs from a
   position to the root: `climb_path` says the tree's own paths reach its root,
   `climb_sound` that a path which reaches the root is the tree's own, provided
   no two different pairs among those combined on either side collide. -/
namespace Merkle

variable {α : Type*}

/-! Levels. -/

section Levels

variable (combine : α → α → α)

/-- One level up: neighbours are combined, a last unpaired node with itself. -/
def pairUp : List α → List α
  | a :: b :: rest => combine a b :: pairUp rest
  | [a] => [combine a a]
  | [] => []

/-- The level `k` steps above the leaves. -/
def level (leaves : List α) (k : ℕ) : List α := (pairUp combine)^[k] leaves

/-- The pairs combined to obtain the next level. -/
def pairs : List α → List (α × α)
  | a :: b :: rest => (a, b) :: pairs rest
  | [a] => [(a, a)]
  | [] => []

/-- Every pair combined in the first `k` levels. -/
def treePairs (leaves : List α) : ℕ → List (α × α)
  | 0 => []
  | k + 1 => pairs leaves ++ treePairs (pairUp combine leaves) k

@[simp] theorem level_zero (leaves : List α) : level combine leaves 0 = leaves := rfl

theorem level_succ (leaves : List α) (k : ℕ) :
    level combine leaves (k + 1) = level combine (pairUp combine leaves) k := rfl

@[simp] theorem length_pairUp : ∀ l : List α, (pairUp combine l).length = (l.length + 1) / 2
  | a :: b :: rest => by
    simp only [pairUp, List.length_cons, length_pairUp rest]
    omega
  | [a] => by simp [pairUp]
  | [] => by simp [pairUp]

theorem pairUp_eq_map_pairs : ∀ l : List α,
    pairUp combine l = (pairs l).map fun p => combine p.1 p.2
  | a :: b :: rest => by simp [pairUp, pairs, pairUp_eq_map_pairs rest]
  | [a] => rfl
  | [] => rfl

/-- The two nodes below index `i` of the next level. -/
def children [Inhabited α] (l : List α) (i : ℕ) : α × α :=
  (l.getD (2 * i) default, l.getD (min (2 * i + 1) (l.length - 1)) default)

theorem getElem?_pairs [Inhabited α] : ∀ (l : List α) (i : ℕ), i < (l.length + 1) / 2 →
    (pairs l)[i]? = some (children l i)
  | a :: b :: rest, 0, _ => by simp [pairs, children]
  | a :: b :: rest, i + 1, h => by
    have hi : i < (rest.length + 1) / 2 := by simp only [List.length_cons] at h; omega
    have hpos : 0 < rest.length := by omega
    rw [pairs, List.getElem?_cons_succ, getElem?_pairs rest i hi, children, children]
    have h2 : min (2 * (i + 1) + 1) ((a :: b :: rest).length - 1) =
        min (2 * i + 1) (rest.length - 1) + 1 + 1 := by
      simp only [List.length_cons]; omega
    rw [h2, Nat.mul_succ]
    simp
  | [a], 0, _ => by simp [pairs, children]
  | [a], i + 1, h => by simp at h
  | [], i, h => by simp at h

/-- The node at an index of the next level, from the two nodes below it. -/
theorem getD_pairUp [Inhabited α] (l : List α) {i : ℕ} (h : i < (l.length + 1) / 2) :
    (pairUp combine l).getD i default =
      combine (children l i).1 (children l i).2 := by
  simp [pairUp_eq_map_pairs, List.getD_eq_getElem?_getD, getElem?_pairs l i h]

/-- The depth of a level shrinks to one node after `⌈log₂ n⌉` steps, not before. -/
theorem clog_pairUp {l : List α} (h : 1 < l.length) :
    Nat.clog 2 l.length = Nat.clog 2 (pairUp combine l).length + 1 := by
  rw [length_pairUp, Nat.clog_of_two_le (by omega) h]
  rfl

theorem length_level_clog : ∀ (d : ℕ) (l : List α), l ≠ [] → Nat.clog 2 l.length = d →
    (level combine l d).length = 1
  | 0, l, hne, hd => by
    have hpos := List.length_pos_iff.mpr hne
    have : l.length ≤ 1 := by
      by_contra hlt
      have := Nat.clog_pos (b := 2) (by omega) (show 2 ≤ l.length by omega)
      omega
    simp only [level_zero]; omega
  | d + 1, l, hne, hd => by
    have hlt : 1 < l.length := by
      by_contra hle
      rw [Nat.clog_of_right_le_one (by omega)] at hd
      omega
    rw [level_succ]
    refine length_level_clog d (pairUp combine l) ?_ ?_
    · intro hnil
      have := length_pairUp combine l
      rw [hnil] at this
      simp at this
      omega
    · have := clog_pairUp combine hlt
      omega

end Levels

/-! Positions of the completed tree. -/

/-- The index, among `n` nodes, of the node that stands at position `i` of the
completed tree's level, `k` steps below the root. -/
def real (n : ℕ) : ℕ → ℕ → ℕ
  | 0, _ => 0
  | k + 1, i => min (2 * real ((n + 1) / 2) k (i / 2) + i % 2) (n - 1)

/-- The position next to `i` under the same parent. -/
def sibling (i : ℕ) : ℕ := if i % 2 = 1 then i - 1 else i + 1

theorem real_lt : ∀ {n : ℕ} (k i : ℕ), 0 < n → real n k i < n
  | n, 0, i, h => h
  | n, k + 1, i, h => by simp only [real]; omega

/-- A position below `n` is its own index. -/
theorem real_of_lt : ∀ {n : ℕ} (k i : ℕ), i < n → n ≤ 2 ^ k → real n k i = i
  | n, 0, i, h, hn => by simp at hn; simp [real]; omega
  | n, k + 1, i, h, hn => by
    have hhalf : (n + 1) / 2 ≤ 2 ^ k := by rw [Nat.pow_succ] at hn; omega
    rw [real, real_of_lt k (i / 2) (by omega) hhalf]
    omega

/-- The parent's index, from a position or from the one next to it. -/
theorem sibling_div (i : ℕ) : sibling i / 2 = i / 2 := by
  unfold sibling; split <;> omega

theorem sibling_mod (i : ℕ) : sibling i % 2 = 1 - i % 2 := by
  unfold sibling; split <;> omega

/-! Paths. -/

/-- On which side of the climbing node its sibling stands. -/
inductive Side where
  | left
  | right
  deriving DecidableEq, Repr

/-- The side of the sibling of a node at position `i`. -/
def sideOf (i : ℕ) : Side := if i % 2 = 1 then .left else .right

/-- One step towards the root. -/
structure Step (α : Type*) where
  side : Side
  sibling : α
  deriving DecidableEq

/-- The two nodes a step combines, in order. -/
def Step.pair (s : Step α) (x : α) : α × α :=
  match s.side with
  | .left => (s.sibling, x)
  | .right => (x, s.sibling)

section Climb

variable (combine : α → α → α)

/-- The node a step leads to. -/
def Step.apply (s : Step α) (x : α) : α := combine (s.pair x).1 (s.pair x).2

/-- A step is determined by its side and the two nodes it combines. -/
theorem Step.pair_inj {s t : Step α} {x y : α} (hside : s.side = t.side)
    (h : s.pair x = t.pair y) : x = y ∧ s = t := by
  obtain ⟨side, a⟩ := s
  obtain ⟨_, b⟩ := t
  obtain rfl : side = _ := hside
  cases side <;> simp_all [Step.pair]

/-- The node a sequence of steps leads to. -/
def climb : α → List (Step α) → α
  | x, [] => x
  | x, s :: rest => climb (s.apply combine x) rest

/-- The pairs a climb combines. -/
def climbPairs : α → List (Step α) → List (α × α)
  | _, [] => []
  | x, s :: rest => s.pair x :: climbPairs (s.apply combine x) rest

/-- The steps from position `i` of the completed tree to the node `k` levels above. -/
def path [Inhabited α] : List α → ℕ → ℕ → List (Step α)
  | _, 0, _ => []
  | l, k + 1, i =>
    ⟨sideOf i, l.getD (real l.length (k + 1) (Merkle.sibling i)) default⟩ ::
      path (pairUp combine l) k (i / 2)

@[simp] theorem length_path [Inhabited α] : ∀ (l : List α) (k i : ℕ),
    (path combine l k i).length = k
  | _, 0, _ => rfl
  | l, k + 1, i => by simp [path, length_path]

/-- Every sibling on a path of the tree is one of its nodes. -/
theorem mem_path [Inhabited α] : ∀ {l : List α} {k i : ℕ} {s : Step α}, l ≠ [] →
    s ∈ path combine l k i → ∃ j < k, s.sibling ∈ level combine l j
  | l, 0, i, s, _, h => by simp [path] at h
  | l, k + 1, i, s, hne, h => by
    rw [path, List.mem_cons] at h
    rcases h with rfl | h
    · refine ⟨0, by omega, ?_⟩
      have hlt := real_lt (k + 1) (Merkle.sibling i) (List.length_pos_iff.mpr hne)
      simp [List.getD_eq_getElem?_getD, hlt]
    · have hne' : pairUp combine l ≠ [] := by
        rw [← List.length_pos_iff, length_pairUp]
        have := List.length_pos_iff.mpr hne
        omega
      obtain ⟨j, hj, hmem⟩ := mem_path hne' h
      exact ⟨j + 1, by omega, by rwa [level_succ]⟩

/-- The pair under a parent of the completed tree, seen from either child. -/
theorem pair_path [Inhabited α] (l : List α) (k i : ℕ) (hl : l ≠ []) :
    (Step.mk (sideOf i) (l.getD (real l.length (k + 1) (Merkle.sibling i)) default)).pair
        (l.getD (real l.length (k + 1) i) default) =
      children l (real ((l.length + 1) / 2) k (i / 2)) := by
  have hpos := List.length_pos_iff.mpr hl
  have hlt := real_lt (n := (l.length + 1) / 2) k (i / 2) (by omega)
  have hmin : min (2 * real ((l.length + 1) / 2) k (i / 2)) (l.length - 1) =
      2 * real ((l.length + 1) / 2) k (i / 2) := by omega
  rcases Nat.mod_two_eq_zero_or_one i with hi | hi
  · simp [Step.pair, sideOf, real, children, sibling_div, sibling_mod, hi, hmin]
  · simp [Step.pair, sideOf, real, children, sibling_div, sibling_mod, hi, hmin]

/-- The tree's own paths reach its nodes. -/
theorem climb_path [Inhabited α] : ∀ (k : ℕ) (l : List α) (i : ℕ), l ≠ [] →
    (level combine l k).length = 1 →
    climb combine (l.getD (real l.length k i) default) (path combine l k i) =
      (level combine l k).getD 0 default
  | 0, l, i, _, _ => by simp [climb, path, real]
  | k + 1, l, i, hl, hone => by
    have hpos := List.length_pos_iff.mpr hl
    have hne : pairUp combine l ≠ [] := by
      rw [← List.length_pos_iff, length_pairUp]; omega
    have hlt := real_lt (n := (l.length + 1) / 2) k (i / 2) (by omega)
    rw [path, climb, Step.apply, pair_path l k i hl, level_succ, ← getD_pairUp combine l hlt]
    rw [level_succ] at hone
    have := climb_path k (pairUp combine l) (i / 2) hne hone
    rwa [length_pairUp] at this

/-- A path of the tree combines only pairs of the tree. -/
theorem climbPairs_path [Inhabited α] : ∀ (k : ℕ) (l : List α) (i : ℕ), l ≠ [] →
    ∀ p ∈ climbPairs combine (l.getD (real l.length k i) default) (path combine l k i),
      p ∈ treePairs combine l k
  | 0, l, i, _, p, hp => by simp [path, climbPairs] at hp
  | k + 1, l, i, hl, p, hp => by
    have hpos := List.length_pos_iff.mpr hl
    have hne : pairUp combine l ≠ [] := by
      rw [← List.length_pos_iff, length_pairUp]; omega
    have hlt := real_lt (n := (l.length + 1) / 2) k (i / 2) (by omega)
    rw [path, climbPairs, List.mem_cons, Step.apply, pair_path l k i hl,
      ← getD_pairUp combine l hlt] at hp
    rw [treePairs, List.mem_append]
    rcases hp with rfl | hp
    · exact .inl (List.mem_of_getElem? (getElem?_pairs l _ hlt))
    · have := climbPairs_path k (pairUp combine l) (i / 2) hne p
      rw [length_pairUp] at this
      exact .inr (this hp)

/-- A climb whose sides follow a position and which reaches the root started at
the node of that position and met the tree's own siblings: nothing collides
among the pairs the climb and the tree combine. -/
theorem climb_sound [Inhabited α] : ∀ (steps : List (Step α)) (l : List α) (i : ℕ) (x : α),
    l ≠ [] → (level combine l steps.length).length = 1 →
    (∀ j (h : j < steps.length), steps[j].side = sideOf (i / 2 ^ j)) →
    (∀ p ∈ climbPairs combine x steps, ∀ q ∈ treePairs combine l steps.length,
      combine p.1 p.2 = combine q.1 q.2 → p = q) →
    climb combine x steps = (level combine l steps.length).getD 0 default →
    x = l.getD (real l.length steps.length i) default ∧ steps = path combine l steps.length i
  | [], l, i, x, _, _, _, _, h => by simpa [climb, path, real] using h
  | s :: rest, l, i, x, hl, hone, hside, hinj, h => by
    have hpos := List.length_pos_iff.mpr hl
    have hne : pairUp combine l ≠ [] := by
      rw [← List.length_pos_iff, length_pairUp]; omega
    have hlt := real_lt (n := (l.length + 1) / 2) rest.length (i / 2) (by omega)
    rw [List.length_cons, level_succ] at hone h
    -- The steps above the first one, over the next level.
    obtain ⟨hx, hrest⟩ := climb_sound rest (pairUp combine l) (i / 2) (s.apply combine x) hne hone
      (fun j hj => by
        have := hside (j + 1) (by simpa using hj)
        rwa [List.getElem_cons_succ, Nat.pow_succ', ← Nat.div_div_eq_div_mul] at this)
      (fun p hp q hq => hinj p (by simp [climbPairs, hp]) q (by simp [treePairs, hq])) h
    -- The first step combines the two children of the node it leads to.
    rw [length_pairUp, getD_pairUp combine l hlt] at hx
    have hpair := hinj (s.pair x) (by simp [climbPairs]) _ (by
      rw [List.length_cons, treePairs, List.mem_append]
      exact .inl (List.mem_of_getElem? (getElem?_pairs l _ hlt))) hx
    rw [← pair_path l rest.length i hl] at hpair
    have hfirst : s.side = sideOf i := (hside 0 (by simp)).trans (by simp)
    obtain ⟨hleaf, rfl⟩ := Step.pair_inj hfirst hpair
    exact ⟨hleaf, by rw [List.length_cons, path, ← hrest]⟩

/-! Paths of different lengths. -/

theorem climb_append : ∀ (first rest : List (Step α)) (x : α),
    climb combine x (first ++ rest) = climb combine (climb combine x first) rest
  | [], _, _ => rfl
  | s :: first, rest, x => climb_append first rest (s.apply combine x)

theorem climbPairs_append : ∀ (first rest : List (Step α)) (x : α),
    climbPairs combine x (first ++ rest) =
      climbPairs combine x first ++ climbPairs combine (climb combine x first) rest
  | [], _, _ => rfl
  | s :: first, rest, x => by
    simp [climbPairs, climb, climbPairs_append first rest (s.apply combine x)]

/-- A climb of at least one step ends in a combined pair. -/
theorem climb_mem_pairs : ∀ (steps : List (Step α)) (x : α), steps ≠ [] →
    ∃ p ∈ climbPairs combine x steps, climb combine x steps = combine p.1 p.2
  | [s], x, _ => ⟨s.pair x, by simp [climbPairs], rfl⟩
  | s :: t :: rest, x, _ => by
    obtain ⟨p, hp, h⟩ := climb_mem_pairs (t :: rest) (s.apply combine x) (by simp)
    exact ⟨p, by rw [climbPairs]; exact List.mem_cons_of_mem _ hp, h⟩

theorem treePairs_level : ∀ (j k : ℕ) (l : List α), ∀ q ∈ treePairs combine (level combine l j) k,
    q ∈ treePairs combine l (j + k)
  | 0, k, l, q, h => by simpa using h
  | j + 1, k, l, q, h => by
    rw [level_succ] at h
    rw [Nat.succ_add, treePairs, List.mem_append]
    exact .inr (treePairs_level j k (pairUp combine l) q h)

theorem treePairs_mono (k : ℕ) : ∀ (j : ℕ) (l : List α), ∀ q ∈ treePairs combine l j,
    q ∈ treePairs combine l (j + k)
  | 0, l, q, h => by simp [treePairs] at h
  | j + 1, l, q, h => by
    rw [treePairs, List.mem_append] at h
    rw [Nat.succ_add, treePairs, List.mem_append]
    exact h.imp id (treePairs_mono k j (pairUp combine l) q)

/-- Above the leaves, every node is a combined pair. -/
theorem mem_level_succ : ∀ (j : ℕ) (l : List α), ∀ a ∈ level combine l (j + 1),
    ∃ q ∈ treePairs combine l (j + 1), a = combine q.1 q.2
  | 0, l, a, h => by
    rw [level_succ, level_zero, pairUp_eq_map_pairs, List.mem_map] at h
    obtain ⟨q, hq, rfl⟩ := h
    exact ⟨q, by simp [treePairs, hq], rfl⟩
  | j + 1, l, a, h => by
    rw [level_succ] at h
    obtain ⟨q, hq, rfl⟩ := mem_level_succ j (pairUp combine l) a h
    exact ⟨q, by rw [treePairs, List.mem_append]; exact .inr hq, rfl⟩

theorem level_ne_nil : ∀ (j : ℕ) {l : List α}, l ≠ [] → level combine l j ≠ []
  | 0, l, h => h
  | j + 1, l, h => by
    rw [level_succ]
    refine level_ne_nil j ?_
    rw [← List.length_pos_iff, length_pairUp]
    have := List.length_pos_iff.mpr h
    omega

/-- A climb from a node no pair yields, over leaves no pair of the climb yields,
has as many steps as the tree has levels. -/
theorem climb_length [Inhabited α] {steps : List (Step α)} {l : List α} {d i : ℕ} {x : α}
    (hl : l ≠ []) (hone : (level combine l d).length = 1)
    (hside : ∀ j (h : j < steps.length), steps[j].side = sideOf (i / 2 ^ j))
    (hinj : ∀ p ∈ climbPairs combine x steps, ∀ q ∈ treePairs combine l d,
      combine p.1 p.2 = combine q.1 q.2 → p = q)
    (hbottom : ∀ q ∈ treePairs combine l d, x ≠ combine q.1 q.2)
    (hleaf : ∀ p ∈ climbPairs combine x steps, combine p.1 p.2 ∉ l)
    (h : climb combine x steps = (level combine l d).getD 0 default) : steps.length = d := by
  rcases Nat.lt_trichotomy steps.length d with hlt | heq | hgt
  · -- Too short: the climb starts at an inner node.
    exfalso
    obtain ⟨j, rfl⟩ : ∃ j, d = (j + 1) + steps.length := ⟨d - steps.length - 1, by omega⟩
    have hlevel : level combine l (j + 1 + steps.length) =
        level combine (level combine l (j + 1)) steps.length := by
      simp [level, Nat.add_comm (j + 1), Function.iterate_add_apply]
    rw [hlevel] at hone h
    obtain ⟨hx, -⟩ := climb_sound combine steps (level combine l (j + 1)) i x
      (level_ne_nil combine _ hl) hone hside
      (fun p hp q hq => hinj p hp q (treePairs_level combine _ _ l q hq)) h
    have hpos := List.length_pos_iff.mpr (level_ne_nil combine (j + 1) hl)
    have hreal := real_lt steps.length i hpos
    rw [List.getD_eq_getElem _ _ hreal] at hx
    obtain ⟨q, hq, heq⟩ := mem_level_succ combine j l _ (List.getElem_mem hreal)
    exact hbottom q (treePairs_mono combine _ _ l q hq) (hx.trans heq)
  · exact heq
  · -- Too long: after its first steps the climb stands at a leaf.
    exfalso
    obtain ⟨first, rest, rfl, hrest⟩ : ∃ first rest, steps = first ++ rest ∧ rest.length = d :=
      ⟨steps.take (steps.length - d), steps.drop (steps.length - d),
        (List.take_append_drop _ _).symm, by simp; omega⟩
    have hfirst : first ≠ [] := by rintro rfl; simp at hgt; omega
    rw [climb_append] at h
    subst hrest
    obtain ⟨hx, -⟩ := climb_sound combine rest l (i / 2 ^ first.length) (climb combine x first) hl
      hone (fun j hj => by
        have := hside (first.length + j) (by simp; omega)
        rw [List.getElem_append_right (by omega)] at this
        simpa [Nat.pow_add, Nat.div_div_eq_div_mul] using this)
      (fun p hp q hq => hinj p (by simp [climbPairs_append, hp]) q hq) h
    obtain ⟨p, hp, heq⟩ := climb_mem_pairs combine first x hfirst
    have hreal := real_lt rest.length (i / 2 ^ first.length) (List.length_pos_iff.mpr hl)
    rw [List.getD_eq_getElem _ _ hreal, heq] at hx
    exact hleaf p (by simp [climbPairs_append, hp]) (hx ▸ List.getElem_mem hreal)

/-- Two climbs of one length on the same sides that reach one node are the same
climb from the same node: no two different pairs among theirs collide. -/
theorem climb_inj : ∀ {first second : List (Step α)} {x y : α},
    first.map Step.side = second.map Step.side →
    (∀ p ∈ climbPairs combine x first, ∀ q ∈ climbPairs combine y second,
      combine p.1 p.2 = combine q.1 q.2 → p = q) →
    climb combine x first = climb combine y second → x = y ∧ first = second
  | [], [], x, y, _, _, h => ⟨h, rfl⟩
  | s :: first, t :: second, x, y, hsides, hinj, h => by
    obtain ⟨hside, hsides⟩ := List.cons.inj hsides
    -- The steps above the first ones agree, so the first ones lead to one node.
    obtain ⟨happly, rfl⟩ := climb_inj hsides
      (fun p hp q hq => hinj p (by simp [climbPairs, hp]) q (by simp [climbPairs, hq])) h
    have hpair := hinj (s.pair x) (by simp [climbPairs]) (t.pair y) (by simp [climbPairs]) happly
    obtain ⟨hnode, rfl⟩ := Step.pair_inj hside hpair
    exact ⟨hnode, rfl⟩

/-! The duplication rule. -/

/-- The climb declares position `i` of `m` nodes: every sibling stands on the
side the position asks for, and the last node of an odd level is its own sibling. -/
def Canonical : ℕ → ℕ → α → List (Step α) → Prop
  | _, _, _, [] => True
  | m, i, x, s :: rest =>
    s.side = sideOf i ∧ (m % 2 = 1 → i = m - 1 → s.sibling = x) ∧
      Canonical ((m + 1) / 2) (i / 2) (s.apply combine x) rest

theorem Canonical.side : ∀ {m i : ℕ} {x : α} {steps : List (Step α)},
    Canonical combine m i x steps →
    ∀ j (h : j < steps.length), steps[j].side = sideOf (i / 2 ^ j)
  | m, i, x, s :: rest, h, 0, _ => by simpa using h.1
  | m, i, x, s :: rest, h, j + 1, hj => by
    have := Canonical.side h.2.2 j (by simpa using hj)
    rwa [Nat.div_div_eq_div_mul, ← Nat.pow_succ'] at this

/-- Two climbs of one length from one position have the same sides. -/
theorem Canonical.sides_eq : ∀ {m n i : ℕ} {x y : α} {first second : List (Step α)},
    Canonical combine m i x first → Canonical combine n i y second →
    first.length = second.length → first.map Step.side = second.map Step.side
  | m, n, i, x, y, [], [], _, _, _ => rfl
  | m, n, i, x, y, s :: first, t :: second, hfirst, hsecond, hlength => by
    have hrest := Canonical.sides_eq hfirst.2.2 hsecond.2.2 (by simpa using hlength)
    rw [List.map_cons, List.map_cons, hrest, hfirst.1, hsecond.1]

/-- The sibling of a position that is an index of the tree. -/
theorem real_sibling {n k i : ℕ} (hi : i < n) (hn : n ≤ 2 ^ (k + 1)) :
    real n (k + 1) (Merkle.sibling i) =
      if i % 2 = 1 then i - 1 else if i + 1 < n then i + 1 else i := by
  have hhalf : (n + 1) / 2 ≤ 2 ^ k := by rw [Nat.pow_succ] at hn; omega
  rw [real, sibling_div, sibling_mod, real_of_lt k (i / 2) (by omega) hhalf]
  split <;> [skip; split] <;> omega

/-- The tree's own path from one of its leaves obeys the duplication rule. -/
theorem canonical_path [Inhabited α] : ∀ (k : ℕ) (l : List α) (i : ℕ), i < l.length →
    l.length ≤ 2 ^ k → Canonical combine l.length i (l.getD i default) (path combine l k i)
  | 0, l, i, _, _ => trivial
  | k + 1, l, i, hi, hn => by
    have hhalf : (l.length + 1) / 2 ≤ 2 ^ k := by rw [Nat.pow_succ] at hn; omega
    have hl : l ≠ [] := by rintro rfl; simp at hi
    refine ⟨rfl, fun hodd hlast => ?_, ?_⟩
    · show l.getD (real l.length (k + 1) (Merkle.sibling i)) default = _
      rw [real_sibling hi hn, if_neg (by omega), if_neg (by omega)]
    · have hpair := pair_path l k i hl
      rw [real_of_lt (k + 1) i hi hn, real_of_lt k (i / 2) (by omega) hhalf] at hpair
      rw [Step.apply, hpair, ← getD_pairUp combine l (by omega)]
      have := canonical_path k (pairUp combine l) (i / 2) (by simp; omega) (by simpa using hhalf)
      rwa [length_pairUp] at this

/-- The first node of a level is never its own sibling, however many nodes the
level is declared to have. -/
theorem canonical_path_zero [Inhabited α] : ∀ (k m : ℕ) (l : List α) (x : α),
    Nat.clog 2 m = k → Canonical combine m 0 x (path combine l k 0)
  | 0, _, _, _, _ => trivial
  | k + 1, m, l, x, hm => by
    have hlt : 1 < m := by
      by_contra hle
      rw [Nat.clog_of_right_le_one (by omega)] at hm
      omega
    rw [Nat.clog_of_two_le (by omega) hlt] at hm
    exact ⟨rfl, fun hodd hlast => by omega,
      canonical_path_zero k ((m + 1) / 2) (pairUp combine l) _ (Nat.succ.inj hm)⟩

/-- A level of a power of two has no node without a sibling. -/
theorem canonical_path_two_pow [Inhabited α] : ∀ (k : ℕ) (l : List α) (i : ℕ) (x : α),
    Canonical combine (2 ^ k) i x (path combine l k i)
  | 0, _, _, _ => trivial
  | k + 1, l, i, x => by
    have hhalf : (2 ^ (k + 1) + 1) / 2 = 2 ^ k := by rw [Nat.pow_succ]; omega
    refine ⟨rfl, fun hodd => by rw [Nat.pow_succ] at hodd; omega, ?_⟩
    rw [hhalf]
    exact canonical_path_two_pow k (pairUp combine l) (i / 2) _

end Climb

end Merkle
