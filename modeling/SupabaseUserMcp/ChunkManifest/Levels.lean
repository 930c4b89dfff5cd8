import SupabaseUserMcp.ChunkManifest

/- What the three tree computations of the module compute, in the words of the
   tree library: the levels `buildMerkleLevels` pushes are the tree's levels,
   the nodes `buildProofNodesFromLevels` pushes are the tree's path, and the
   loop of `verifyArtifactChunkProof` climbs exactly the canonical paths. -/
namespace ChunkManifest

open Js

/-! The levels. -/

/-- The root the module assigns to a list of leaf digests. -/
def rootDigest (sha : Sha256) (leaves : List Bytes) : Bytes :=
  if leaves.length = 0 then emptyMerkleRootDigest sha
  else (Merkle.level (parentDigest sha) leaves (Nat.clog 2 leaves.length)).getD 0 default

/-- The levels of a nonempty tree, leaves first. -/
def treeLevels (sha : Sha256) (leaves : List Bytes) : ℕ → List (List Bytes)
  | 0 => [leaves]
  | d + 1 => leaves :: treeLevels sha (Merkle.pairUp (parentDigest sha) leaves) d

theorem length_treeLevels (sha : Sha256) : ∀ (d : ℕ) (leaves : List Bytes),
    (treeLevels sha leaves d).length = d + 1 := by
  intro d
  induction d with
  | zero => intro leaves; rfl
  | succ d ih => intro leaves; simp [treeLevels, ih]

theorem getLast?_treeLevels (sha : Sha256) : ∀ (d : ℕ) (leaves : List Bytes),
    (treeLevels sha leaves d).getLast? = some (Merkle.level (parentDigest sha) leaves d) := by
  intro d
  induction d with
  | zero => intro leaves; rfl
  | succ d ih =>
    intro leaves
    rw [treeLevels, List.getLast?_cons, ih, Merkle.level_succ]
    rfl

/-- The `while` loop runs once for every level but the last and never fails. -/
theorem growMerkleLevels_eq (sha : Sha256) : ∀ (d : ℕ) (leaves : List Bytes), leaves ≠ [] →
    Nat.clog 2 leaves.length = d →
    growMerkleLevels sha leaves = .ok (treeLevels sha leaves d) := by
  intro d
  induction d with
  | zero =>
    intro leaves hne hd
    have hone := Merkle.length_level_clog (parentDigest sha) 0 leaves hne hd
    rw [growMerkleLevels, dif_neg (by simpa using hone.le)]
    rfl
  | succ d ih =>
    intro leaves hne hd
    have hlt : 1 < leaves.length := by
      by_contra hle
      rw [Nat.clog_of_right_le_one (by omega)] at hd
      omega
    have hclog := Merkle.clog_pairUp (parentDigest sha) hlt
    have hnext := ih (Merkle.pairUp (parentDigest sha) leaves)
      (Merkle.level_ne_nil (parentDigest sha) 1 hne) (by omega)
    rw [growMerkleLevels, dif_pos hlt]
    split
    · next e he => rw [nextMerkleLevel_eq] at he; cases he
    · next next he =>
      rw [nextMerkleLevel_eq] at he
      obtain rfl := Except.ok.inj he
      rw [hnext]
      rfl

/-- Building the levels never fails, and the last level holds the root. -/
theorem buildMerkleLevels_eq (sha : Sha256) (leaves : List Bytes) :
    ∃ levels, buildMerkleLevels sha leaves = .ok levels ∧
      lastRoot levels = some (rootDigest sha leaves) ∧
      levels.length = Nat.clog 2 leaves.length + 1 ∧
      (leaves ≠ [] → levels = treeLevels sha leaves (Nat.clog 2 leaves.length)) := by
  by_cases hnil : leaves = []
  · subst hnil
    exact ⟨_, rfl, rfl, by simp, fun h => absurd rfl h⟩
  · have hlen : leaves.length ≠ 0 := fun h => hnil (List.length_eq_zero_iff.mp h)
    refine ⟨_, by rw [buildMerkleLevels, if_neg hlen]; exact growMerkleLevels_eq sha _ leaves hnil rfl,
      ?_, length_treeLevels sha _ leaves, fun _ => rfl⟩
    have hone := Merkle.length_level_clog (parentDigest sha) _ leaves hnil rfl
    simp [lastRoot, getLast?_treeLevels, rootDigest, hlen, hone]

/-- Every node of a tree over digests is a digest. -/
theorem length_mem_level (sha : Sha256) {leaves : List Bytes}
    (h : ∀ leaf ∈ leaves, leaf.length = 32) :
    ∀ d, ∀ node ∈ Merkle.level (parentDigest sha) leaves d, node.length = 32 := by
  intro d node hnode
  cases d with
  | zero => exact h node hnode
  | succ d =>
    obtain ⟨q, -, rfl⟩ := Merkle.mem_level_succ (parentDigest sha) d leaves node hnode
    exact sha.length_digest _

theorem length_rootDigest (sha : Sha256) {leaves : List Bytes}
    (h : ∀ leaf ∈ leaves, leaf.length = 32) : (rootDigest sha leaves).length = 32 := by
  by_cases hnil : leaves = []
  · simp [hnil, rootDigest, emptyMerkleRootDigest]
  · have hlen : leaves.length ≠ 0 := fun h => hnil (List.length_eq_zero_iff.mp h)
    have hone := Merkle.length_level_clog (parentDigest sha) _ leaves hnil rfl
    rw [rootDigest, if_neg hlen, List.getD_eq_getElem _ _ (by omega)]
    exact length_mem_level sha h _ _ (List.getElem_mem _)

/-! Proof nodes. -/

/-- The position a node records for a side. -/
def positionOf : Merkle.Side → Text
  | .left => leftPosition
  | .right => rightPosition

/-- A step of the tree as a proof node. -/
def nodeOf (step : Merkle.Step Bytes) : ArtifactChunkMerkleProofNode :=
  ⟨positionOf step.side, toHex step.sibling⟩

theorem positionOf_injective : Function.Injective positionOf := by
  intro a b h
  cases a <;> cases b <;> first | rfl | exact absurd h (by decide)

/-- From a leaf of the tree, the nodes pushed are those of the tree's path. -/
theorem buildProofNodesFromLevels_eq (sha : Sha256) : ∀ (d : ℕ) (leaves : List Bytes) (i : ℕ),
    i < leaves.length → leaves.length ≤ 2 ^ d →
    buildProofNodesFromLevels (treeLevels sha leaves d) i =
      .ok ((Merkle.path (parentDigest sha) leaves d i).map nodeOf) := by
  intro d
  induction d with
  | zero => intro leaves i _ _; rfl
  | succ d ih =>
    intro leaves i hi hn
    have hhalf : (leaves.length + 1) / 2 ≤ 2 ^ d := by rw [Nat.pow_succ] at hn; omega
    have hrest := ih (Merkle.pairUp (parentDigest sha) leaves) (i / 2) (by simp; omega)
      (by simpa using hhalf)
    obtain ⟨above, levels, hlevels⟩ : ∃ above levels,
        treeLevels sha (Merkle.pairUp (parentDigest sha) leaves) d = above :: levels := by
      cases d <;> exact ⟨_, _, rfl⟩
    rw [hlevels] at hrest
    rw [treeLevels, hlevels, buildProofNodesFromLevels, hrest, Merkle.path,
      Merkle.real_sibling hi hn]
    · by_cases hodd : i % 2 = 1
      · have hlt : i - 1 < leaves.length := by omega
        simp [hodd, hlt, nodeOf, positionOf, Merkle.sideOf]
      · by_cases hlast : i + 1 < leaves.length
        · simp [hodd, hlast, nodeOf, positionOf, Merkle.sideOf]
        · simp [hodd, hlast, hi, nodeOf, positionOf, Merkle.sideOf]
    · simp

/-- The width the walk ends with. -/
def widthAfter (width : ℕ) : ℕ → ℕ
  | 0 => width
  | k + 1 => widthAfter ((width + 1) / 2) k

theorem widthAfter_clog : ∀ (d width : ℕ), 0 < width → Nat.clog 2 width = d →
    widthAfter width d = 1 := by
  intro d
  induction d with
  | zero =>
    intro width hpos hd
    have hle : ¬ 2 ≤ width := fun h => by
      have := Nat.clog_pos (b := 2) (by omega) h
      omega
    rw [widthAfter]
    omega
  | succ d ih =>
    intro width hpos hd
    have hlt : 1 < width := by
      by_contra hle
      rw [Nat.clog_of_right_le_one (by omega)] at hd
      omega
    rw [Nat.clog_of_two_le (by omega) hlt] at hd
    exact ih ((width + 1) / 2) (by omega) (Nat.succ.inj hd)

theorem positionOf_sideOf (index : ℕ) :
    positionOf (Merkle.sideOf index) = if index % 2 = 1 then leftPosition else rightPosition := by
  unfold Merkle.sideOf
  split <;> rfl

/-- One iteration of the walk, on a node that stands for a step. -/
theorem walkProof_cons (sha : Sha256) (step : Merkle.Step Bytes)
    (rest : List ArtifactChunkMerkleProofNode) (current : Bytes) (index width : ℕ) :
    walkProof sha current index width (nodeOf step :: rest) =
      if step.side = Merkle.sideOf index ∧
          (width % 2 = 1 → index = width - 1 → step.sibling = current) then
        walkProof sha (step.apply (parentDigest sha) current) (index / 2) ((width + 1) / 2) rest
      else none := by
  obtain ⟨side, sibling⟩ := step
  have hleft : positionOf .left = leftPosition := rfl
  have hright : positionOf .right = rightPosition := rfl
  have hne : leftPosition ≠ rightPosition := by decide
  by_cases hdup : width % 2 = 1 ∧ index = width - 1
  · obtain ⟨hodd, rfl⟩ := hdup
    have hside : Merkle.sideOf (width - 1) = .right := if_neg (by omega)
    cases side
    · simp [walkProof, nodeOf, hodd, hside, hleft, hne]
    · by_cases hsib : sibling = current
      · simp [walkProof, nodeOf, hodd, hside, hright, hsib, Merkle.Step.apply, Merkle.Step.pair]
      · simp [walkProof, nodeOf, hodd, hside, hright, hsib]
  · have hfree : width % 2 = 1 → index = width - 1 → sibling = current :=
      fun hodd hlast => absurd ⟨hodd, hlast⟩ hdup
    simp only [walkProof, if_neg hdup, nodeOf, ← positionOf_sideOf, hexToBuffer, fromHex_toHex,
      and_iff_left hfree]
    by_cases hside : side = Merkle.sideOf index
    · subst hside
      rw [if_pos rfl]
      cases Merkle.sideOf index <;>
        simp [hleft, hright, hne.symm, Merkle.Step.apply, Merkle.Step.pair]
    · simp [hside, positionOf_injective.ne hside]

/-- The walk is a climb along the steps its nodes stand for, and rejects
exactly the steps that are not canonical for the declared position. -/
theorem walkProof_eq_some (sha : Sha256) : ∀ (steps : List (Merkle.Step Bytes))
    (current : Bytes) (index width : ℕ) (result : Bytes × ℕ),
    walkProof sha current index width (steps.map nodeOf) = some result ↔
      Merkle.Canonical (parentDigest sha) width index current steps ∧
      result = (Merkle.climb (parentDigest sha) current steps, widthAfter width steps.length) := by
  intro steps
  induction steps with
  | nil =>
    intro current index width result
    simp [walkProof, Merkle.Canonical, Merkle.climb, widthAfter, eq_comm]
  | cons step rest ih =>
    intro current index width result
    rw [List.map_cons, walkProof_cons, Merkle.Canonical]
    split
    · next h =>
      rw [ih]
      exact ⟨fun hrest => ⟨⟨h.1, h.2, hrest.1⟩, hrest.2⟩, fun hstep => ⟨hstep.1.2.2, hstep.2⟩⟩
    · next h =>
      exact ⟨fun hnone => absurd hnone (Option.some_ne_none result).symm,
        fun hstep => absurd ⟨hstep.1.1, hstep.1.2.1⟩ h⟩

end ChunkManifest
