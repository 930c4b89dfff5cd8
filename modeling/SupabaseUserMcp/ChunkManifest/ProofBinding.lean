import Mathlib.Data.List.Nodup
import SupabaseUserMcp.ChunkManifest.ProofVerification

/- What an accepted inclusion proof binds. Where no two messages hashed for the
   manifest or for the verification collide, an accepted proof is the path of
   the source's completed tree at the declared index. A proof that declares the
   source's own chunk count therefore binds its chunk to its position. A count
   with the same depth as the source's own is accepted too: the verifier never
   learns how many chunks the source has, and the paths of the completed tree
   are all it can check. -/
namespace ChunkManifest

open Js

/-! Messages. -/

def leafMessage (chunkBytes : Bytes) : Bytes := leafDomainPrefix ++ chunkBytes

def parentMessage (pair : Bytes × Bytes) : Bytes := parentDomainPrefix ++ (pair.1 ++ pair.2)

/-- The step a proof node stands for. -/
def stepOf (node : ArtifactChunkMerkleProofNode) : Merkle.Step Bytes :=
  ⟨if node.siblingPosition = leftPosition then .left else .right, hexToBuffer node.siblingSha256⟩

/-- The leaf and parent messages hashed to build a source's manifest. -/
def manifestMessages (sha : Sha256) (source : Bytes) (cs : ℕ) : Set Bytes :=
  {message | message = emptyRootDomainPrefix ∨
    (∃ i < chunkCountOf source.length cs, message = leafMessage (chunkOf source cs i)) ∨
    ∃ pair ∈ Merkle.treePairs (parentDigest sha) (sourceLeaves sha source cs)
      (Nat.clog 2 (chunkCountOf source.length cs)), message = parentMessage pair}

/-- The leaf and parent messages hashed to verify a proof. -/
def verificationMessages (sha : Sha256) (chunkBytes : Bytes) (proof : ArtifactChunkProof) :
    Set Bytes :=
  {message | message = leafMessage chunkBytes ∨
    ∃ pair ∈ Merkle.climbPairs (parentDigest sha) (merkleLeafDigest sha chunkBytes)
      (proof.proof.map stepOf), message = parentMessage pair}

theorem stepOf_nodeOf (step : Merkle.Step Bytes) : stepOf (nodeOf step) = step := by
  obtain ⟨side, sibling⟩ := step
  have hne : rightPosition ≠ leftPosition := by decide
  cases side <;> simp [stepOf, nodeOf, positionOf, hexToBuffer, hne]

theorem map_stepOf_nodeOf (steps : List (Merkle.Step Bytes)) :
    (steps.map nodeOf).map stepOf = steps := by
  simp [Function.comp_def, stepOf_nodeOf]

theorem leafMessage_inj {a b : Bytes} : leafMessage a = leafMessage b ↔ a = b := by
  simp [leafMessage]

theorem leafMessage_ne_parentMessage (a : Bytes) (pair : Bytes × Bytes) :
    leafMessage a ≠ parentMessage pair := by
  simp [leafMessage, parentMessage, leafDomainPrefix, parentDomainPrefix]

theorem emptyMessage_ne_leafMessage (a : Bytes) : emptyRootDomainPrefix ≠ leafMessage a := by
  simp [leafMessage, leafDomainPrefix, emptyRootDomainPrefix]

theorem emptyMessage_ne_parentMessage (pair : Bytes × Bytes) :
    emptyRootDomainPrefix ≠ parentMessage pair := by
  simp [parentMessage, parentDomainPrefix, emptyRootDomainPrefix]

theorem parentMessage_inj {p q : Bytes × Bytes} (hp : p.1.length = 32) (hq : q.1.length = 32)
    (h : parentMessage p = parentMessage q) : p = q := by
  have happend : p.1 ++ p.2 = q.1 ++ q.2 := by simpa [parentMessage] using h
  obtain ⟨h1, h2⟩ := List.append_inj happend (by rw [hp, hq])
  exact Prod.ext h1 h2

theorem length_mem_pairs : ∀ {leaves : List Bytes}, (∀ leaf ∈ leaves, leaf.length = 32) →
    ∀ p ∈ Merkle.pairs leaves, p.1.length = 32
  | a :: b :: rest, h, p, hp => by
    rw [Merkle.pairs, List.mem_cons] at hp
    rcases hp with rfl | hp
    · exact h a (by simp)
    · exact length_mem_pairs (fun leaf hleaf => h leaf (by simp [hleaf])) p hp
  | [a], h, p, hp => by
    simp only [Merkle.pairs, List.mem_cons, List.not_mem_nil, or_false] at hp
    exact hp ▸ h a (by simp)
  | [], _, p, hp => by simp [Merkle.pairs] at hp

theorem length_mem_treePairs (sha : Sha256) : ∀ (k : ℕ) (leaves : List Bytes),
    (∀ leaf ∈ leaves, leaf.length = 32) →
    ∀ p ∈ Merkle.treePairs (parentDigest sha) leaves k, p.1.length = 32 := by
  intro k
  induction k with
  | zero => intro leaves _ p hp; simp [Merkle.treePairs] at hp
  | succ k ih =>
    intro leaves h p hp
    rw [Merkle.treePairs, List.mem_append] at hp
    rcases hp with hp | hp
    · exact length_mem_pairs h p hp
    · exact ih _ (length_mem_level sha h 1) p hp

theorem length_mem_climbPairs (sha : Sha256) : ∀ (steps : List (Merkle.Step Bytes)) (x : Bytes),
    x.length = 32 → DigestSteps steps →
    ∀ p ∈ Merkle.climbPairs (parentDigest sha) x steps, p.1.length = 32 := by
  intro steps
  induction steps with
  | nil => intro x _ _ p hp; simp [Merkle.climbPairs] at hp
  | cons step rest ih =>
    intro x hx hsteps p hp
    rw [Merkle.climbPairs, List.mem_cons] at hp
    rcases hp with rfl | hp
    · have hstep := hsteps step (by simp)
      obtain ⟨side, sibling⟩ := step
      cases side
      · exact hstep
      · exact hx
    · exact ih _ (sha.length_digest _) (fun s hs => hsteps s (by simp [hs])) p hp

/-! The completed tree. -/

/-- The chunk that stands at a position of the source's completed tree. -/
def completedIndex (source : Bytes) (cs i : ℕ) : ℕ :=
  Merkle.real (chunkCountOf source.length cs) (Nat.clog 2 (chunkCountOf source.length cs)) i

theorem completedIndex_lt {source : Bytes} {cs : ℕ} (i : ℕ)
    (hn : 0 < chunkCountOf source.length cs) :
    completedIndex source cs i < chunkCountOf source.length cs :=
  Merkle.real_lt _ i hn

theorem completedIndex_of_lt {source : Bytes} {cs i : ℕ} (hi : i < chunkCountOf source.length cs) :
    completedIndex source cs i = i :=
  Merkle.real_of_lt _ i hi (Nat.le_pow_clog (by omega) _)

section Binding

variable (sha : Sha256) {source chunkBytes : Bytes} {cs i : ℕ} {steps : List (Merkle.Step Bytes)}

theorem leafMessage_mem_manifestMessages (hi : i < chunkCountOf source.length cs) :
    leafMessage (chunkOf source cs i) ∈ manifestMessages sha source cs :=
  .inr (.inl ⟨i, hi, rfl⟩)

/-- A climb in the source's tree whose messages do not collide with the tree's
starts at a chunk and follows the tree's own path. -/
theorem climb_binds {proof : ArtifactChunkProof} (hproof : proof.proof = steps.map nodeOf)
    (hfree : sha.CollisionFree
      (manifestMessages sha source cs ∪ verificationMessages sha chunkBytes proof))
    (hsteps : DigestSteps steps)
    (hside : ∀ j (h : j < steps.length), steps[j].side = Merkle.sideOf (i / 2 ^ j))
    (hroot : Merkle.climb (parentDigest sha) (merkleLeafDigest sha chunkBytes) steps =
      rootDigest sha (sourceLeaves sha source cs)) :
    0 < chunkCountOf source.length cs ∧ steps = sourcePath sha source cs i ∧
      chunkBytes = chunkOf source cs (completedIndex source cs i) := by
  have hleafMem : leafMessage chunkBytes ∈ verificationMessages sha chunkBytes proof := .inl rfl
  have hclimbMem : ∀ p ∈ Merkle.climbPairs (parentDigest sha) (merkleLeafDigest sha chunkBytes)
      steps, parentMessage p ∈ verificationMessages sha chunkBytes proof := by
    intro p hp
    exact .inr ⟨p, by rwa [hproof, map_stepOf_nodeOf], rfl⟩
  have hclimbLength := length_mem_climbPairs sha steps (merkleLeafDigest sha chunkBytes)
    (sha.length_digest _) hsteps
  have htreeLength := length_mem_treePairs sha (Nat.clog 2 (chunkCountOf source.length cs)) _
    (length_mem_sourceLeaves sha source cs)
  have htreeMem : ∀ q ∈ Merkle.treePairs (parentDigest sha) (sourceLeaves sha source cs)
      (Nat.clog 2 (chunkCountOf source.length cs)),
      parentMessage q ∈ manifestMessages sha source cs := fun q hq => .inr (.inr ⟨q, hq, rfl⟩)
  rcases Nat.eq_zero_or_pos (chunkCountOf source.length cs) with hzero | hpos
  · -- The root of the empty tree is no leaf and no parent.
    exfalso
    have hempty : emptyRootDomainPrefix ∈ manifestMessages sha source cs := .inl rfl
    rw [rootDigest, length_sourceLeaves, if_pos hzero] at hroot
    cases steps with
    | nil =>
      exact emptyMessage_ne_leafMessage chunkBytes
        (hfree (.inl hempty) (.inr hleafMem) hroot.symm)
    | cons step rest =>
      obtain ⟨p, hp, hclimb⟩ := Merkle.climb_mem_pairs (parentDigest sha) (step :: rest)
        (merkleLeafDigest sha chunkBytes) (by simp)
      exact emptyMessage_ne_parentMessage p (hfree (.inl hempty) (.inr (hclimbMem p hp))
        (hroot.symm.trans hclimb))
  · have hne := sourceLeaves_ne_nil sha hpos
    have hone := Merkle.length_level_clog (parentDigest sha) _ (sourceLeaves sha source cs) hne rfl
    rw [rootDigest, length_sourceLeaves, if_neg hpos.ne'] at hroot
    rw [length_sourceLeaves] at hone
    have hinj : ∀ p ∈ Merkle.climbPairs (parentDigest sha) (merkleLeafDigest sha chunkBytes) steps,
        ∀ q ∈ Merkle.treePairs (parentDigest sha) (sourceLeaves sha source cs)
          (Nat.clog 2 (chunkCountOf source.length cs)),
        parentDigest sha p.1 p.2 = parentDigest sha q.1 q.2 → p = q := by
      intro p hp q hq h
      exact parentMessage_inj (hclimbLength p hp) (htreeLength q hq)
        (hfree (.inr (hclimbMem p hp)) (.inl (htreeMem q hq)) h)
    have hdepth : steps.length = Nat.clog 2 (chunkCountOf source.length cs) := by
      refine Merkle.climb_length (parentDigest sha) hne hone hside hinj ?_ ?_ hroot
      · intro q hq h
        exact leafMessage_ne_parentMessage chunkBytes q
          (hfree (.inr hleafMem) (.inl (htreeMem q hq)) h)
      · intro p hp hmem
        obtain ⟨j, hj, h⟩ := List.mem_map.mp hmem
        exact leafMessage_ne_parentMessage (chunkOf source cs j) p
          (hfree (.inl (leafMessage_mem_manifestMessages sha (List.mem_range.mp hj)))
            (.inr (hclimbMem p hp)) h)
    obtain ⟨hleaf, hpath⟩ := Merkle.climb_sound (parentDigest sha) steps
      (sourceLeaves sha source cs) i (merkleLeafDigest sha chunkBytes) hne (hdepth ▸ hone) hside
      (hdepth ▸ hinj) (hdepth ▸ hroot)
    rw [hdepth, length_sourceLeaves, ← completedIndex,
      getD_sourceLeaves sha (completedIndex_lt i hpos)] at hleaf
    refine ⟨hpos, by rw [hpath, hdepth, sourcePath], ?_⟩
    exact leafMessage_inj.mp (hfree (.inr hleafMem)
      (.inl (leafMessage_mem_manifestMessages sha (completedIndex_lt i hpos))) hleaf)

/-- The proof is well shaped, carries the digests of the chunk, declares a count
of the source's own depth, and its nodes are the path of the source's completed
tree from a position where the chunk stands; wherever the declared count makes
a node its own sibling, the completed tree holds two equal nodes there. -/
structure CarriesCompletedPath (sha : Sha256) (source : Bytes) (cs : ℕ) (chunkBytes : Bytes)
    (proof : ArtifactChunkProof) : Prop where
  shape : assertProofShapeConsistent proof = .ok ()
  length : proof.byteLength = chunkBytes.length
  raw : proof.chunkSha256 = toHex (rawDigest sha chunkBytes)
  leaf : proof.merkleLeafSha256 = toHex (merkleLeafDigest sha chunkBytes)
  nonempty : 0 < chunkCountOf source.length cs
  chunk : chunkBytes = chunkOf source cs (completedIndex source cs proof.chunkIndex.toNat)
  path : proof.proof = (sourcePath sha source cs proof.chunkIndex.toNat).map nodeOf
  duplicates : Merkle.Canonical (parentDigest sha) proof.totalChunkCount.toNat
    proof.chunkIndex.toNat (merkleLeafDigest sha chunkBytes)
    (sourcePath sha source cs proof.chunkIndex.toNat)

/-- The tree's path from any position of the completed tree reaches the root. -/
theorem climb_completed (hpos : 0 < chunkCountOf source.length cs) (i : ℕ) :
    Merkle.climb (parentDigest sha)
      (merkleLeafDigest sha (chunkOf source cs (completedIndex source cs i)))
      (sourcePath sha source cs i) = rootDigest sha (sourceLeaves sha source cs) := by
  have hne := sourceLeaves_ne_nil sha hpos
  have hone := Merkle.length_level_clog (parentDigest sha) _ (sourceLeaves sha source cs) hne rfl
  have h := Merkle.climb_path (parentDigest sha) _ (sourceLeaves sha source cs) i hne hone
  rw [length_sourceLeaves, ← completedIndex,
    getD_sourceLeaves sha (completedIndex_lt i hpos)] at h
  rw [sourcePath, h, rootDigest, length_sourceLeaves, if_neg hpos.ne']

/-- Without collisions, the proofs accepted under a source's root are those that
carry a path of its completed tree. -/
theorem verifyArtifactChunkProof_sourceManifest {proof : ArtifactChunkProof}
    (hfree : sha.CollisionFree
      (manifestMessages sha source cs ∪ verificationMessages sha chunkBytes proof)) :
    verifyArtifactChunkProof sha (.bytes chunkBytes) proof
        (sourceManifest sha source cs).merkleRoot = .ok true ↔
      CarriesCompletedPath sha source cs chunkBytes proof := by
  constructor
  · intro h
    obtain ⟨g, sourceSha256, steps, hhex, hsteps, hdepth, hproof, hlen, hcanonical, hroot⟩ :=
      (verifyArtifactChunkProof_eq_true sha chunkBytes proof _).mp h
    obtain ⟨hpos, hpath, hchunk⟩ := climb_binds sha
      (i := g.chunkIndex) (by rw [hproof]; rfl) hfree hsteps (Merkle.Canonical.side _ hcanonical)
      (toHex_injective hroot).symm
    have hshape := (assertProofShapeConsistent_eq_ok proof).mpr ⟨g, sourceSha256, _, _, steps, hhex,
      hex64Pattern_toHex (sha.length_digest chunkBytes), hex64Pattern_toHex (sha.length_digest _),
      hsteps, hdepth, hproof⟩
    subst hproof
    refine ⟨hshape, by rw [hlen]; rfl, rfl, rfl, hpos, ?_, ?_, ?_⟩
    · simpa [DeclaredGeometry.proofOf] using hchunk
    · simp [DeclaredGeometry.proofOf, ← hpath]
    · simpa [DeclaredGeometry.proofOf, ← hpath] using hcanonical
  · rintro ⟨hshape, hlen, hraw, hleaf, hpos, hchunk, hpath, hcanonical⟩
    obtain ⟨g, sourceSha256, chunkSha256, merkleLeafSha256, steps, hhex, -, -, hsteps, hdepth,
      rfl⟩ := (assertProofShapeConsistent_eq_ok proof).mp hshape
    simp only [DeclaredGeometry.proofOf, Number.toNat_ofNat, Number.ofNat_inj] at *
    subst hraw hleaf
    have hsame : steps = sourcePath sha source cs g.chunkIndex := by
      rw [← map_stepOf_nodeOf steps, hpath, map_stepOf_nodeOf]
    subst hsame
    refine (verifyArtifactChunkProof_eq_true sha chunkBytes _ _).mpr ⟨g, sourceSha256, _, hhex,
      hsteps, hdepth, rfl, hlen.symm, hcanonical, ?_⟩
    rw [hchunk, climb_completed sha hpos]
    rfl

/-- A proof that carries a path declares a count of the source's depth. -/
theorem CarriesCompletedPath.depth {proof : ArtifactChunkProof}
    (h : CarriesCompletedPath sha source cs chunkBytes proof) :
    Nat.clog 2 proof.totalChunkCount.toNat = Nat.clog 2 (chunkCountOf source.length cs) := by
  obtain ⟨g, _, _, _, steps, -, -, -, -, hdepth, rfl⟩ :=
    (assertProofShapeConsistent_eq_ok proof).mp h.shape
  have hlength := congrArg List.length h.path
  simp only [DeclaredGeometry.proofOf, List.length_map, Number.toNat_ofNat, sourcePath,
    Merkle.length_path] at hlength ⊢
  omega

/-- The property a reader expects of an accepted proof: it declares the source's
chunk count, and its chunk is the source's chunk at the declared index. -/
def BindsPosition (source : Bytes) (cs : ℕ) (manifest : ArtifactChunkManifest) (chunkBytes : Bytes)
    (proof : ArtifactChunkProof) : Prop :=
  proof.totalChunkCount = manifest.chunkCount ∧
  Number.lt proof.chunkIndex manifest.chunkCount = true ∧
  chunkBytes = chunkOf source cs proof.chunkIndex.toNat

/-- A path of the completed tree, declared with the source's count, is the path
of a chunk of the source. -/
theorem CarriesCompletedPath.binds {proof : ArtifactChunkProof}
    (h : CarriesCompletedPath sha source cs chunkBytes proof)
    (hcount : proof.totalChunkCount = (sourceManifest sha source cs).chunkCount) :
    BindsPosition source cs (sourceManifest sha source cs) chunkBytes proof := by
  obtain ⟨g, _, _, _, steps, -, -, -, -, -, rfl⟩ := (assertProofShapeConsistent_eq_ok proof).mp h.shape
  have hsame : g.totalChunkCount = chunkCountOf source.length cs := by
    simpa [DeclaredGeometry.proofOf, sourceManifest, manifestOf] using hcount
  have hi : g.chunkIndex < chunkCountOf source.length cs := hsame ▸ g.inRange
  refine ⟨hcount, ?_, ?_⟩
  · simpa [DeclaredGeometry.proofOf, sourceManifest, manifestOf] using hi
  · have hchunk := h.chunk
    simp only [DeclaredGeometry.proofOf, Number.toNat_ofNat] at hchunk ⊢
    rwa [completedIndex_of_lt hi] at hchunk

/-! Counts of one depth. -/

theorem chunkCountOf_mul (hcs : 0 < cs) (m : ℕ) : chunkCountOf (m * cs) cs = m := by
  rw [chunkCountOf, show m * cs + cs - 1 = cs - 1 + cs * m by rw [Nat.mul_comm m]; omega,
    Nat.add_mul_div_left _ _ hcs, Nat.div_eq_of_lt (by omega), Nat.zero_add]

/-- A count of a source's depth never declares more bytes than a source may have. -/
theorem mul_le_of_depth {m n : ℕ} (hcs : cs ∈ allowedChunkSizes)
    (hn : n * cs < maxCalibrationSourceBytes + cs) (hdepth : Nat.clog 2 m = Nat.clog 2 n) :
    m * cs ≤ maxCalibrationSourceBytes := by
  have hbound : ∀ e, 2 ^ e * cs = maxCalibrationSourceBytes → m * cs ≤ maxCalibrationSourceBytes := by
    intro e he
    have hn' : n ≤ 2 ^ e := by
      have : n * cs < (2 ^ e + 1) * cs := by rw [Nat.succ_mul, he]; exact hn
      exact Nat.lt_succ_iff.mp (Nat.lt_of_mul_lt_mul_right this)
    have hm : m ≤ 2 ^ e := (Nat.clog_le_iff_le_pow (by omega)).mp
      (hdepth ▸ (Nat.clog_le_iff_le_pow (by omega)).mpr hn')
    exact he ▸ Nat.mul_le_mul_right cs hm
  simp only [allowedChunkSizes, List.mem_cons, List.not_mem_nil, or_false] at hcs
  rcases hcs with rfl | rfl | rfl
  · exact hbound 10 (by decide)
  · exact hbound 8 (by decide)
  · exact hbound 7 (by decide)

/-- The first chunk of a source, declared as the first of `m` full chunks. -/
def firstOf (m cs : ℕ) (hcs : cs ∈ allowedChunkSizes)
    (hmax : m * cs ≤ maxCalibrationSourceBytes) (hm : 0 < m) : DeclaredGeometry :=
  ⟨m * cs, cs, 0, hcs, hmax, by rw [chunkCountOf_mul (pos_of_allowed hcs)]; exact hm⟩

/-- The chunk at a position of the completed tree, restated under any declared
geometry that has the source's chunk size. -/
def restated (source : Bytes) (g : DeclaredGeometry) : ArtifactChunkProof :=
  let chunkBytes := chunkOf source g.chunkSize (completedIndex source g.chunkSize g.chunkIndex)
  g.proofOf (toHex (rawDigest sha source)) (toHex (rawDigest sha chunkBytes))
    (toHex (merkleLeafDigest sha chunkBytes)) (sourcePath sha source g.chunkSize g.chunkIndex)

/-- A restated proof is accepted when the declared geometry has the source's
depth, gives the chunk its length, and duplicates only nodes that are equal. -/
theorem verifyArtifactChunkProof_restated {g : DeclaredGeometry} (hcs : g.chunkSize = cs)
    (hn : 0 < chunkCountOf source.length cs)
    (hdepth : Nat.clog 2 g.totalChunkCount = Nat.clog 2 (chunkCountOf source.length cs))
    (hlen : chunkLengthOf source.length cs (completedIndex source cs g.chunkIndex) = g.byteLength)
    (hduplicates : Merkle.Canonical (parentDigest sha) g.totalChunkCount g.chunkIndex
      (merkleLeafDigest sha (chunkOf source cs (completedIndex source cs g.chunkIndex)))
      (sourcePath sha source cs g.chunkIndex)) :
    verifyArtifactChunkProof sha
      (.bytes (chunkOf source cs (completedIndex source cs g.chunkIndex))) (restated sha source g)
      (sourceManifest sha source cs).merkleRoot = .ok true := by
  subst hcs
  refine (verifyArtifactChunkProof_eq_true sha _ _ _).mpr ⟨g, _,
    sourcePath sha source g.chunkSize g.chunkIndex, hex64Pattern_toHex (sha.length_digest source),
    digestSteps_sourcePath sha hn _, ?_, rfl, ?_, hduplicates, ?_⟩
  · rw [hdepth, sourcePath, Merkle.length_path]
  · rw [length_chunkOf, hlen]
  · rw [climb_completed sha hn]
    rfl

/-- Verifying a path of the tree hashes no message the manifest does not. -/
theorem verificationMessages_restated {g : DeclaredGeometry} (hcs : g.chunkSize = cs)
    (hn : 0 < chunkCountOf source.length cs) :
    verificationMessages sha (chunkOf source cs (completedIndex source cs g.chunkIndex))
      (restated sha source g) ⊆ manifestMessages sha source cs := by
  subst hcs
  rintro message (rfl | ⟨pair, hpair, rfl⟩)
  · exact leafMessage_mem_manifestMessages sha (completedIndex_lt _ hn)
  · refine .inr (.inr ⟨pair, ?_, rfl⟩)
    rw [restated, DeclaredGeometry.proofOf, map_stepOf_nodeOf] at hpair
    have h := Merkle.climbPairs_path (parentDigest sha)
      (Nat.clog 2 (chunkCountOf source.length g.chunkSize)) (sourceLeaves sha source g.chunkSize)
      g.chunkIndex (sourceLeaves_ne_nil sha hn) pair
    rw [length_sourceLeaves, ← completedIndex, getD_sourceLeaves sha (completedIndex_lt _ hn)] at h
    exact h hpair

/-- Under a root of at least two chunks, the first chunk is accepted with every
declared count of the same depth. -/
theorem verifyArtifactChunkProof_firstOf {m : ℕ} (hcs : cs ∈ allowedChunkSizes)
    (hmax : m * cs ≤ maxCalibrationSourceBytes) (hm : 1 < m)
    (hn : 1 < chunkCountOf source.length cs)
    (hdepth : Nat.clog 2 m = Nat.clog 2 (chunkCountOf source.length cs)) :
    verifyArtifactChunkProof sha (.bytes (chunkOf source cs (completedIndex source cs 0)))
      (restated sha source (firstOf m cs hcs hmax (by omega)))
      (sourceManifest sha source cs).merkleRoot = .ok true := by
  have hpos := pos_of_allowed hcs
  have htotal : (firstOf m cs hcs hmax (by omega)).totalChunkCount = m := chunkCountOf_mul hpos m
  refine verifyArtifactChunkProof_restated sha (g := firstOf m cs hcs hmax (by omega)) rfl
    (by omega) (htotal.symm ▸ hdepth) ?_ ?_
  · show chunkLengthOf _ cs (completedIndex source cs 0) = chunkLengthOf (m * cs) cs 0
    rw [completedIndex_of_lt (by omega), chunkLengthOf_inner hpos (by omega),
      chunkLengthOf_inner hpos (by rwa [Nat.zero_add, chunkCountOf_mul hpos])]
  · rw [htotal]
    exact Merkle.canonical_path_zero (parentDigest sha) _ m _ _ hdepth

/-- Two counts of one depth are both at least two, or the same. -/
theorem one_lt_of_clog_eq {m n : ℕ} (hne : m ≠ n) (hm : m ≠ 0) (hn : n ≠ 0)
    (hdepth : Nat.clog 2 m = Nat.clog 2 n) : 1 < m ∧ 1 < n := by
  have hsmall : ∀ k, k ≠ 0 → Nat.clog 2 k = 0 → k = 1 := by
    intro k hk hzero
    by_contra hk1
    have := Nat.clog_pos (b := 2) (by omega) (show 2 ≤ k by omega)
    omega
  constructor
  · by_contra hle
    obtain rfl : m = 1 := by omega
    rw [Nat.clog_one_right] at hdepth
    exact hne (hsmall n hn hdepth.symm).symm
  · by_contra hle
    obtain rfl : n = 1 := by omega
    rw [Nat.clog_one_right] at hdepth
    exact hne (hsmall m hm hdepth)

/-- Without collisions a proof binds when it declares the source's count or carries no path. -/
theorem binds_proof_iff {proof : ArtifactChunkProof}
    (hfree : sha.CollisionFree
      (manifestMessages sha source cs ∪ verificationMessages sha chunkBytes proof)) :
    (verifyArtifactChunkProof sha (.bytes chunkBytes) proof
        (sourceManifest sha source cs).merkleRoot = .ok true →
      BindsPosition source cs (sourceManifest sha source cs) chunkBytes proof) ↔
      proof.totalChunkCount = (sourceManifest sha source cs).chunkCount ∨
        ¬ CarriesCompletedPath sha source cs chunkBytes proof := by
  rw [verifyArtifactChunkProof_sourceManifest sha hfree]
  constructor
  · intro h
    by_cases hcarries : CarriesCompletedPath sha source cs chunkBytes proof
    · exact .inl (h hcarries).1
    · exact .inr hcarries
  · rintro (hcount | hnot) hcarries
    · exact hcarries.binds sha hcount
    · exact absurd hcarries hnot

/-- A count of the source's depth that is not its own has a proof that does not bind. -/
theorem exists_unbound {m : ℕ} (hcs : cs ∈ allowedChunkSizes)
    (hlen : source.length ≤ maxCalibrationSourceBytes)
    (hfree : sha.CollisionFree (manifestMessages sha source cs))
    (hne : m ≠ chunkCountOf source.length cs) (hm : m ≠ 0) (hn : chunkCountOf source.length cs ≠ 0)
    (hdepth : Nat.clog 2 m = Nat.clog 2 (chunkCountOf source.length cs)) :
    ∃ chunkBytes proof, sha.CollisionFree
        (manifestMessages sha source cs ∪ verificationMessages sha chunkBytes proof) ∧
      proof.totalChunkCount = Number.ofNat m ∧
      verifyArtifactChunkProof sha (.bytes chunkBytes) proof
        (sourceManifest sha source cs).merkleRoot = .ok true ∧
      ¬ BindsPosition source cs (sourceManifest sha source cs) chunkBytes proof := by
  have hpos := pos_of_allowed hcs
  have hone := one_lt_of_clog_eq hne hm hn hdepth
  have hbytes : chunkCountOf source.length cs * cs < maxCalibrationSourceBytes + cs := by
    obtain ⟨k, hk⟩ : ∃ k, chunkCountOf source.length cs = k + 1 := ⟨_, (Nat.succ_pred hn).symm⟩
    have hlast : k * cs < source.length := (lt_chunkCountOf hpos).mp (by omega)
    rw [hk, Nat.succ_mul]
    omega
  have hmax := mul_le_of_depth hcs hbytes hdepth
  have hmessages := verificationMessages_restated sha
    (g := firstOf m cs hcs hmax (by omega)) rfl (Nat.pos_of_ne_zero hn)
  refine ⟨_, restated sha source (firstOf m cs hcs hmax (by omega)),
    hfree.mono (Set.union_subset subset_rfl hmessages),
    congrArg Number.ofNat (chunkCountOf_mul hpos m),
    verifyArtifactChunkProof_firstOf sha hcs hmax hone.1 hone.2 hdepth, fun hbinds => ?_⟩
  have hcount : Number.ofNat (chunkCountOf (m * cs) cs) =
      Number.ofNat (chunkCountOf source.length cs) := hbinds.1
  rw [chunkCountOf_mul hpos, Number.ofNat_inj] at hcount
  exact hne hcount

/-- Under any other count every accepted proof binds. -/
theorem binds_of_count {m : ℕ} {proof : ArtifactChunkProof}
    (h : m = chunkCountOf source.length cs ∨ m = 0 ∨ chunkCountOf source.length cs = 0 ∨
      Nat.clog 2 m ≠ Nat.clog 2 (chunkCountOf source.length cs))
    (hfree : sha.CollisionFree
      (manifestMessages sha source cs ∪ verificationMessages sha chunkBytes proof))
    (hm : proof.totalChunkCount = Number.ofNat m)
    (haccept : verifyArtifactChunkProof sha (.bytes chunkBytes) proof
      (sourceManifest sha source cs).merkleRoot = .ok true) :
    BindsPosition source cs (sourceManifest sha source cs) chunkBytes proof := by
  have hcarries := (verifyArtifactChunkProof_sourceManifest sha hfree).mp haccept
  refine hcarries.binds sha ?_
  have hdepth := hcarries.depth sha
  have hnonempty := hcarries.nonempty
  obtain ⟨g, _, _, _, _, -, -, -, -, -, hproof⟩ :=
    (assertProofShapeConsistent_eq_ok proof).mp hcarries.shape
  have hg : g.totalChunkCount = m := by
    rw [hproof] at hm
    exact Number.ofNat_inj.mp hm
  have hpos := g.totalChunkCount_pos
  rw [hm, Number.toNat_ofNat] at hdepth
  rcases h with h | h | h | h
  · rw [hm, h]
    rfl
  · omega
  · omega
  · exact absurd hdepth h

end Binding

/-- When an accepted proof binds its chunk to its position and to the source's
geometry. For one proof: exactly when it declares the source's own chunk count
or does not carry a path of the completed tree. For a declared count, over every
chunk and proof: exactly when it is the source's own, or its depth is not that
of the source, or one of the two is zero. -/
theorem verifyArtifactChunkProof_binds_iff (sha : Sha256) (source : Bytes) (chunkSize : Number)
    (manifest : ArtifactChunkManifest)
    (hbuild : buildArtifactChunkManifest sha (.bytes source) chunkSize = .ok manifest)
    (hfree : sha.CollisionFree (manifestMessages sha source chunkSize.toNat)) :
    (∀ chunkBytes proof, sha.CollisionFree (manifestMessages sha source chunkSize.toNat ∪
        verificationMessages sha chunkBytes proof) →
      ((verifyArtifactChunkProof sha (.bytes chunkBytes) proof manifest.merkleRoot = .ok true →
          BindsPosition source chunkSize.toNat manifest chunkBytes proof) ↔
        proof.totalChunkCount = manifest.chunkCount ∨
          ¬ CarriesCompletedPath sha source chunkSize.toNat chunkBytes proof)) ∧
    ∀ m : ℕ,
      ((∀ chunkBytes proof, sha.CollisionFree (manifestMessages sha source chunkSize.toNat ∪
          verificationMessages sha chunkBytes proof) → proof.totalChunkCount = Number.ofNat m →
        verifyArtifactChunkProof sha (.bytes chunkBytes) proof manifest.merkleRoot = .ok true →
          BindsPosition source chunkSize.toNat manifest chunkBytes proof) ↔
        Number.ofNat m = manifest.chunkCount ∨ m = 0 ∨ manifest.chunkCount = Number.ofNat 0 ∨
          expectedProofDepthFor m ≠ expectedProofDepthFor manifest.chunkCount) := by
  obtain ⟨hlen, cs, hcs, rfl, rfl⟩ := (buildArtifactChunkManifest_eq_ok sha).mp hbuild
  rw [Number.toNat_ofNat] at *
  refine ⟨fun _ _ hfree => binds_proof_iff sha hfree, fun m => ?_⟩
  have hcondition : (Number.ofNat m = (sourceManifest sha source cs).chunkCount ∨ m = 0 ∨
      (sourceManifest sha source cs).chunkCount = Number.ofNat 0 ∨
      expectedProofDepthFor m ≠ expectedProofDepthFor (sourceManifest sha source cs).chunkCount) ↔
      (m = chunkCountOf source.length cs ∨ m = 0 ∨ chunkCountOf source.length cs = 0 ∨
        Nat.clog 2 m ≠ Nat.clog 2 (chunkCountOf source.length cs)) := by
    simp only [expectedProofDepthFor_ofNat, sourceManifest, manifestOf, Number.ofNat_inj]
  rw [hcondition]
  constructor
  · intro h
    by_contra hnot
    simp only [not_or, not_not] at hnot
    obtain ⟨hne, hm, hn, hdepth⟩ := hnot
    obtain ⟨chunkBytes, proof, hfree, hcount, haccept, hunbound⟩ :=
      exists_unbound sha hcs hlen hfree hne hm hn hdepth
    exact hunbound (h chunkBytes proof hfree hcount haccept)
  · exact fun h _ _ hfree hm haccept => binds_of_count sha h hfree hm haccept

/-! A proof for three chunks. -/

/-- Four chunks, the last of one byte, and the index of the last. -/
def fourthOfFour : DeclaredGeometry :=
  ⟨3073, 1024, 3, by decide, by decide, by decide⟩

theorem completedIndex_fourthOfFour :
    completedIndex threeChunks 1024 fourthOfFour.chunkIndex = 2 := by
  rw [completedIndex, chunkCountOf_threeChunks]
  decide

/-- The messages hashed for the manifest of the three chunks. -/
def threeChunksMessages : List Bytes :=
  let a := merkleLeafDigest sha256 (chunkOf threeChunks 1024 0)
  let c := merkleLeafDigest sha256 (chunkOf threeChunks 1024 2)
  [emptyRootDomainPrefix, leafMessage (chunkOf threeChunks 1024 0),
    leafMessage (chunkOf threeChunks 1024 2), parentMessage (a, a), parentMessage (c, c),
    parentMessage (parentDigest sha256 a a, parentDigest sha256 c c)]

theorem chunkOf_threeChunks_one : chunkOf threeChunks 1024 1 = chunkOf threeChunks 1024 0 := by
  decide +kernel

theorem manifestMessages_threeChunks :
    manifestMessages sha256 threeChunks 1024 ⊆ {message | message ∈ threeChunksMessages} := by
  have hleaves : sourceLeaves sha256 threeChunks 1024 =
      [merkleLeafDigest sha256 (chunkOf threeChunks 1024 0),
        merkleLeafDigest sha256 (chunkOf threeChunks 1024 0),
        merkleLeafDigest sha256 (chunkOf threeChunks 1024 2)] := by
    rw [sourceLeaves, chunkCountOf_threeChunks]
    simp [List.range_succ, chunkOf_threeChunks_one]
  have hdepth : Nat.clog 2 3 = 2 := by decide
  rintro message (rfl | ⟨i, hi, rfl⟩ | ⟨pair, hpair, rfl⟩)
  · simp [threeChunksMessages]
  · rw [chunkCountOf_threeChunks] at hi
    interval_cases i <;> simp [threeChunksMessages, chunkOf_threeChunks_one]
  · rw [chunkCountOf_threeChunks, hleaves, hdepth] at hpair
    simp only [Merkle.treePairs, Merkle.pairs, Merkle.pairUp, List.append_nil, List.cons_append,
      List.nil_append, List.mem_cons, List.not_mem_nil, or_false] at hpair
    rcases hpair with rfl | rfl | rfl <;> simp [threeChunksMessages]

set_option maxRecDepth 10000 in
theorem collisionFree_threeChunks :
    sha256.CollisionFree (manifestMessages sha256 threeChunks 1024) := by
  have hnodup : (threeChunksMessages.map fun m => (sha256.digest m).getD 0 0).Nodup := by
    decide +kernel
  refine Sha256.CollisionFree.mono (fun a ha b hb h => ?_) manifestMessages_threeChunks
  exact List.inj_on_of_nodup_map hnodup ha hb (congrArg (fun d => d.getD 0 0) h)

theorem verify_fourthOfFour :
    sha256.CollisionFree (verificationMessages sha256 (chunkOf threeChunks 1024 2)
      (restated sha256 threeChunks fourthOfFour) ∪ manifestMessages sha256 threeChunks 1024) ∧
    verifyArtifactChunkProof sha256 (.bytes (chunkOf threeChunks 1024 2))
      (restated sha256 threeChunks fourthOfFour)
      (sourceManifest sha256 threeChunks 1024).merkleRoot = .ok true := by
  have hn : 0 < chunkCountOf threeChunks.length 1024 := by rw [chunkCountOf_threeChunks]; decide
  have hdepth : Nat.clog 2 (chunkCountOf threeChunks.length 1024) = 2 := by
    rw [chunkCountOf_threeChunks]
    decide
  have hsize : fourthOfFour.chunkSize = 1024 := rfl
  have hmessages := verificationMessages_restated sha256 hsize hn
  have haccept := verifyArtifactChunkProof_restated sha256 hsize hn
    (by rw [hdepth]; decide) (by rw [completedIndex_fourthOfFour, length_threeChunks]; decide)
    (by rw [sourcePath, hdepth]; exact Merkle.canonical_path_two_pow _ 2 _ 3 _)
  rw [completedIndex_fourthOfFour] at hmessages haccept
  exact ⟨collisionFree_threeChunks.mono (Set.union_subset hmessages subset_rfl), haccept⟩

/-- The last of three chunks is accepted as the fourth of four. -/
theorem fourthOfFour_accepted :
    sha256.CollisionFree (manifestMessages sha256 threeChunks 1024 ∪ verificationMessages sha256
      (chunkOf threeChunks 1024 2) (restated sha256 threeChunks fourthOfFour)) ∧
    ∃ manifest, buildArtifactChunkManifest sha256 (.bytes threeChunks) (1024 : ℕ) = .ok manifest ∧
      manifest.chunkCount = (3 : ℕ) ∧
      verifyArtifactChunkProof sha256 (.bytes (chunkOf threeChunks 1024 2))
        (restated sha256 threeChunks fourthOfFour) manifest.merkleRoot = .ok true ∧
      ¬ BindsPosition threeChunks 1024 manifest (chunkOf threeChunks 1024 2)
        (restated sha256 threeChunks fourthOfFour) := by
  have hcs : (1024 : ℕ) ∈ allowedChunkSizes := by decide
  obtain ⟨hfree, haccept⟩ := verify_fourthOfFour
  refine ⟨Set.union_comm _ _ ▸ hfree, _,
    (buildArtifactChunkManifest_eq_ok sha256).mpr ⟨bounded_threeChunks, 1024, hcs, rfl, rfl⟩,
    congrArg Number.ofNat chunkCountOf_threeChunks, haccept, ?_⟩
  rintro ⟨hcount, -, -⟩
  have hfour : chunkCountOf 3073 1024 = chunkCountOf threeChunks.length 1024 :=
    Number.ofNat_inj.mp hcount
  rw [chunkCountOf_threeChunks] at hfour
  exact absurd hfour (by decide)

/-- The criterion at that source and that proof. -/
theorem verifyArtifactChunkProof_binds_iff_fourthOfFour :
    (verifyArtifactChunkProof sha256 (.bytes (chunkOf threeChunks 1024 2))
        (restated sha256 threeChunks fourthOfFour)
        (sourceManifest sha256 threeChunks 1024).merkleRoot = .ok true →
      BindsPosition threeChunks 1024 (sourceManifest sha256 threeChunks 1024)
        (chunkOf threeChunks 1024 2) (restated sha256 threeChunks fourthOfFour)) ↔
    (restated sha256 threeChunks fourthOfFour).totalChunkCount =
        (sourceManifest sha256 threeChunks 1024).chunkCount ∨
      ¬ CarriesCompletedPath sha256 threeChunks 1024 (chunkOf threeChunks 1024 2)
        (restated sha256 threeChunks fourthOfFour) := by
  have hn : 0 < chunkCountOf threeChunks.length 1024 := by rw [chunkCountOf_threeChunks]; decide
  have hsize : fourthOfFour.chunkSize = 1024 := rfl
  have hmessages := verificationMessages_restated sha256 hsize hn
  rw [completedIndex_fourthOfFour] at hmessages
  exact (verifyArtifactChunkProof_binds_iff sha256 threeChunks (1024 : ℕ)
    (sourceManifest sha256 threeChunks 1024)
    ((buildArtifactChunkManifest_eq_ok sha256).mpr ⟨bounded_threeChunks, 1024, by decide, rfl, rfl⟩)
    collisionFree_threeChunks).1 _ _
    (collisionFree_threeChunks.mono (Set.union_subset subset_rfl hmessages))

end ChunkManifest
