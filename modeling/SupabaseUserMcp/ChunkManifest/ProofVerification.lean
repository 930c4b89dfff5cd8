import SupabaseUserMcp.ChunkManifest.SourceManifest

/- What `verifyArtifactChunkProof` accepts: a proof that declares a geometry, whose
   digests are those of the chunk, and whose nodes are a canonical climb from
   the chunk's leaf to the expected root. From it, the round trip: the proof
   built for a chunk of a source's manifest is accepted. -/
namespace ChunkManifest

open Js

/-! Declared geometry. -/

/-- The numbers a well shaped proof declares; the other numbers follow. -/
structure DeclaredGeometry where
  sourceByteLength : ℕ
  chunkSize : ℕ
  chunkIndex : ℕ
  allowed : chunkSize ∈ allowedChunkSizes
  bounded : sourceByteLength ≤ maxCalibrationSourceBytes
  inRange : chunkIndex < chunkCountOf sourceByteLength chunkSize

namespace DeclaredGeometry

variable (g : DeclaredGeometry)

def totalChunkCount : ℕ := chunkCountOf g.sourceByteLength g.chunkSize

def byteLength : ℕ := chunkLengthOf g.sourceByteLength g.chunkSize g.chunkIndex

/-- The proof that declares the geometry, with its digests and its steps. -/
def proofOf (sourceSha256 chunkSha256 merkleLeafSha256 : Text)
    (steps : List (Merkle.Step Bytes)) : ArtifactChunkProof :=
  ⟨artifactChunkMerkleProfileVersion, sourceSha256, g.sourceByteLength, g.chunkSize,
    g.totalChunkCount, g.chunkIndex, (g.chunkIndex * g.chunkSize : ℕ), g.byteLength, chunkSha256,
    merkleLeafSha256, steps.map nodeOf⟩

theorem totalChunkCount_pos : 0 < g.totalChunkCount := Nat.zero_lt_of_lt g.inRange

theorem totalChunkCount_le : g.totalChunkCount ≤ maxChunkCount :=
  chunkCountOf_le g.allowed g.bounded

theorem sourceByteLength_pos : 0 < g.sourceByteLength := by
  have := (lt_chunkCountOf (pos_of_allowed g.allowed)).mp g.inRange
  omega

end DeclaredGeometry

/-- The depth is the exact ceiling of the logarithm, zero included. -/
theorem expectedProofDepthFor_ofNat (n : ℕ) : expectedProofDepthFor n = Nat.clog 2 n := by
  by_cases h : n ≤ 1
  · simp [expectedProofDepthFor, h, Nat.clog_of_right_le_one h]
  · simp [expectedProofDepthFor, h]

theorem clog_le_maxMerkleProofDepth {n : ℕ} (h : n ≤ maxChunkCount) :
    Nat.clog 2 n ≤ maxMerkleProofDepth := by
  have : Nat.clog 2 n ≤ 12 := Nat.clog_le_of_le_pow (by simpa [maxChunkCount] using h)
  rw [maxMerkleProofDepth]
  omega

/-- The byte length the source expects of a chunk, final or not. -/
theorem expectedLength {len cs i : ℕ} (hcs : 0 < cs) (hi : i < chunkCountOf len cs) :
    (if (Number.ofNat i).strictEq ((Number.ofNat (chunkCountOf len cs)).sub (Number.ofNat 1)) =
        true then (Number.ofNat len).sub (Number.ofNat (i * cs)) else Number.ofNat cs) =
      Number.ofNat (chunkLengthOf len cs i) := by
  have hlt := (lt_chunkCountOf hcs).mp hi
  rw [Number.sub_ofNat (by omega), Number.strictEq_ofNat, Number.sub_ofNat hlt.le]
  by_cases hfinal : i + 1 = chunkCountOf len cs
  · rw [if_pos (by simp; omega), chunkLengthOf_final hcs hfinal]
  · rw [if_neg (by simp; omega), chunkLengthOf_inner hcs (by omega)]

/-- Steps whose siblings are digests. -/
def DigestSteps (steps : List (Merkle.Step Bytes)) : Prop :=
  ∀ step ∈ steps, step.sibling.length = 32

/-- The loop over the nodes accepts exactly the nodes of steps. -/
theorem assertProofNodesConsistent_eq_ok : ∀ (nodes : List ArtifactChunkMerkleProofNode),
    assertProofNodesConsistent nodes = .ok () ↔
      ∃ steps, nodes = steps.map nodeOf ∧ DigestSteps steps := by
  intro nodes
  induction nodes with
  | nil =>
    constructor
    · intro _
      exact ⟨[], rfl, by simp [DigestSteps]⟩
    · intro _
      rfl
  | cons node rest ih =>
    simp only [assertProofNodesConsistent, bind_eq_ok, throwIf_eq_ok, exists_const, ih]
    constructor
    · rintro ⟨hposition, hhex, steps, rfl, hsteps⟩
      obtain ⟨htext, hlength⟩ := toHex_hexToBuffer (by simpa using hhex)
      obtain ⟨side, hside⟩ : ∃ side, positionOf side = node.siblingPosition := by
        simp only [Bool.and_eq_false_iff, bne_eq_false_iff_eq] at hposition
        rcases hposition with h | h
        · exact ⟨.left, h.symm⟩
        · exact ⟨.right, h.symm⟩
      refine ⟨⟨side, hexToBuffer node.siblingSha256⟩ :: steps, ?_, ?_⟩
      · rw [List.map_cons, nodeOf, hside, htext]
      · simpa [DigestSteps, hlength] using hsteps
    · rintro ⟨steps, hcons, hsteps⟩
      cases steps with
      | nil => cases hcons
      | cons step steps =>
        obtain ⟨rfl, rfl⟩ := List.cons.inj hcons
        refine ⟨?_, ?_, steps, rfl, fun s hs => hsteps s (by simp [hs])⟩
        · simp only [Bool.and_eq_false_iff, bne_eq_false_iff_eq, nodeOf]
          cases step.side
          · exact .inl rfl
          · exact .inr rfl
        · simpa [nodeOf] using hex64Pattern_toHex (hsteps step (by simp))

/-- A proof is well shaped when it declares a geometry, carries three digests
and one step for every level above the leaves. -/
theorem assertProofShapeConsistent_eq_ok (proof : ArtifactChunkProof) :
    assertProofShapeConsistent proof = .ok () ↔
      ∃ (g : DeclaredGeometry) (sourceSha256 chunkSha256 merkleLeafSha256 : Text)
        (steps : List (Merkle.Step Bytes)),
        hex64Pattern sourceSha256 = true ∧ hex64Pattern chunkSha256 = true ∧
        hex64Pattern merkleLeafSha256 = true ∧ DigestSteps steps ∧
        steps.length = Nat.clog 2 g.totalChunkCount ∧
        proof = g.proofOf sourceSha256 chunkSha256 merkleLeafSha256 steps := by
  obtain ⟨profileVersion, sourceSha256, sourceByteLength, chunkSize, totalChunkCount, chunkIndex,
    byteStart, byteLength, chunkSha256, merkleLeafSha256, nodes⟩ := proof
  simp only [assertProofShapeConsistent, bind_eq_ok, throwIf_eq_ok, exists_const,
    Bool.not_eq_false', assertProofNodesConsistent_eq_ok]
  constructor
  · rintro ⟨hversion, hsize, -, hsource, htotal, -, hcount, hindex, hrange, hstart, hlength, -,
      hhexSource, hhexChunk, hhexLeaf, hdepth, steps, rfl, hsteps⟩
    obtain ⟨cs, hcs, rfl⟩ := isAllowedChunkSize_eq_true.mp hsize
    have hpos := pos_of_allowed hcs
    simp only [Bool.or_eq_false_iff, Bool.not_eq_false'] at hsource hindex
    obtain ⟨len, rfl, hlen⟩ := Number.eq_ofNat_of_isInteger hsource.1.1 hsource.1.2
    obtain ⟨i, rfl, -⟩ := Number.eq_ofNat_of_isInteger hindex.1 hindex.2
    rw [Number.ceilDiv_ofNat _ _ hpos, Number.strictEq_right_ofNat, ← chunkCountOf] at hcount
    subst hcount
    have hi : i < chunkCountOf len cs := by simpa using hrange
    rw [Number.mul_ofNat, Number.strictEq_right_ofNat] at hstart
    subst hstart
    rw [expectedLength hpos hi, Number.strictEq_right_ofNat] at hlength
    subst hlength
    have hbounded : len ≤ maxCalibrationSourceBytes := by simpa using hsource.2
    refine ⟨⟨len, cs, i, hcs, hbounded, hi⟩, sourceSha256, chunkSha256, merkleLeafSha256, steps,
      by simpa using hhexSource, by simpa using hhexChunk, by simpa using hhexLeaf, hsteps, ?_, ?_⟩
    · simpa [expectedProofDepthFor_ofNat, DeclaredGeometry.totalChunkCount] using hdepth
    · rw [DeclaredGeometry.proofOf, ← show profileVersion = artifactChunkMerkleProfileVersion by
        simpa using hversion]
      rfl
  · rintro ⟨g, sourceSha256', chunkSha256', merkleLeafSha256', steps, hhexSource, hhexChunk,
      hhexLeaf, hsteps, hdepth, hproof⟩
    simp only [DeclaredGeometry.proofOf, ArtifactChunkProof.mk.injEq] at hproof
    obtain ⟨rfl, rfl, rfl, rfl, rfl, rfl, rfl, rfl, rfl, rfl, rfl⟩ := hproof
    have hpos := pos_of_allowed g.allowed
    have hshort := clog_le_maxMerkleProofDepth g.totalChunkCount_le
    have htotal := g.totalChunkCount_pos
    have hlen := g.sourceByteLength_pos
    have hcount := g.totalChunkCount_le
    have hbounded := g.bounded
    have hbyte := chunkLengthOf_pos hpos g.inRange
    have hle : chunkLengthOf g.sourceByteLength g.chunkSize g.chunkIndex ≤ g.chunkSize :=
      chunkLengthOf_le
    refine ⟨by simp, isAllowedChunkSize_eq_true.mpr ⟨g.chunkSize, g.allowed, rfl⟩, ?_, ?_, ?_, ?_,
      ?_, by simp, ?_, by simp, ?_, ?_, hhexSource, hhexChunk, hhexLeaf, ?_, steps, rfl, hsteps⟩
    · simpa [hdepth] using hshort
    · simp only [Number.isInteger_ofNat, Number.lt_ofNat, Number.gt_ofNat]
      simp
      omega
    · simp
      omega
    · simpa using hcount
    · rw [Number.ceilDiv_ofNat _ _ hpos, Number.strictEq_ofNat]
      simp [DeclaredGeometry.totalChunkCount, chunkCountOf]
    · simpa [DeclaredGeometry.totalChunkCount] using g.inRange
    · rw [DeclaredGeometry.totalChunkCount, expectedLength hpos g.inRange, Number.strictEq_ofNat]
      simp [DeclaredGeometry.byteLength]
    · simp [DeclaredGeometry.byteLength]
      omega
    · simp [expectedProofDepthFor_ofNat, hdepth]

/-! Verification. -/

theorem length_climb (sha : Sha256) : ∀ (steps : List (Merkle.Step Bytes)) (x : Bytes),
    x.length = 32 → (Merkle.climb (parentDigest sha) x steps).length = 32 := by
  intro steps
  induction steps with
  | nil => intro x hx; exact hx
  | cons step rest ih => intro x _; exact ih _ (sha.length_digest _)

/-- A proof is accepted when it declares a geometry, the digests are those of
the chunk, the chunk has the declared length, and the steps are a canonical
climb from the chunk's leaf to the expected root. -/
theorem verifyArtifactChunkProof_eq_true (sha : Sha256) (chunkBytes : Bytes)
    (proof : ArtifactChunkProof) (expectedRoot : Text) :
    verifyArtifactChunkProof sha (.bytes chunkBytes) proof expectedRoot = .ok true ↔
      ∃ (g : DeclaredGeometry) (sourceSha256 : Text) (steps : List (Merkle.Step Bytes)),
        hex64Pattern sourceSha256 = true ∧ DigestSteps steps ∧
        steps.length = Nat.clog 2 g.totalChunkCount ∧
        proof = g.proofOf sourceSha256 (toHex (rawDigest sha chunkBytes))
          (toHex (merkleLeafDigest sha chunkBytes)) steps ∧
        chunkBytes.length = g.byteLength ∧
        Merkle.Canonical (parentDigest sha) g.totalChunkCount g.chunkIndex
          (merkleLeafDigest sha chunkBytes) steps ∧
        expectedRoot = toHex (Merkle.climb (parentDigest sha) (merkleLeafDigest sha chunkBytes)
          steps) := by
  constructor
  · intro h
    simp only [verifyArtifactChunkProof, assertIsUint8Array_bytes, ok_bind, bind_eq_ok,
      throwIf_eq_ok, exists_const] at h
    obtain ⟨⟨⟩, hshape, -, h⟩ := h
    obtain ⟨g, sourceSha256, chunkSha256, merkleLeafSha256, steps, hhexSource, -, -, hsteps,
      hdepth, rfl⟩ := (assertProofShapeConsistent_eq_ok proof).mp hshape
    simp only [DeclaredGeometry.proofOf, Number.strictEq_ofNat, Number.toNat_ofNat] at h
    -- Every early return yields `false`, so each comparison succeeded.
    have hlen : chunkBytes.length = g.byteLength := by
      by_contra hne
      simp [hne] at h
    have hraw : toHex (rawDigest sha chunkBytes) = chunkSha256 := by
      by_contra hne
      simp [hlen, hne] at h
    subst hraw
    have hleaf : toHex (merkleLeafDigest sha chunkBytes) = merkleLeafSha256 := by
      by_contra hne
      simp [hlen, hne] at h
    subst hleaf
    cases hwalk : walkProof sha (merkleLeafDigest sha chunkBytes) g.chunkIndex g.totalChunkCount
        (steps.map nodeOf) with
    | none => simp [hlen, hwalk] at h
    | some result =>
      obtain ⟨hcanonical, rfl⟩ := (walkProof_eq_some sha steps _ _ _ result).mp hwalk
      have hwidth : widthAfter g.totalChunkCount steps.length = 1 :=
        hdepth ▸ widthAfter_clog _ _ g.totalChunkCount_pos rfl
      have hroot : toHex (Merkle.climb (parentDigest sha) (merkleLeafDigest sha chunkBytes) steps) =
          expectedRoot := by simpa [hlen, hwalk, hwidth] using h
      exact ⟨g, sourceSha256, steps, hhexSource, hsteps, hdepth, rfl, hlen, hcanonical, hroot.symm⟩
  · rintro ⟨g, sourceSha256, steps, hhexSource, hsteps, hdepth, rfl, hlen, hcanonical, rfl⟩
    have hleaf : (merkleLeafDigest sha chunkBytes).length = 32 := sha.length_digest _
    have hshape := (assertProofShapeConsistent_eq_ok _).mpr ⟨g, sourceSha256, _, _, steps,
      hhexSource, hex64Pattern_toHex (sha.length_digest chunkBytes), hex64Pattern_toHex hleaf,
      hsteps, hdepth, rfl⟩
    have hroot := hex64Pattern_toHex (length_climb sha steps _ hleaf)
    have hwalk := (walkProof_eq_some sha steps (merkleLeafDigest sha chunkBytes) g.chunkIndex
      g.totalChunkCount _).mpr ⟨hcanonical, rfl⟩
    have hwidth : widthAfter g.totalChunkCount steps.length = 1 :=
      hdepth ▸ widthAfter_clog _ _ g.totalChunkCount_pos rfl
    simp only [verifyArtifactChunkProof, assertIsUint8Array_bytes, ok_bind, rawDigest, hshape, hroot]
    simp [DeclaredGeometry.proofOf, hlen, hwalk, hwidth]

/-! Proofs of a declared manifest's chunks. -/

/-- The data of a consistent manifest: all but its root, which is that of the
leaf digests. -/
structure DeclaredManifest where
  byteLength : ℕ
  chunkSize : ℕ
  sourceSha256 : Text
  hashes : List (Text × Text)
  allowed : chunkSize ∈ allowedChunkSizes
  bounded : byteLength ≤ maxCalibrationSourceBytes
  counted : hashes.length = chunkCountOf byteLength chunkSize
  hexSource : hex64Pattern sourceSha256 = true
  hexHashes : Hex64Pairs hashes

namespace DeclaredManifest

variable (sha : Sha256) (d : DeclaredManifest) {i : ℕ}

def chunkCount : ℕ := chunkCountOf d.byteLength d.chunkSize

def leaves : List Bytes := leavesOf d.hashes

def manifest : ArtifactChunkManifest :=
  manifestOf d.byteLength d.chunkSize d.sourceSha256 (toHex (rootDigest sha d.leaves)) d.hashes

/-- The two digests of chunk `i`. -/
def hash (i : ℕ) : Text × Text := d.hashes.getD i ([], [])

def geometry (hi : i < d.chunkCount) : DeclaredGeometry :=
  ⟨d.byteLength, d.chunkSize, i, d.allowed, d.bounded, hi⟩

/-- The steps of the manifest's tree from chunk `i`. -/
def steps (i : ℕ) : List (Merkle.Step Bytes) :=
  Merkle.path (parentDigest sha) d.leaves (Nat.clog 2 d.chunkCount) i

def proof (hi : i < d.chunkCount) : ArtifactChunkProof :=
  (d.geometry hi).proofOf d.sourceSha256 (d.hash i).1 (d.hash i).2 (d.steps sha i)

theorem assertManifestConsistent_manifest : assertManifestConsistent sha (d.manifest sha) = .ok () :=
  (assertManifestConsistent_eq_ok sha _).mpr ⟨d.byteLength, d.chunkSize, d.sourceSha256, d.hashes,
    d.allowed, d.bounded, d.counted, d.hexSource, d.hexHashes, rfl⟩

@[simp] theorem length_leaves : d.leaves.length = d.chunkCount := by
  simp [leaves, leavesOf, d.counted, chunkCount]

theorem getElem?_hashes (hi : i < d.chunkCount) : d.hashes[i]? = some (d.hash i) := by
  have : i < d.hashes.length := by rwa [d.counted]
  simp [hash, List.getD_eq_getElem?_getD, this]

theorem hex64Pattern_hash (hi : i < d.chunkCount) :
    hex64Pattern (d.hash i).1 = true ∧ hex64Pattern (d.hash i).2 = true :=
  d.hexHashes _ (List.mem_of_getElem? (d.getElem?_hashes hi))

theorem getElem?_chunks (hi : i < d.chunkCount) :
    (d.manifest sha).chunks[i]? = some (entryOf d.byteLength d.chunkSize i (d.hash i)) := by
  rw [manifest, manifestOf, getElem?_entriesFrom, d.getElem?_hashes hi]
  simp

theorem length_mem_leaves : ∀ leaf ∈ d.leaves, leaf.length = 32 := by
  intro leaf hleaf
  obtain ⟨pair, hpair, rfl⟩ := List.mem_map.mp hleaf
  exact (toHex_hexToBuffer (d.hexHashes pair hpair).2).2

theorem hex64Pattern_merkleRoot : hex64Pattern (d.manifest sha).merkleRoot = true :=
  hex64Pattern_toHex (length_rootDigest sha d.length_mem_leaves)

theorem digestSteps_steps (hn : 0 < d.chunkCount) (i : ℕ) : DigestSteps (d.steps sha i) := by
  intro step hstep
  have hne : d.leaves ≠ [] := by
    rw [← List.length_pos_iff, length_leaves]
    exact hn
  obtain ⟨j, -, hmem⟩ := Merkle.mem_path (parentDigest sha) hne hstep
  exact length_mem_level sha d.length_mem_leaves j _ hmem

theorem length_steps : (d.steps sha i).length = Nat.clog 2 d.chunkCount := by
  simp [steps]

theorem buildArtifactChunkProof_manifest (hi : i < d.chunkCount) :
    buildArtifactChunkProof sha (d.manifest sha) i = .ok (d.proof sha hi) := by
  have hconsistent := d.assertManifestConsistent_manifest sha
  obtain ⟨levels, hlevels, -, -, htree⟩ := buildMerkleLevels_eq sha d.leaves
  have hne : d.leaves ≠ [] := by
    rw [← List.length_pos_iff, length_leaves]
    omega
  obtain rfl := htree hne
  have hleaves : (d.manifest sha).chunks.map (fun chunk => hexToBuffer chunk.merkleLeafSha256) =
      d.leaves := by
    rw [manifest, manifestOf, map_entriesFrom, leaves]
  have hnodes := buildProofNodesFromLevels_eq sha _ d.leaves i (by simpa using hi)
    (Nat.le_pow_clog (by omega) _)
  have hshort := clog_le_maxMerkleProofDepth (chunkCountOf_le d.allowed d.bounded)
  have hindex : (!(Number.ofNat i).isInteger || (Number.ofNat i).lt (Number.ofNat 0) ||
      (d.manifest sha).chunkCount.le (Number.ofNat i)) = false := by
    simpa [manifest, manifestOf, chunkCount] using hi
  have hfits : decide (((d.steps sha i).map nodeOf).length > maxMerkleProofDepth) = false := by
    simpa [length_steps, chunkCount] using hshort
  rw [length_leaves] at hnodes hlevels
  simp only [buildArtifactChunkProof, hconsistent, ok_bind, hleaves, hlevels, hnodes,
    Number.toNat_ofNat, d.getElem?_chunks sha hi, hindex, throwIf_false]
  rw [← steps, hfits]
  rfl

/-- There is no proof of a chunk the manifest does not have. -/
theorem buildArtifactChunkProof_outOfRange (hi : d.chunkCount ≤ i) :
    ∃ e, buildArtifactChunkProof sha (d.manifest sha) i = .error e := by
  have hcount : (d.manifest sha).chunkCount.le (Number.ofNat i) = true := by
    simpa [manifest, manifestOf, chunkCount] using hi
  simp only [buildArtifactChunkProof, d.assertManifestConsistent_manifest sha, ok_bind, hcount,
    Bool.or_true, throwIf_true, error_bind]
  exact ⟨_, rfl⟩

theorem assertProofShapeConsistent_proof (hi : i < d.chunkCount) :
    assertProofShapeConsistent (d.proof sha hi) = .ok () :=
  (assertProofShapeConsistent_eq_ok _).mpr ⟨d.geometry hi, d.sourceSha256, (d.hash i).1,
    (d.hash i).2, d.steps sha i, d.hexSource, (d.hex64Pattern_hash hi).1,
    (d.hex64Pattern_hash hi).2, d.digestSteps_steps sha (Nat.zero_lt_of_lt hi) i,
    d.length_steps sha, rfl⟩

/-- The proof built for a chunk is well shaped, so the verifier answers. -/
theorem verifyArtifactChunkProof_proof (hi : i < d.chunkCount) (chunkBytes : Bytes)
    {expectedRoot : Text} (hroot : hex64Pattern expectedRoot = true) :
    ∃ verified, verifyArtifactChunkProof sha (.bytes chunkBytes) (d.proof sha hi) expectedRoot =
      .ok verified := by
  have hshape := d.assertProofShapeConsistent_proof sha hi
  generalize d.proof sha hi = proof at hshape ⊢
  simp only [verifyArtifactChunkProof, assertIsUint8Array_bytes, ok_bind, hshape, hroot,
    Bool.not_true, throwIf_false]
  by_cases hlen : (!Number.strictEq chunkBytes.length proof.byteLength) = true
  · exact ⟨false, if_pos hlen⟩
  rw [if_neg hlen]
  by_cases hraw : (toHex (rawDigest sha chunkBytes) != proof.chunkSha256) = true
  · exact ⟨false, if_pos hraw⟩
  rw [if_neg hraw]
  by_cases hleaf : (toHex (merkleLeafDigest sha chunkBytes) != proof.merkleLeafSha256) = true
  · exact ⟨false, if_pos hleaf⟩
  rw [if_neg hleaf]
  cases walkProof sha (merkleLeafDigest sha chunkBytes) proof.chunkIndex.toNat
      proof.totalChunkCount.toNat proof.proof with
  | none => exact ⟨false, rfl⟩
  | some result =>
    by_cases hwidth : (result.2 != 1) = true
    · exact ⟨false, if_pos hwidth⟩
    · exact ⟨_, if_neg hwidth⟩

/-- It accepts only bytes of the chunk's declared length and digest. -/
theorem eq_of_verifyArtifactChunkProof (hi : i < d.chunkCount) {chunkBytes : Bytes}
    {expectedRoot : Text} (h : verifyArtifactChunkProof sha (.bytes chunkBytes) (d.proof sha hi)
      expectedRoot = .ok true) :
    chunkBytes.length = chunkLengthOf d.byteLength d.chunkSize i ∧
      toHex (rawDigest sha chunkBytes) = (d.hash i).1 := by
  obtain ⟨g, sourceSha256, steps, -, -, -, hproof, hlen, -⟩ :=
    (verifyArtifactChunkProof_eq_true sha chunkBytes _ expectedRoot).mp h
  simp only [proof, DeclaredGeometry.proofOf, ArtifactChunkProof.mk.injEq, Number.ofNat_inj]
    at hproof
  exact ⟨hlen.trans hproof.2.2.2.2.2.2.2.1.symm, hproof.2.2.2.2.2.2.2.2.1.symm⟩

/-- Whole-source verification against a consistent manifest always answers. -/
theorem verifyArtifactSourceManifest_manifest (source : Bytes) :
    ∃ answer, verifyArtifactSourceManifest sha (.bytes source) (d.manifest sha) = .ok answer := by
  simp only [verifyArtifactSourceManifest, assertIsUint8Array_bytes, ok_bind,
    d.assertManifestConsistent_manifest sha]
  refine exists_ok_ite ⟨_, rfl⟩ (exists_ok_ite ⟨_, rfl⟩ ?_)
  cases recomputeLeafDigests sha source (d.manifest sha).chunks with
  | none => exact ⟨_, rfl⟩
  | some leaves =>
    obtain ⟨levels, hlevels, -⟩ := buildMerkleLevels_eq sha leaves
    simp only [hlevels, ok_bind]
    cases lastRoot levels with
    | none => exact ⟨_, rfl⟩
    | some root => exact ⟨_, rfl⟩

end DeclaredManifest

/-! Proofs of a source's chunks. -/

section Source

variable (sha : Sha256) {source : Bytes} {cs i : ℕ}

/-- The geometry a source and one of its chunks have. -/
def geometryOf (source : Bytes) (cs i : ℕ) (hcs : cs ∈ allowedChunkSizes)
    (hlen : source.length ≤ maxCalibrationSourceBytes) (hi : i < chunkCountOf source.length cs) :
    DeclaredGeometry :=
  ⟨source.length, cs, i, hcs, hlen, hi⟩

/-- The steps of the source's tree from chunk `i`. -/
def sourcePath (source : Bytes) (cs i : ℕ) : List (Merkle.Step Bytes) :=
  Merkle.path (parentDigest sha) (sourceLeaves sha source cs)
    (Nat.clog 2 (chunkCountOf source.length cs)) i

/-- The proof built for a chunk of a source's manifest. -/
def sourceProof (source : Bytes) (cs i : ℕ) (hcs : cs ∈ allowedChunkSizes)
    (hlen : source.length ≤ maxCalibrationSourceBytes) (hi : i < chunkCountOf source.length cs) :
    ArtifactChunkProof :=
  (geometryOf source cs i hcs hlen hi).proofOf (toHex (rawDigest sha source))
    (toHex (rawDigest sha (chunkOf source cs i)))
    (toHex (merkleLeafDigest sha (chunkOf source cs i))) (sourcePath sha source cs i)

theorem sourceLeaves_ne_nil (hi : i < chunkCountOf source.length cs) :
    sourceLeaves sha source cs ≠ [] := by
  rw [← List.length_pos_iff, length_sourceLeaves]
  omega

theorem getD_sourceLeaves (hi : i < chunkCountOf source.length cs) :
    (sourceLeaves sha source cs).getD i default = merkleLeafDigest sha (chunkOf source cs i) := by
  simp [sourceLeaves, List.getD_eq_getElem?_getD, hi]

/-- A source declares its own manifest. -/
def DeclaredManifest.ofSource (source : Bytes) (cs : ℕ) (hcs : cs ∈ allowedChunkSizes)
    (hlen : source.length ≤ maxCalibrationSourceBytes) : DeclaredManifest :=
  ⟨source.length, cs, toHex (rawDigest sha source), sourceHashes sha source cs, hcs, hlen,
    length_sourceHashes sha source cs, hex64Pattern_toHex (sha.length_digest _),
    hex64Pairs_sourceHashes sha source cs⟩

theorem DeclaredManifest.manifest_ofSource (hcs : cs ∈ allowedChunkSizes)
    (hlen : source.length ≤ maxCalibrationSourceBytes) :
    (ofSource sha source cs hcs hlen).manifest sha = sourceManifest sha source cs := by
  simp [ofSource, manifest, leaves, sourceManifest]

theorem DeclaredManifest.hash_ofSource (hcs : cs ∈ allowedChunkSizes)
    (hlen : source.length ≤ maxCalibrationSourceBytes) (hi : i < chunkCountOf source.length cs) :
    (ofSource sha source cs hcs hlen).hash i = chunkHashes sha source cs i := by
  simp [ofSource, hash, sourceHashes, List.getD_eq_getElem?_getD, hi]

theorem DeclaredManifest.proof_ofSource (hcs : cs ∈ allowedChunkSizes)
    (hlen : source.length ≤ maxCalibrationSourceBytes) (hi : i < chunkCountOf source.length cs) :
    (ofSource sha source cs hcs hlen).proof sha hi = sourceProof sha source cs i hcs hlen hi := by
  simp only [proof, hash_ofSource sha hcs hlen hi, sourceProof, chunkHashes]
  simp [ofSource, geometry, geometryOf, steps, sourcePath, leaves, chunkCount]

theorem buildArtifactChunkProof_sourceManifest (hcs : cs ∈ allowedChunkSizes)
    (hlen : source.length ≤ maxCalibrationSourceBytes) (hi : i < chunkCountOf source.length cs) :
    buildArtifactChunkProof sha (sourceManifest sha source cs) i =
      .ok (sourceProof sha source cs i hcs hlen hi) := by
  have h := (DeclaredManifest.ofSource sha source cs hcs hlen).buildArtifactChunkProof_manifest
    sha hi
  rwa [DeclaredManifest.manifest_ofSource, DeclaredManifest.proof_ofSource] at h

theorem digestSteps_sourcePath (hn : 0 < chunkCountOf source.length cs) (i : ℕ) :
    DigestSteps (sourcePath sha source cs i) := by
  intro step hstep
  obtain ⟨j, -, hmem⟩ := Merkle.mem_path (parentDigest sha) (sourceLeaves_ne_nil sha hn) hstep
  exact length_mem_level sha (length_mem_sourceLeaves sha source cs) j _ hmem

theorem canonical_sourcePath (hi : i < chunkCountOf source.length cs) :
    Merkle.Canonical (parentDigest sha) (chunkCountOf source.length cs) i
      (merkleLeafDigest sha (chunkOf source cs i)) (sourcePath sha source cs i) := by
  have h := Merkle.canonical_path (parentDigest sha) (Nat.clog 2 (chunkCountOf source.length cs))
    (sourceLeaves sha source cs) i (by simpa using hi) (by simpa using Nat.le_pow_clog (by omega) _)
  rwa [length_sourceLeaves, getD_sourceLeaves sha hi] at h

theorem climb_sourcePath (hi : i < chunkCountOf source.length cs) :
    Merkle.climb (parentDigest sha) (merkleLeafDigest sha (chunkOf source cs i))
      (sourcePath sha source cs i) = rootDigest sha (sourceLeaves sha source cs) := by
  have hne := sourceLeaves_ne_nil sha hi
  have hone := Merkle.length_level_clog (parentDigest sha) _ (sourceLeaves sha source cs) hne rfl
  have h := Merkle.climb_path (parentDigest sha) _ (sourceLeaves sha source cs) i hne hone
  rw [length_sourceLeaves, Merkle.real_of_lt _ i hi (Nat.le_pow_clog (by omega) _),
    getD_sourceLeaves sha hi] at h
  rw [sourcePath, h, rootDigest, length_sourceLeaves, if_neg (by omega)]

theorem verifyArtifactChunkProof_sourceProof (hcs : cs ∈ allowedChunkSizes)
    (hlen : source.length ≤ maxCalibrationSourceBytes) (hi : i < chunkCountOf source.length cs) :
    verifyArtifactChunkProof sha (.bytes (chunkOf source cs i))
      (sourceProof sha source cs i hcs hlen hi) (sourceManifest sha source cs).merkleRoot =
        .ok true := by
  rw [verifyArtifactChunkProof_eq_true]
  refine ⟨geometryOf source cs i hcs hlen hi, _, sourcePath sha source cs i,
    hex64Pattern_toHex (sha.length_digest source), digestSteps_sourcePath sha (by omega) i, ?_, rfl,
    length_chunkOf i, canonical_sourcePath sha hi, ?_⟩
  · simp [sourcePath, geometryOf, DeclaredGeometry.totalChunkCount]
  · rw [climb_sourcePath sha hi]
    rfl

end Source

/-- Build, prove, verify. For every source and chunk size within bounds the
builder succeeds, the proof of every chunk is built and accepted, the number of
its nodes is the expected depth and the number of levels above the leaves, and
the walk ends at width one. -/
theorem build_prove_verify (sha : Sha256) (source : Bytes) (chunkSize : Number)
    (hlen : source.length ≤ maxCalibrationSourceBytes)
    (hsize : isAllowedChunkSize chunkSize = true) :
    ∃ manifest, buildArtifactChunkManifest sha (.bytes source) chunkSize = .ok manifest ∧
      ∀ i : ℕ, Number.lt i manifest.chunkCount = true →
        ∃ proof levels, buildArtifactChunkProof sha manifest i = .ok proof ∧
          verifyArtifactChunkProof sha (.bytes (chunkOf source chunkSize.toNat i)) proof
            manifest.merkleRoot = .ok true ∧
          buildMerkleLevels sha (manifest.chunks.map fun chunk =>
            hexToBuffer chunk.merkleLeafSha256) = .ok levels ∧
          proof.proof.length = expectedProofDepthFor manifest.chunkCount ∧
          expectedProofDepthFor manifest.chunkCount = levels.length - 1 ∧
          ∃ root, walkProof sha (merkleLeafDigest sha (chunkOf source chunkSize.toNat i)) i
            manifest.chunkCount.toNat proof.proof = some (root, 1) := by
  obtain ⟨cs, hcs, rfl⟩ := isAllowedChunkSize_eq_true.mp hsize
  refine ⟨sourceManifest sha source cs,
    (buildArtifactChunkManifest_eq_ok sha).mpr ⟨hlen, cs, hcs, rfl, rfl⟩, fun i hlt => ?_⟩
  have hi : i < chunkCountOf source.length cs := by simpa [sourceManifest, manifestOf] using hlt
  obtain ⟨levels, hlevels, -, hcount, -⟩ := buildMerkleLevels_eq sha (sourceLeaves sha source cs)
  have hdepth : expectedProofDepthFor (sourceManifest sha source cs).chunkCount =
      Nat.clog 2 (chunkCountOf source.length cs) := expectedProofDepthFor_ofNat _
  rw [Number.toNat_ofNat]
  refine ⟨_, levels, buildArtifactChunkProof_sourceManifest sha hcs hlen hi,
    verifyArtifactChunkProof_sourceProof sha hcs hlen hi, ?_, ?_, ?_, ?_⟩
  · rwa [sourceManifest, manifestOf, map_entriesFrom, leavesOf_sourceHashes]
  · rw [hdepth]
    simp [sourceProof, DeclaredGeometry.proofOf, sourcePath]
  · rw [hdepth, hcount, length_sourceLeaves]
    rfl
  · have hwidth : widthAfter (chunkCountOf source.length cs) (sourcePath sha source cs i).length =
        1 := by
      rw [sourcePath, Merkle.length_path]
      exact widthAfter_clog _ _ (by omega) rfl
    refine ⟨Merkle.climb (parentDigest sha) (merkleLeafDigest sha (chunkOf source cs i))
      (sourcePath sha source cs i), ?_⟩
    rw [← hwidth]
    exact (walkProof_eq_some sha _ _ _ _ _).mpr ⟨canonical_sourcePath sha hi, rfl⟩

/-- Two full chunks of zeros and a last chunk of one byte. -/
def threeChunks : Bytes := List.replicate 2048 0 ++ [1]

theorem length_threeChunks : threeChunks.length = 2049 := by
  rw [threeChunks, List.length_append, List.length_replicate, List.length_singleton]

theorem chunkCountOf_threeChunks : chunkCountOf threeChunks.length 1024 = 3 := by
  rw [length_threeChunks]
  decide

theorem bounded_threeChunks : threeChunks.length ≤ maxCalibrationSourceBytes := by
  rw [length_threeChunks]
  decide

/-- The round trip of the three chunks. -/
theorem build_prove_verify_threeChunks : ∃ manifest,
    buildArtifactChunkManifest sha256 (.bytes threeChunks) (1024 : ℕ) = .ok manifest ∧
      manifest.chunkCount = (3 : ℕ) ∧
      ∀ i : ℕ, i < 3 → ∃ proof, buildArtifactChunkProof sha256 manifest i = .ok proof ∧
        proof.proof.length = 2 ∧
        verifyArtifactChunkProof sha256 (.bytes (chunkOf threeChunks 1024 i)) proof
          manifest.merkleRoot = .ok true := by
  have hsize : isAllowedChunkSize (1024 : ℕ) = true :=
    isAllowedChunkSize_eq_true.mpr ⟨1024, by decide, rfl⟩
  obtain ⟨manifest, hbuild, hproofs⟩ :=
    build_prove_verify sha256 threeChunks (1024 : ℕ) bounded_threeChunks hsize
  have hcount : manifest.chunkCount = (3 : ℕ) := by
    obtain ⟨-, cs, -, hcs, rfl⟩ := (buildArtifactChunkManifest_eq_ok sha256).mp hbuild
    obtain rfl := Number.ofNat_inj.mp hcs
    exact congrArg Number.ofNat chunkCountOf_threeChunks
  refine ⟨manifest, hbuild, hcount, fun i hi => ?_⟩
  obtain ⟨proof, levels, hproof, hverified, -, hlength, -⟩ := hproofs i (by simpa [hcount] using hi)
  rw [hcount, expectedProofDepthFor_ofNat] at hlength
  exact ⟨proof, hproof, hlength.trans (by decide), hverified⟩

end ChunkManifest
