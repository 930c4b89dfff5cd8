import SupabaseUserMcp.ChunkManifest.ProofBinding

/- Under one root, at one declared position, the verifier accepts one chunk and
   one path. The declared index dictates the side of every sibling, so two
   accepted climbs combine their pairs in the same order, and where no two
   hashed messages collide they agree from the root down to the leaf. Nothing
   is asked of the root: it need not be that of any source. -/
namespace ChunkManifest

open Js

section Uniqueness

variable (sha : Sha256) {chunkBytes otherBytes : Bytes} {proof other : ArtifactChunkProof}

theorem mem_verificationMessages_of_climb {steps : List (Merkle.Step Bytes)}
    (hproof : proof.proof = steps.map nodeOf) {pair : Bytes × Bytes}
    (hpair : pair ∈ Merkle.climbPairs (parentDigest sha) (merkleLeafDigest sha chunkBytes) steps) :
    parentMessage pair ∈ verificationMessages sha chunkBytes proof := by
  refine .inr ⟨pair, ?_, rfl⟩
  rwa [hproof, map_stepOf_nodeOf]

/-- Proofs of one count and one index that are accepted under one root are of
one chunk and carry the same siblings. The chunk size they declare plays no part. -/
theorem accepted_unique {expectedRoot : Text}
    (hcount : proof.totalChunkCount = other.totalChunkCount)
    (hindex : proof.chunkIndex = other.chunkIndex)
    (hfree : sha.CollisionFree (verificationMessages sha chunkBytes proof ∪
      verificationMessages sha otherBytes other))
    (h : verifyArtifactChunkProof sha (.bytes chunkBytes) proof expectedRoot = .ok true)
    (hother : verifyArtifactChunkProof sha (.bytes otherBytes) other expectedRoot = .ok true) :
    chunkBytes = otherBytes ∧ proof.proof = other.proof := by
  obtain ⟨g, source, steps, -, hsteps, hdepth, hproof, -, hcanonical, hroot⟩ :=
    (verifyArtifactChunkProof_eq_true sha chunkBytes proof expectedRoot).mp h
  obtain ⟨g', source', steps', -, hsteps', hdepth', hproof', -, hcanonical', hroot'⟩ :=
    (verifyArtifactChunkProof_eq_true sha otherBytes other expectedRoot).mp hother
  have hnodes : proof.proof = steps.map nodeOf := by rw [hproof]; rfl
  have hnodes' : other.proof = steps'.map nodeOf := by rw [hproof']; rfl
  -- One count gives one depth, one index the same sides.
  have hcount' : g.totalChunkCount = g'.totalChunkCount := by
    rw [hproof, hproof'] at hcount
    exact Number.ofNat_inj.mp hcount
  have hindex' : g.chunkIndex = g'.chunkIndex := by
    rw [hproof, hproof'] at hindex
    exact Number.ofNat_inj.mp hindex
  have hlength : steps.length = steps'.length := by rw [hdepth, hdepth', hcount']
  rw [← hindex'] at hcanonical'
  have hsides := Merkle.Canonical.sides_eq _ hcanonical hcanonical' hlength
  have hclimb := length_mem_climbPairs sha steps (merkleLeafDigest sha chunkBytes)
    (sha.length_digest _) hsteps
  have hclimb' := length_mem_climbPairs sha steps' (merkleLeafDigest sha otherBytes)
    (sha.length_digest _) hsteps'
  have hinj : ∀ p ∈ Merkle.climbPairs (parentDigest sha) (merkleLeafDigest sha chunkBytes) steps,
      ∀ q ∈ Merkle.climbPairs (parentDigest sha) (merkleLeafDigest sha otherBytes) steps',
      parentDigest sha p.1 p.2 = parentDigest sha q.1 q.2 → p = q := by
    intro p hp q hq hparent
    exact parentMessage_inj (hclimb p hp) (hclimb' q hq)
      (hfree (.inl (mem_verificationMessages_of_climb sha hnodes hp))
        (.inr (mem_verificationMessages_of_climb sha hnodes' hq)) hparent)
  obtain ⟨hleaf, hpath⟩ := Merkle.climb_inj (parentDigest sha) hsides hinj
    (toHex_injective (hroot.symm.trans hroot'))
  constructor
  · exact leafMessage_inj.mp (hfree (.inl (.inl rfl)) (.inr (.inl rfl)) hleaf)
  · rw [hnodes, hnodes', hpath]

/-- The proof with another digest named as that of the whole source. -/
def ArtifactChunkProof.naming (proof : ArtifactChunkProof) (sourceSha256 : Text) :
    ArtifactChunkProof :=
  { proof with sourceSha256 }

/-- Which digest a proof names as that of the whole source plays no part. -/
theorem verifyArtifactChunkProof_naming {expectedRoot sourceSha256 : Text}
    (hhex : hex64Pattern sourceSha256 = true)
    (h : verifyArtifactChunkProof sha (.bytes chunkBytes) proof expectedRoot = .ok true) :
    verifyArtifactChunkProof sha (.bytes chunkBytes) (proof.naming sourceSha256) expectedRoot =
      .ok true := by
  obtain ⟨g, source, steps, -, hsteps, hdepth, hproof, hrest⟩ :=
    (verifyArtifactChunkProof_eq_true sha chunkBytes proof expectedRoot).mp h
  refine (verifyArtifactChunkProof_eq_true sha chunkBytes _ expectedRoot).mpr
    ⟨g, sourceSha256, steps, hhex, hsteps, hdepth, ?_, hrest⟩
  rw [hproof]
  rfl

theorem verificationMessages_naming (sourceSha256 : Text) :
    verificationMessages sha chunkBytes (proof.naming sourceSha256) =
      verificationMessages sha chunkBytes proof := rfl

end Uniqueness

/-- The last of three chunks under two proofs that differ in the source's digest. -/
theorem accepted_unique_fourthOfFour :
    chunkOf threeChunks 1024 2 = chunkOf threeChunks 1024 2 ∧
      (restated sha256 threeChunks fourthOfFour).proof =
        ((restated sha256 threeChunks fourthOfFour).naming (List.replicate 64 0x30)).proof := by
  obtain ⟨hfree, h⟩ := verify_fourthOfFour
  have hhex : hex64Pattern (List.replicate 64 0x30) = true := by decide
  have hother := verifyArtifactChunkProof_naming sha256 hhex h
  refine accepted_unique sha256 ?_ ?_ ?_ h hother
  · rfl
  · rfl
  · rw [verificationMessages_naming, Set.union_self]
    exact hfree.mono Set.subset_union_left

end ChunkManifest
