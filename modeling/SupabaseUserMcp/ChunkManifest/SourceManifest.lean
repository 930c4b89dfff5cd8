import SupabaseUserMcp.ChunkManifest.Consistency

/- The manifest of a source. `buildArtifactChunkManifest` succeeds on exactly the
   sources and chunk sizes within bounds and returns `sourceManifest`;
   `verifyArtifactSourceManifest` accepts exactly what the builder returns. No
   property of the hash is used but the length of its digests. -/
namespace ChunkManifest

open Js

/-! The chunks of a source. -/

/-- Chunk `i`: `source.subarray(start, end)`. -/
def chunkOf (source : Bytes) (cs i : ℕ) : Bytes :=
  subarray source (i * cs) (min (i * cs + cs) source.length)

/-- The two digests of chunk `i`, in hexadecimal. -/
def chunkHashes (sha : Sha256) (source : Bytes) (cs i : ℕ) : Text × Text :=
  (toHex (rawDigest sha (chunkOf source cs i)), toHex (merkleLeafDigest sha (chunkOf source cs i)))

def sourceHashes (sha : Sha256) (source : Bytes) (cs : ℕ) : List (Text × Text) :=
  (List.range (chunkCountOf source.length cs)).map (chunkHashes sha source cs)

def sourceLeaves (sha : Sha256) (source : Bytes) (cs : ℕ) : List Bytes :=
  (List.range (chunkCountOf source.length cs)).map fun i =>
    merkleLeafDigest sha (chunkOf source cs i)

/-- The manifest the builder returns for a source. -/
def sourceManifest (sha : Sha256) (source : Bytes) (cs : ℕ) : ArtifactChunkManifest :=
  manifestOf source.length cs (toHex (rawDigest sha source))
    (toHex (rootDigest sha (sourceLeaves sha source cs))) (sourceHashes sha source cs)

section Source

variable (sha : Sha256) (source : Bytes) (cs : ℕ)

@[simp] theorem length_sourceHashes :
    (sourceHashes sha source cs).length = chunkCountOf source.length cs := by
  simp [sourceHashes]

@[simp] theorem length_sourceLeaves :
    (sourceLeaves sha source cs).length = chunkCountOf source.length cs := by
  simp [sourceLeaves]

@[simp] theorem leavesOf_sourceHashes :
    leavesOf (sourceHashes sha source cs) = sourceLeaves sha source cs := by
  simp [leavesOf, sourceHashes, sourceLeaves, chunkHashes, hexToBuffer, Function.comp_def]

theorem length_mem_sourceLeaves : ∀ leaf ∈ sourceLeaves sha source cs, leaf.length = 32 := by
  intro leaf hleaf
  obtain ⟨i, -, rfl⟩ := List.mem_map.mp hleaf
  exact sha.length_digest _

theorem hex64Pairs_sourceHashes : Hex64Pairs (sourceHashes sha source cs) := by
  intro pair hpair
  obtain ⟨i, -, rfl⟩ := List.mem_map.mp hpair
  exact ⟨hex64Pattern_toHex (sha.length_digest _), hex64Pattern_toHex (sha.length_digest _)⟩

variable {source cs}

theorem length_chunkOf (i : ℕ) :
    (chunkOf source cs i).length = chunkLengthOf source.length cs i := by
  simp [chunkOf, subarray, chunkLengthOf]

/-- A manifest of a source is consistent. -/
theorem assertManifestConsistent_sourceManifest (hcs : cs ∈ allowedChunkSizes)
    (hlen : source.length ≤ maxCalibrationSourceBytes) :
    assertManifestConsistent sha (sourceManifest sha source cs) = .ok () := by
  rw [assertManifestConsistent_eq_ok]
  refine ⟨source.length, cs, _, sourceHashes sha source cs, hcs, hlen, by simp,
    hex64Pattern_toHex (sha.length_digest source), hex64Pairs_sourceHashes sha source cs, ?_⟩
  rw [leavesOf_sourceHashes, sourceManifest, rawDigest]

/-! The builder. -/

variable (source cs) in
/-- One iteration of the builder's loop. -/
theorem buildChunk_eq (i : ℕ) : buildChunk sha source cs i =
    (entryOf source.length cs i (chunkHashes sha source cs i),
      merkleLeafDigest sha (chunkOf source cs i)) := rfl

variable (source cs) in
/-- The entries and the leaf digests the builder pushes. -/
theorem map_buildChunk :
    ((List.range (chunkCountOf source.length cs)).map (buildChunk sha source cs)).map Prod.fst =
      entriesFrom source.length cs 0 (sourceHashes sha source cs) ∧
    ((List.range (chunkCountOf source.length cs)).map (buildChunk sha source cs)).map Prod.snd =
      sourceLeaves sha source cs := by
  constructor
  · refine List.ext_getElem? fun k => ?_
    rw [getElem?_entriesFrom, sourceHashes, Nat.zero_add]
    by_cases hk : k < chunkCountOf source.length cs
    · simp [buildChunk_eq, hk]
    · simp [hk]
  · simp [sourceLeaves, buildChunk_eq, Function.comp_def]

/-- The builder returns the source's manifest, and fails only out of bounds. -/
theorem buildArtifactChunkManifest_eq_ok {chunkSize : Number} {manifest : ArtifactChunkManifest} :
    buildArtifactChunkManifest sha (.bytes source) chunkSize = .ok manifest ↔
      source.length ≤ maxCalibrationSourceBytes ∧
        ∃ cs ∈ allowedChunkSizes, chunkSize = Number.ofNat cs ∧
          manifest = sourceManifest sha source cs := by
  have hbuilt : ∀ cs ∈ allowedChunkSizes, source.length ≤ maxCalibrationSourceBytes →
      buildArtifactChunkManifest sha (.bytes source) (Number.ofNat cs) =
        .ok (sourceManifest sha source cs) := by
    intro cs hcs hlen
    obtain ⟨levels, hlevels, hroot, -⟩ := buildMerkleLevels_eq sha (sourceLeaves sha source cs)
    have hsize := isAllowedChunkSize_eq_true.mpr ⟨cs, hcs, rfl⟩
    have hfits : decide (source.length > maxCalibrationSourceBytes) = false := by simpa using hlen
    have hcount := chunkCountOf_le hcs hlen
    simp only [buildArtifactChunkManifest, assertIsUint8Array_bytes, ok_bind, hsize, Bool.not_true,
      throwIf_false, hfits, expectedChunkCount (pos_of_allowed hcs), Number.gt_ofNat,
      decide_eq_false (Nat.not_lt.mpr hcount), Number.toNat_ofNat, map_buildChunk, hlevels, hroot]
    rfl
  constructor
  · intro h
    have hbounds : isAllowedChunkSize chunkSize = true ∧
        source.length ≤ maxCalibrationSourceBytes := by
      simp only [buildArtifactChunkManifest, assertIsUint8Array_bytes, ok_bind, bind_eq_ok,
        throwIf_eq_ok, exists_const, Bool.not_eq_false', decide_eq_false_iff_not, not_lt, gt_iff_lt]
        at h
      exact ⟨h.1, h.2.1⟩
    obtain ⟨cs, hcs, rfl⟩ := isAllowedChunkSize_eq_true.mp hbounds.1
    rw [hbuilt cs hcs hbounds.2] at h
    exact ⟨hbounds.2, cs, hcs, rfl, (Except.ok.inj h).symm⟩
  · rintro ⟨hlen, cs, hcs, rfl, rfl⟩
    exact hbuilt cs hcs hlen

/-! The verifier of whole sources. -/

/-- The loop of the verifier succeeds on exactly the digests of the source's chunks. -/
theorem recomputeLeafDigests_eq_some (hcs : 0 < cs) : ∀ (hashes : List (Text × Text)) (i : ℕ)
    (leaves : List Bytes), i + hashes.length = chunkCountOf source.length cs →
    (recomputeLeafDigests sha source (entriesFrom source.length cs i hashes) = some leaves ↔
      hashes = (List.range' i hashes.length).map (chunkHashes sha source cs) ∧
      leaves = (List.range' i hashes.length).map fun j =>
        merkleLeafDigest sha (chunkOf source cs j)) := by
  intro hashes
  induction hashes with
  | nil => intro i leaves _; simp [entriesFrom, recomputeLeafDigests, eq_comm]
  | cons pair hashes ih =>
    intro i leaves hi
    rw [List.length_cons] at hi
    have hlt := (lt_chunkCountOf hcs).mp
      (show i < chunkCountOf source.length cs by omega)
    have hstop : i * cs + chunkLengthOf source.length cs i = min (i * cs + cs) source.length := by
      rw [chunkLengthOf]; omega
    simp only [entriesFrom, recomputeLeafDigests, entryOf, Number.add_ofNat, Number.toNat_ofNat,
      hstop, List.length_cons, List.range'_succ, List.map_cons]
    rw [← chunkOf]
    obtain ⟨raw, leaf⟩ := pair
    simp only [bind, Option.bind_eq_some_iff, Option.guard_eq_some', exists_const, chunkHashes,
      List.cons.injEq, Prod.mk.injEq, Option.some.injEq]
    constructor
    · rintro ⟨hraw, hleaf, tail, htail, rfl⟩
      obtain ⟨hhashes, rfl⟩ := (ih (i + 1) tail (by omega)).mp htail
      exact ⟨⟨⟨hraw.symm, hleaf.symm⟩, hhashes⟩, rfl⟩
    · rintro ⟨⟨⟨rfl, rfl⟩, hhashes⟩, rfl⟩
      exact ⟨rfl, rfl, _, (ih (i + 1) _ (by omega)).mpr ⟨hhashes, rfl⟩, rfl⟩

/-- The verifier accepts the source's manifest of an allowed size and nothing else. -/
theorem verifyArtifactSourceManifest_eq_true {manifest : ArtifactChunkManifest} :
    verifyArtifactSourceManifest sha (.bytes source) manifest = .ok true ↔
      source.length ≤ maxCalibrationSourceBytes ∧
        ∃ cs ∈ allowedChunkSizes, manifest = sourceManifest sha source cs := by
  constructor
  · intro h
    simp only [verifyArtifactSourceManifest, assertIsUint8Array_bytes, ok_bind, bind_eq_ok] at h
    obtain ⟨⟨⟩, hconsistent, h⟩ := h
    obtain ⟨byteLength, cs, sourceSha256, hashes, hcs, hmax, hcount, -, hhex, rfl⟩ :=
      (assertManifestConsistent_eq_ok sha manifest).mp hconsistent
    simp only [manifestOf, Number.strictEq_ofNat] at h
    -- Every early return yields `false`, so each comparison succeeded.
    have hlen : source.length = byteLength := by
      by_contra hne
      simp [hne] at h
    subst hlen
    have hraw : toHex (rawDigest sha source) = sourceSha256 := by
      by_contra hne
      simp [hne] at h
    subst hraw
    cases hleaves : recomputeLeafDigests sha source (entriesFrom source.length cs 0 hashes) with
    | none => simp [hleaves] at h
    | some leaves =>
      obtain ⟨hhashes, -⟩ := (recomputeLeafDigests_eq_some sha (pos_of_allowed hcs) hashes 0 leaves
        (by simpa using hcount)).mp hleaves
      have hsource : hashes = sourceHashes sha source cs := by
        rw [hhashes, hcount, sourceHashes, List.range_eq_range']
      exact ⟨hmax, cs, hcs, by rw [hsource, leavesOf_sourceHashes, sourceManifest]⟩
  · rintro ⟨hlen, cs, hcs, rfl⟩
    have hleaves : recomputeLeafDigests sha source (sourceManifest sha source cs).chunks =
        some (sourceLeaves sha source cs) :=
      (recomputeLeafDigests_eq_some sha (pos_of_allowed hcs) _ 0 _ (by simp)).mpr
        ⟨by simp [sourceHashes, List.range_eq_range'],
          by simp [sourceLeaves, List.range_eq_range']⟩
    obtain ⟨levels, hlevels, hroot, -⟩ := buildMerkleLevels_eq sha (sourceLeaves sha source cs)
    have hconsistent := assertManifestConsistent_sourceManifest sha hcs hlen
    simp only [verifyArtifactSourceManifest, assertIsUint8Array_bytes, ok_bind, hconsistent,
      hleaves, hlevels, hroot]
    simp [sourceManifest, manifestOf]

/-- Whole-source verification is exact: it accepts a manifest if and only if the
builder returns that very manifest for the source and the manifest's own chunk
size. Everything else is a `false` or the module's error. -/
theorem verifyArtifactSourceManifest_exact (sha : Sha256) (source : Bytes)
    (manifest : ArtifactChunkManifest) :
    (verifyArtifactSourceManifest sha (.bytes source) manifest = .ok true ↔
      source.length ≤ maxCalibrationSourceBytes ∧
      isAllowedChunkSize manifest.chunkSize = true ∧
      buildArtifactChunkManifest sha (.bytes source) manifest.chunkSize = .ok manifest) ∧
    (verifyArtifactSourceManifest sha (.bytes source) manifest ≠ .ok true →
      verifyArtifactSourceManifest sha (.bytes source) manifest = .ok false ∨
      ∃ error, verifyArtifactSourceManifest sha (.bytes source) manifest = .error error) := by
  constructor
  · rw [verifyArtifactSourceManifest_eq_true, buildArtifactChunkManifest_eq_ok]
    constructor
    · rintro ⟨hlen, cs, hcs, rfl⟩
      exact ⟨hlen, isAllowedChunkSize_eq_true.mpr ⟨cs, hcs, rfl⟩, hlen, cs, hcs, rfl, rfl⟩
    · rintro ⟨hlen, -, -, cs, hcs, -, hmanifest⟩
      exact ⟨hlen, cs, hcs, hmanifest⟩
  · intro h
    rcases hv : verifyArtifactSourceManifest sha (.bytes source) manifest with error | b
    · exact .inr ⟨error, rfl⟩
    · cases b
      · exact .inl rfl
      · exact absurd hv h

end Source

end ChunkManifest
