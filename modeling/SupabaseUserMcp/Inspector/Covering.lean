import Mathlib.Data.List.Range
import SupabaseUserMcp.Inspector.Records

/- The covering chunks of a read. Against a consistent manifest their proofs are
   always built and their verification always answers; where it answers yes,
   every chunk's bytes have the digest the manifest declares. -/
namespace Inspector

open Js Inspection ChunkManifest

variable (platform : Platform) (d : DeclaredManifest)

/-- Chunk `i` as a read reports it. -/
def verifiedChunk (i : ℕ) : VerifiedChunk :=
  ⟨i, i * d.chunkSize, chunkLengthOf d.byteLength d.chunkSize i, (d.hash i).1,
    (d.steps platform.sha256 i).map fun step => ⟨positionOf step.side, toHex step.sibling⟩⟩

theorem verifiedChunkOf_proof {i : ℕ} (hi : i < d.chunkCount) :
    verifiedChunkOf (d.proof platform.sha256 hi) = verifiedChunk platform d i := by
  simp [verifiedChunkOf, verifiedChunk, DeclaredManifest.proof, DeclaredGeometry.proofOf,
    DeclaredManifest.geometry, DeclaredGeometry.byteLength, nodeOf]

/-- The bytes of chunk `i` in a buffer that starts at an offset of the source. -/
def chunkSlice (buffer : Bytes) (bufferOffset i : ℕ) : Bytes :=
  subarray buffer (i * d.chunkSize - bufferOffset)
    (i * d.chunkSize - bufferOffset + chunkLengthOf d.byteLength d.chunkSize i)

theorem chunkBytesAt_manifest (buffer : Bytes) (bufferOffset : ℕ) {i : ℕ} (hi : i < d.chunkCount) :
    chunkBytesAt (d.manifest platform.sha256) buffer bufferOffset i =
      .ok (chunkSlice d buffer bufferOffset i) := by
  simp [chunkBytesAt, chunkAt, d.getElem?_chunks platform.sha256 hi, entryOf, chunkSlice]

/-- The verification of chunks answers, and where it finds them verified they are
chunks of the manifest, reported in order, each with its declared digest. -/
theorem verifyCoveringChunks_manifest (buffer : Bytes) (bufferOffset : ℕ) :
    ∀ indexes : List ℕ,
      ∃ found, verifyCoveringChunks platform (d.manifest platform.sha256)
          (chunkBytesAt (d.manifest platform.sha256) buffer bufferOffset) indexes = .ok found ∧
        ∀ verified, found = some verified →
          verified = indexes.map (verifiedChunk platform d) ∧
          ∀ i ∈ indexes, i < d.chunkCount ∧
            (chunkSlice d buffer bufferOffset i).length =
              chunkLengthOf d.byteLength d.chunkSize i ∧
            platform.sha256Hex (chunkSlice d buffer bufferOffset i) = (d.hash i).1 := by
  intro indexes
  induction indexes with
  | nil =>
    refine ⟨some [], rfl, ?_⟩
    intro verified hverified
    cases hverified
    exact ⟨rfl, by simp⟩
  | cons i rest ih =>
    obtain ⟨foundRest, hrest, hverifiedRest⟩ := ih
    by_cases hi : i < d.chunkCount
    · obtain ⟨answer, hanswer⟩ := d.verifyArtifactChunkProof_proof platform.sha256 hi
        (chunkSlice d buffer bufferOffset i) (d.hex64Pattern_merkleRoot platform.sha256)
      simp only [verifyCoveringChunks, d.buildArtifactChunkProof_manifest platform.sha256 hi,
        chunkBytesAt_manifest platform d buffer bufferOffset hi, hanswer, hrest, Except.mapError,
        ok_bind, pure_eq_ok]
      cases answer with
      | false => exact ⟨none, rfl, by simp⟩
      | true =>
        refine ⟨_, rfl, ?_⟩
        intro verified hverified
        obtain ⟨verifiedRest, hsome, rfl⟩ := Option.map_eq_some_iff.mp hverified
        obtain ⟨rfl, hdigests⟩ := hverifiedRest verifiedRest hsome
        have hdigest := d.eq_of_verifyArtifactChunkProof platform.sha256 hi hanswer
        refine ⟨by rw [verifiedChunkOf_proof]; rfl, ?_⟩
        intro j hj
        rcases List.mem_cons.mp hj with rfl | hj
        · exact ⟨hi, hdigest⟩
        · exact hdigests j hj
    · obtain ⟨e, he⟩ := d.buildArtifactChunkProof_outOfRange platform.sha256 (Nat.le_of_not_lt hi)
      refine ⟨none, ?_, by simp⟩
      simp only [verifyCoveringChunks, he]

/-! Reported chunks. -/

theorem intFrom_of {lo n : ℕ} (hlo : lo ≤ n) (hsafe : n ≤ 9007199254740991) :
    intFrom lo n = true := by
  rw [intFrom, Number.isSafeInteger_ofNat hsafe]
  simpa using hlo

theorem accepts_sha256Hex {s : Text} (h : hex64Pattern s = true) :
    accepts sha256HexSchema s = true := by
  rw [accepts, Option.isSome_iff_exists]
  exact ⟨s, Schema.refine_of rfl h⟩

variable {d}

theorem start_le_bound {i : ℕ} (hi : i < d.chunkCount) : i * d.chunkSize < d.byteLength :=
  (lt_chunkCountOf (pos_of_allowed d.allowed)).mp hi

/-- A reported chunk passes the schema of a verified chunk. -/
theorem verifiedChunkSchema_verifiedChunk {i : ℕ} (hi : i < d.chunkCount) :
    verifiedChunkSchema (verifiedChunk platform d i) = true := by
  have hstart := start_le_bound hi
  have hbounded := d.bounded
  have hcount : d.chunkCount ≤ maxChunkCount := chunkCountOf_le d.allowed d.bounded
  have hmax : maxCalibrationSourceBytes = 1048576 ∧ maxChunkCount ≤ 1048576 := by decide
  have hlength : chunkLengthOf d.byteLength d.chunkSize i ≤ d.byteLength := by
    rw [chunkLengthOf]
    omega
  have hnodes : ((d.steps platform.sha256 i).map fun step =>
      (⟨positionOf step.side, toHex step.sibling⟩ : MerkleProofNode)).all merkleProofNodeSchema =
        true := by
    rw [List.all_map, List.all_eq_true]
    intro step hstep
    have hdigest := d.digestSteps_steps platform.sha256 (by omega) i step hstep
    have hposition : (positionOf step.side == text "left" || positionOf step.side == text "right") =
        true := by
      cases step.side <;> decide
    simp [merkleProofNodeSchema, hposition, accepts_sha256Hex (hex64Pattern_toHex hdigest)]
  have hdepth : (d.steps platform.sha256 i).length ≤ Inspection.maxMerkleProofDepth := by
    rw [d.length_steps platform.sha256]
    exact clog_le_maxMerkleProofDepth hcount
  simp only [verifiedChunkSchema, verifiedChunk, intFrom_of (Nat.zero_le i) (by omega),
    intFrom_of (Nat.zero_le (i * d.chunkSize)) (by omega),
    intFrom_of (chunkLengthOf_pos (pos_of_allowed d.allowed) hi) (by omega),
    accepts_sha256Hex (d.hex64Pattern_hash hi).1, hnodes, List.length_map, Bool.and_true,
    Bool.true_and]
  exact decide_eq_true hdepth

/-! Range reads. -/

/-- The integrity object of a range read of a manifest's chunks. -/
def rangeIntegrity (d : DeclaredManifest) (offset length startChunkIndex endChunkIndex : ℕ)
    (returnedByteSha256 : Text) : PartialReadIntegrity :=
  ⟨.byteRange offset length, ⟨startChunkIndex, endChunkIndex⟩, ⟨offset, length⟩, d.chunkSize,
    d.chunkCount, (List.range' startChunkIndex (endChunkIndex + 1 - startChunkIndex)).map
      (verifiedChunk platform d), (d.manifest platform.sha256).merkleRoot, returnedByteSha256,
    d.sourceSha256⟩

/-- The intervals of a range read: the requested bytes lie in the covering ones. -/
theorem covering_bounds {cs len offset length : ℕ} (hcs : 0 < cs) (hlength : 0 < length)
    (hinside : offset + length ≤ len) :
    offset / cs ≤ (offset + length - 1) / cs ∧ offset / cs * cs ≤ offset ∧
      offset + length ≤ min (((offset + length - 1) / cs + 1) * cs) len := by
  refine ⟨Nat.div_le_div_right (by omega), Nat.div_mul_le_self offset cs, ?_⟩
  have hlast : offset + length - 1 < ((offset + length - 1) / cs + 1) * cs :=
    Nat.lt_mul_of_div_lt (Nat.lt_succ_self _) hcs
  omega

/-- A relation between neighbours holds along a range. -/
theorem isChain_range'_of {R : ℕ → ℕ → Prop} : ∀ {n start : ℕ},
    (∀ i, start ≤ i → i + 1 < start + n → R i (i + 1)) → (List.range' start n).IsChain R := by
  intro n
  induction n with
  | zero =>
    intro start _
    exact List.isChain_nil
  | succ n ih =>
    intro start h
    cases n with
    | zero => exact List.isChain_singleton _
    | succ n =>
      rw [List.range'_succ, List.range'_succ, List.isChain_cons_cons, ← List.range'_succ]
      exact ⟨h start (Nat.le_refl _) (by omega), ih fun i hi hlt => h i (by omega) (by omega)⟩

/-- The integrity object of a read that covering chunks of a manifest were verified for. -/
def coveredIntegrity (d : DeclaredManifest) (requestedRange : RequestedRange)
    (startChunkIndex endChunkIndex : ℕ) (returnedRange : ByteRange) (returnedByteSha256 : Text) :
    PartialReadIntegrity :=
  ⟨requestedRange, ⟨startChunkIndex, endChunkIndex⟩, returnedRange, d.chunkSize, d.chunkCount,
    (List.range' startChunkIndex (endChunkIndex + 1 - startChunkIndex)).map
      (verifiedChunk platform d), (d.manifest platform.sha256).merkleRoot, returnedByteSha256,
    d.sourceSha256⟩

section CoveredReads

variable {requestedRange : RequestedRange} {returnedRange : ByteRange}
  {startChunkIndex endChunkIndex : ℕ} {returnedByteSha256 : Text}
  (hle : startChunkIndex ≤ endChunkIndex) (hend : endChunkIndex < d.chunkCount)
  (hrequested : ∀ offset length, requestedRange = .byteRange offset length →
    returnedRange = ⟨offset, length⟩)
  (hstart : startChunkIndex * d.chunkSize ≤ returnedRange.offset)
  (hstop : returnedRange.offset + returnedRange.length ≤
    endChunkIndex * d.chunkSize + chunkLengthOf d.byteLength d.chunkSize endChunkIndex)

include hle hend hrequested hstart hstop

/-- The conditions between the fields of a read. -/
theorem partialReadIntegrityRefine_covered :
    partialReadIntegrityRefine (coveredIntegrity platform d requestedRange startChunkIndex
      endChunkIndex returnedRange returnedByteSha256) = .ok true := by
  have hpos := pos_of_allowed d.allowed
  obtain ⟨n, rfl⟩ : ∃ n, endChunkIndex = startChunkIndex + n :=
    ⟨endChunkIndex - startChunkIndex, by omega⟩
  have hchunks : (coveredIntegrity platform d requestedRange startChunkIndex (startChunkIndex + n)
      returnedRange returnedByteSha256).verifiedChunks =
        (List.range' startChunkIndex (n + 1)).map (verifiedChunk platform d) := by
    rw [coveredIntegrity, show startChunkIndex + n + 1 - startChunkIndex = n + 1 by omega]
  have hmem : ∀ i ∈ List.range' startChunkIndex (n + 1), i < d.chunkCount := by
    intro i hi
    have := List.mem_range'_1.mp hi
    omega
  have hindexes : ((List.range' startChunkIndex (n + 1)).map (verifiedChunk platform d)).map
      VerifiedChunk.chunkIndex = List.range' startChunkIndex (n + 1) := by
    rw [List.map_map]
    exact List.map_id _
  refine @partialReadIntegrityRefine_of _ (verifiedChunk platform d startChunkIndex)
    (verifiedChunk platform d (startChunkIndex + n)) ?_ ?_ ?_ ?_ ?_ ?_ ?_ rfl ?_ hstart hstop ?_ ?_
  · rw [hchunks, hindexes]
    exact List.nodup_range'
  · rw [hchunks, hindexes]
    exact isChain_range'_of fun i _ _ => Nat.lt_succ_self i
  · rw [hchunks, List.all_map, List.all_eq_true]
    exact fun i hi => decide_eq_true (hmem i hi)
  · rw [hchunks, List.isChain_map]
    refine isChain_range'_of fun i hi hlt => ⟨rfl, ?_⟩
    have hinner := chunkLengthOf_inner (i := i) hpos
      (hmem (i + 1) (List.mem_range'_1.mpr (by omega)))
    simp only [verifiedChunk, hinner, Nat.add_mul, Nat.one_mul]
  · rw [hchunks, List.forall_mem_map]
    intro i hi
    have hinside := start_le_bound (hmem i hi)
    have hbounded := d.bounded
    have hbound : maxCalibrationSourceBytes < 2 ^ 53 := by decide
    show i * d.chunkSize + chunkLengthOf d.byteLength d.chunkSize i < 2 ^ 53
    rw [chunkLengthOf]
    omega
  · rw [hchunks, List.range'_succ]
    rfl
  · rw [hchunks, List.range'_concat, List.map_append, Nat.one_mul]
    exact List.getLast?_concat
  · rw [hchunks, List.all_map, List.all_eq_true]
    intro i hi
    refine chunkSizeMatches_of chunkLengthOf_le fun hne => chunkLengthOf_inner hpos ?_
    have hi := hmem i hi
    have hne : i + 1 ≠ d.chunkCount := hne
    rw [DeclaredManifest.chunkCount] at hi hne
    omega
  · intro offset length hrange
    obtain rfl := hrequested offset length hrange
    exact ⟨hstart, hstop⟩
  · intro hmany
    rw [hchunks, List.all_map, List.all_eq_true]
    intro i hi
    have hdepth : 0 < (d.steps platform.sha256 i).length := by
      rw [d.length_steps platform.sha256]
      exact Nat.clog_pos (by omega) hmany
    simpa [verifiedChunk, ← List.length_pos_iff] using hdepth

/-- A read of at most as many bytes and chunks as a read may have passes the schema of a
partial read. -/
theorem partialReadIntegritySchema_covered (hschema : requestedRangeSchema requestedRange = true)
    (hmax : returnedRange.length ≤ maxRangeBytes)
    (hmany : endChunkIndex + 1 - startChunkIndex ≤ maxVerifiedChunksPerRead)
    (hsha : hex64Pattern returnedByteSha256 = true) :
    partialReadIntegritySchema (coveredIntegrity platform d requestedRange startChunkIndex
      endChunkIndex returnedRange returnedByteSha256) = .ok true := by
  have hbounded := d.bounded
  have hcount : d.chunkCount ≤ maxChunkCount := chunkCountOf_le d.allowed d.bounded
  have hsize : d.chunkSize ≤ 9007199254740991 := by
    have hallowed := d.allowed
    simp only [allowedChunkSizes, List.mem_cons, List.not_mem_nil, or_false] at hallowed
    omega
  have hbounds : maxCalibrationSourceBytes = 1048576 ∧ maxChunkCount ≤ 1048576 ∧
      maxRangeBytes = 8192 := by decide
  have hinside : endChunkIndex * d.chunkSize + chunkLengthOf d.byteLength d.chunkSize endChunkIndex ≤
      d.byteLength := by
    have := start_le_bound hend
    rw [chunkLengthOf]
    omega
  have hchunks : ((List.range' startChunkIndex (endChunkIndex + 1 - startChunkIndex)).map
      (verifiedChunk platform d)).all verifiedChunkSchema = true := by
    rw [List.all_map, List.all_eq_true]
    intro i hi
    have := List.mem_range'_1.mp hi
    exact verifiedChunkSchema_verifiedChunk platform (by omega)
  have hfields : partialReadIntegrityFields (coveredIntegrity platform d requestedRange
      startChunkIndex endChunkIndex returnedRange returnedByteSha256) = true := by
    simp only [partialReadIntegrityFields, coveredIntegrity, hschema, coveringChunkRangeSchema,
      returnedRangeSchema, intBetween, hchunks, List.length_map, List.length_range',
      accepts_sha256Hex (d.hex64Pattern_merkleRoot platform.sha256),
      accepts_sha256Hex hsha, accepts_sha256Hex d.hexSource,
      intFrom_of (Nat.zero_le returnedRange.offset) (by omega),
      intFrom_of (Nat.zero_le returnedRange.length) (by omega),
      intFrom_of (Nat.zero_le startChunkIndex) (by omega),
      intFrom_of (Nat.zero_le endChunkIndex) (by omega), intFrom_of (pos_of_allowed d.allowed) hsize,
      intFrom_of (show 1 ≤ d.chunkCount by omega) (by omega), Bool.and_true, Bool.true_and,
      Bool.and_eq_true, decide_eq_true_eq]
    exact ⟨⟨⟨decide_eq_true hle, decide_eq_true hmax⟩, by omega⟩, hmany⟩
  rw [partialReadIntegritySchema, partialReadIntegrityRefine_covered platform hle hend hrequested
    hstart hstop, ok_bind, pure_eq_ok, hfields]
  rfl

end CoveredReads

/-! Chunks of a source. -/

section Source

variable {source : Bytes} {cs : ℕ} (hcs : cs ∈ allowedChunkSizes)
  (hlen : source.length ≤ maxCalibrationSourceBytes)

/-- A chunk of the source's own interval is the source's chunk. -/
theorem chunkSlice_source {startChunkIndex endChunkIndex i : ℕ} (hstart : startChunkIndex ≤ i)
    (hend : i ≤ endChunkIndex) (hi : i < chunkCountOf source.length cs) :
    chunkSlice (.ofSource platform.sha256 source cs hcs hlen)
      (subarray source (startChunkIndex * cs) (min ((endChunkIndex + 1) * cs) source.length))
      (startChunkIndex * cs) i = chunkOf source cs i := by
  have hfirst : startChunkIndex * cs ≤ i * cs := Nat.mul_le_mul_right cs hstart
  have hlast : i * cs + cs ≤ (endChunkIndex + 1) * cs := by
    rw [← Nat.succ_mul]
    exact Nat.mul_le_mul_right cs (Nat.succ_le_succ hend)
  have hlt : i * cs < source.length := (lt_chunkCountOf (pos_of_allowed hcs)).mp hi
  have hinner : startChunkIndex * cs + (i * cs - startChunkIndex * cs +
      chunkLengthOf source.length cs i) ≤ min ((endChunkIndex + 1) * cs) source.length := by
    rw [chunkLengthOf]
    omega
  have houter : startChunkIndex * cs + (i * cs - startChunkIndex * cs +
      chunkLengthOf source.length cs i) = min (i * cs + cs) source.length := by
    rw [chunkLengthOf]
    omega
  show subarray (subarray source _ _) (i * cs - startChunkIndex * cs)
    (i * cs - startChunkIndex * cs + chunkLengthOf source.length cs i) = chunkOf source cs i
  rw [subarray_subarray _ hinner, houter, chunkOf, Nat.add_sub_cancel' hfirst]

/-- The source's own chunks are verified. -/
theorem verifyCoveringChunks_source {buffer : Bytes} {bufferOffset : ℕ} : ∀ {indexes : List ℕ},
    (∀ i ∈ indexes, i < chunkCountOf source.length cs ∧
      chunkSlice (.ofSource platform.sha256 source cs hcs hlen) buffer bufferOffset i =
        chunkOf source cs i) →
    verifyCoveringChunks platform
      ((DeclaredManifest.ofSource platform.sha256 source cs hcs hlen).manifest platform.sha256)
      (chunkBytesAt ((DeclaredManifest.ofSource platform.sha256 source cs hcs hlen).manifest
        platform.sha256) buffer bufferOffset) indexes =
      .ok (some (indexes.map
        (verifiedChunk platform (.ofSource platform.sha256 source cs hcs hlen)))) := by
  intro indexes
  induction indexes with
  | nil =>
    intro _
    rfl
  | cons i rest ih =>
    intro h
    obtain ⟨hi, hslice⟩ := h i List.mem_cons_self
    have hrest := ih fun j hj => h j (List.mem_cons_of_mem i hj)
    have hverified := verifyArtifactChunkProof_sourceProof platform.sha256 hcs hlen hi
    rw [← DeclaredManifest.proof_ofSource platform.sha256 hcs hlen hi,
      ← DeclaredManifest.manifest_ofSource platform.sha256 hcs hlen] at hverified
    simp only [verifyCoveringChunks,
      (DeclaredManifest.ofSource platform.sha256 source cs hcs hlen).buildArtifactChunkProof_manifest
        platform.sha256 hi,
      chunkBytesAt_manifest platform (.ofSource platform.sha256 source cs hcs hlen) buffer
        bufferOffset hi, hslice, hverified, hrest, Except.mapError, ok_bind, pure_eq_ok]
    have hchunk := verifiedChunkOf_proof platform (.ofSource platform.sha256 source cs hcs hlen) hi
    simpa using hchunk

end Source

end Inspector
