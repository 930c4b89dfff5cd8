import SupabaseUserMcp.Inspector.Honest

/- The validators of a registry record against each other. What the metadata schema lets
   through is rebuilt into a manifest of which only the root is still open: both the
   inspector's check, with its own path for no chunks, and the full consistency check
   then decide whether the declared root is that of the leaf hashes. -/
namespace Inspector

open Js Inspection ChunkManifest

/-- The chunks are checked without the root. -/
theorem assertChunksConsistent_root (manifest : ArtifactChunkManifest) (root : Text) :
    ∀ (chunks : List ArtifactChunkManifestEntry) (i : ℕ) (expectedStart : Number),
      assertChunksConsistent { manifest with merkleRoot := root } i expectedStart chunks =
        assertChunksConsistent manifest i expectedStart chunks := by
  intro chunks
  induction chunks with
  | nil =>
    intro i expectedStart
    rfl
  | cons chunk rest ih =>
    intro i expectedStart
    rw [assertChunksConsistent, assertChunksConsistent, ih]

/-- The one check left when everything but the root is consistent. -/
def rootMismatch : ArtifactChunkManifestError :=
  manifestError .inconsistentManifest ("Declared merkleRoot does not match the root " ++
    "reconstructed from the declared chunk leaf hashes.")

theorem assertManifestConsistent_root (sha : Sha256) {manifest : ArtifactChunkManifest}
    (h : assertManifestConsistent sha manifest = .ok ()) {root : Text}
    (hroot : hex64Pattern root = true) :
    assertManifestConsistent sha { manifest with merkleRoot := root } =
      throwIf (root != manifest.merkleRoot) rootMismatch := by
  simp only [assertManifestConsistent, bind_eq_ok, throwIf_eq_ok, exists_const] at h
  obtain ⟨hprofile, hsize, hlength, hmany, hlarge, hcount, hsource, -, hchunks, ⟨leaves, covered⟩,
    hentries, hcovered, levels, hlevels, hclosed⟩ := h
  simp only [assertManifestConsistent, assertChunksConsistent_root, hprofile, hsize, hlength, hmany,
    hlarge, hcount, hsource, hroot, hchunks, hentries, hcovered, hlevels, ok_bind, throwIf_false]
  have hlast := bne_eq_false_iff_eq.mp hclosed
  rw [hlast, Bool.not_true, throwIf_false, ok_bind]
  by_cases hsame : root = manifest.merkleRoot
  · simp [hsame]
  · have hsome : some manifest.merkleRoot ≠ some root := fun heq => hsame (Option.some.inj heq).symm
    rw [bne_iff_ne.mpr hsome, bne_iff_ne.mpr hsame]
    rfl

theorem leaves_declared {record : AuthorizedArtifactRecord} (h : ValidRecord record) :
    h.declared.leaves = record.merkleLeafSha256s.map hexToBuffer := by
  have hlengths : record.merkleLeafSha256s.length ≤ record.chunkSha256s.length := by
    rw [h.raw, h.leaf]
  show (recordHashes record).map (fun pair => hexToBuffer pair.2) = _
  rw [← Function.comp_def, ← List.map_map, recordHashes, List.map_snd_zip hlengths]

/-- A registry record that the metadata schema accepts closes exactly on its root: whether it
resolves is whether its root is that of its leaf digests, of none the canonical empty root. -/
theorem record_closes_on_root (platform : Platform) {candidate : Text → Value}
    {record : AuthorizedArtifactRecord} (h : authorizedArtifactMetadata candidate = some record) :
    ((buildManifestFromRecord record >>= validateManifestConsistency platform) = .ok () ↔
      record.merkleRoot =
        if record.merkleLeafSha256s = [] then emptyArtifactMerkleRoot platform.sha256
        else toHex (rootDigest platform.sha256 (record.merkleLeafSha256s.map hexToBuffer))) ∧
    ∃ manifest, buildManifestFromRecord record = .ok manifest ∧
      (validateManifestConsistency platform manifest = .ok () ↔
        assertManifestConsistent platform.sha256 manifest = .ok ()) ∧
      ∀ error, assertManifestConsistent platform.sha256 manifest = .error error →
        error = rootMismatch := by
  have hvalid := validRecord_of_metadata h
  have hbuild := hvalid.buildManifestFromRecord_eq
  have hcheck := hvalid.validateManifestConsistency_eq_ok platform
  refine ⟨?_, _, hbuild, ?_, ?_⟩
  · rw [hbuild, ok_bind, hcheck, leaves_declared hvalid]
    split
    · next hempty =>
      rw [hempty]
      rfl
    · rfl
  · rw [hcheck, hvalid.assertManifestConsistent_iff platform]
  · intro error herror
    have hconsistent := hvalid.declared.assertManifestConsistent_manifest platform.sha256
    have hroot := assertManifestConsistent_root platform.sha256 hconsistent hvalid.hexRoot
    have hsame : manifestOf record.byteLength record.chunkSize record.sourceSha256
        record.merkleRoot (recordHashes record) =
        { hvalid.declared.manifest platform.sha256 with merkleRoot := record.merkleRoot } := rfl
    rw [hsame, hroot] at herror
    cases hmismatch : record.merkleRoot != (hvalid.declared.manifest platform.sha256).merkleRoot with
    | true =>
      rw [hmismatch] at herror
      exact (Except.error.inj herror).symm
    | false =>
      rw [hmismatch] at herror
      cases herror

namespace HostedSource

variable (platform : Platform) (hosted : HostedSource)

theorem length_merkleLeafSha256s : (hosted.record platform).merkleLeafSha256s.length =
    chunkCountOf hosted.source.length hosted.chunkSize :=
  (List.length_map _).trans (length_sourceHashes _ _ _)

theorem merkleRoot_record : (hosted.record platform).merkleRoot =
    toHex (rootDigest platform.sha256
      ((hosted.record platform).merkleLeafSha256s.map hexToBuffer)) := by
  have hleaves : (hosted.record platform).merkleLeafSha256s.map hexToBuffer =
      sourceLeaves platform.sha256 hosted.source hosted.chunkSize := by
    rw [← leavesOf_sourceHashes, leavesOf, ← Function.comp_def, ← List.map_map]
    rfl
  rw [hleaves]
  rfl

end HostedSource

/-- The three chunks that a registry has a record of. -/
def hostedThreeChunks : HostedSource :=
  ⟨threeChunks, 1024, mem_allowedChunkSizes_1024, bounded_threeChunks⟩

theorem record_closes_on_root_threeChunks :
    (hostedThreeChunks.record asciiPlatform).merkleLeafSha256s.length = 3 ∧
    (buildManifestFromRecord (hostedThreeChunks.record asciiPlatform) >>=
      validateManifestConsistency asciiPlatform) = .ok () := by
  have hlength : (hostedThreeChunks.record asciiPlatform).merkleLeafSha256s.length = 3 :=
    (hostedThreeChunks.length_merkleLeafSha256s asciiPlatform).trans chunkCountOf_threeChunks
  have hcloses := record_closes_on_root asciiPlatform (hostedThreeChunks.metadata_record asciiPlatform)
  refine ⟨hlength, hcloses.1.mpr ?_⟩
  rw [if_neg (List.length_pos_iff.mp (hlength ▸ Nat.succ_pos 2))]
  exact hostedThreeChunks.merkleRoot_record asciiPlatform

end Inspector
