import SupabaseUserMcp.ChunkManifest.ProofVerification
import SupabaseUserMcp.Inspector

/- What resolution lets through. A validated record declares a manifest, the
   manifest rebuilt from it is consistent exactly when its root is that of its
   leaf hashes, and of such a manifest the proofs of the covering chunks are
   built and checked without a throw. -/
namespace Inspector

open Js Inspection ChunkManifest

/-! Validated records. -/

/-- What the registry metadata schema checks of the numbers and digests. -/
structure ValidRecord (record : AuthorizedArtifactRecord) : Prop where
  allowed : record.chunkSize ∈ allowedChunkSizes
  bounded : record.byteLength ≤ maxCalibrationSourceBytes
  counted : record.chunkCount = chunkCountOf record.byteLength record.chunkSize
  raw : record.chunkSha256s.length = record.chunkCount
  leaf : record.merkleLeafSha256s.length = record.chunkCount
  hexSource : hex64Pattern record.sourceSha256 = true
  hexRaw : ∀ s ∈ record.chunkSha256s, hex64Pattern s = true
  hexLeaf : ∀ s ∈ record.merkleLeafSha256s, hex64Pattern s = true
  hexRoot : hex64Pattern record.merkleRoot = true

theorem sha256HexSchema_eq_some {v : Value} {s : Text} (h : sha256HexSchema v = some s) :
    hex64Pattern s = true := (Schema.refine_eq_some.mp h).2

theorem isAllowedChunkSize_toNat {x : Number} (h : isAllowedChunkSize x = true) :
    x.toNat ∈ allowedChunkSizes := by
  obtain ⟨cs, hcs, rfl⟩ := isAllowedChunkSize_eq_true.mp h
  rwa [Number.toNat_ofNat]

theorem validRecord_of_metadata {candidate : Text → Value} {record : AuthorizedArtifactRecord}
    (h : authorizedArtifactMetadata candidate = some record) : ValidRecord record := by
  obtain ⟨artifactId, -, h⟩ := Option.bind_eq_some_iff.mp h
  obtain ⟨objectVersionRef, -, h⟩ := Option.bind_eq_some_iff.mp h
  obtain ⟨sourceSha256, hsource, h⟩ := Option.bind_eq_some_iff.mp h
  obtain ⟨byteLength, hlength, h⟩ := Option.bind_eq_some_iff.mp h
  obtain ⟨chunkSize, hsize, h⟩ := Option.bind_eq_some_iff.mp h
  obtain ⟨chunkCount, -, h⟩ := Option.bind_eq_some_iff.mp h
  obtain ⟨raws, hraws, h⟩ := Option.bind_eq_some_iff.mp h
  obtain ⟨leaves, hleaves, h⟩ := Option.bind_eq_some_iff.mp h
  obtain ⟨merkleRoot, hroot, h⟩ := Option.bind_eq_some_iff.mp h
  obtain ⟨mediaType, -, h⟩ := Option.bind_eq_some_iff.mp h
  obtain ⟨createdAt, -, h⟩ := Option.bind_eq_some_iff.mp h
  obtain ⟨expiresAt, -, h⟩ := Option.bind_eq_some_iff.mp h
  obtain ⟨chunkHashesRef, -, h⟩ := Option.bind_eq_some_iff.mp h
  obtain ⟨⟨⟩, hguard, hrecord⟩ := Option.bind_eq_some_iff.mp h
  obtain rfl := Option.some.inj hrecord
  obtain ⟨n, hn, rfl⟩ := Schema.map_eq_some.mp hsize
  have hallowed := isAllowedChunkSize_toNat (Schema.refine_eq_some.mp hn).2
  simp only [Option.guard_eq_some', authorizedArtifactMetadataRefine, Bool.and_eq_true,
    beq_iff_eq] at hguard
  obtain ⟨⟨hcount, hraw⟩, hleaf⟩ := hguard
  refine ⟨hallowed, (Schema.natBetween_eq_some hlength).2, ?_, hraw, hleaf,
    sha256HexSchema_eq_some hsource, ?_, ?_, sha256HexSchema_eq_some hroot⟩
  · rw [hcount]
    split
    · next hzero => rw [hzero, chunkCountOf_zero (pos_of_allowed hallowed)]
    · rfl
  · intro s hs
    obtain ⟨v, hv⟩ := (Schema.arrayMax_eq_some hraws).2 s hs
    exact sha256HexSchema_eq_some hv
  · intro s hs
    obtain ⟨v, hv⟩ := (Schema.arrayMax_eq_some hleaves).2 s hs
    exact sha256HexSchema_eq_some hv

/-- A validated record is the one asked for. -/
theorem validateAuthorizedArtifactRecord_eq_some {rawRecord : Value} {artifactId : Text}
    {record : AuthorizedArtifactRecord}
    (h : validateAuthorizedArtifactRecord rawRecord artifactId = some record) :
    record.artifactId = artifactId ∧ ValidRecord record := by
  cases rawRecord with
  | object properties =>
    simp only [validateAuthorizedArtifactRecord, Option.bind_eq_bind, Option.bind_eq_some_iff]
      at h
    obtain ⟨⟨⟩, -, ⟨⟩, -, validated, hvalidated, ⟨⟩, hid, hrecord⟩ := h
    obtain rfl := Option.some.inj hrecord
    exact ⟨by simpa using hid, validRecord_of_metadata hvalidated⟩
  | _ => cases h

/-! The manifest of a record. -/

/-- The two digests of every chunk. -/
def recordHashes (record : AuthorizedArtifactRecord) : List (Text × Text) :=
  record.chunkSha256s.zip record.merkleLeafSha256s

namespace ValidRecord

variable {record : AuthorizedArtifactRecord} (h : ValidRecord record) (platform : Platform)

include h

theorem length_recordHashes : (recordHashes record).length = record.chunkCount := by
  simp [recordHashes, h.raw, h.leaf]

theorem hex64Pairs_recordHashes : Hex64Pairs (recordHashes record) := by
  intro pair hpair
  obtain ⟨hraw, hleaf⟩ := List.of_mem_zip hpair
  exact ⟨h.hexRaw _ hraw, h.hexLeaf _ hleaf⟩

/-- The data of the record's manifest. -/
def declared : DeclaredManifest :=
  ⟨record.byteLength, record.chunkSize, record.sourceSha256, recordHashes record, h.allowed,
    h.bounded, h.length_recordHashes.trans h.counted, h.hexSource, h.hex64Pairs_recordHashes⟩

theorem chunkCount_declared : h.declared.chunkCount = record.chunkCount := h.counted.symm

theorem manifestEntry_eq {i : ℕ} (hi : i < record.chunkCount) :
    manifestEntry record i =
      .ok (entryOf record.byteLength record.chunkSize i (h.declared.hash i)) := by
  have hraw : i < record.chunkSha256s.length := by rwa [h.raw]
  have hleaf : i < record.merkleLeafSha256s.length := by rwa [h.leaf]
  have hpos := pos_of_allowed h.allowed
  have hlength : (if i + 1 = record.chunkCount then record.byteLength - i * record.chunkSize
      else record.chunkSize) = chunkLengthOf record.byteLength record.chunkSize i := by
    have hcounted := h.counted
    split
    · next hfinal => rw [chunkLengthOf_final hpos (by omega)]
    · next hinner => rw [chunkLengthOf_inner hpos (by omega)]
  simp only [manifestEntry, List.getElem?_eq_getElem hraw, List.getElem?_eq_getElem hleaf,
    definedAt_some, ok_bind, hlength]
  simp [entryOf, declared, DeclaredManifest.hash, recordHashes, hraw, hleaf]

theorem mapM_manifestEntry : ∀ (n k : ℕ), k + n = record.chunkCount →
    (List.range' k n).mapM (manifestEntry record) = .ok (entriesFrom record.byteLength
      record.chunkSize k ((recordHashes record).drop k)) := by
  intro n
  induction n with
  | zero =>
    intro k hk
    rw [List.drop_eq_nil_of_le (by rw [h.length_recordHashes]; omega)]
    rfl
  | succ n ih =>
    intro k hk
    have hlt : k < (recordHashes record).length := by rw [h.length_recordHashes]; omega
    have hhash : h.declared.hash k = (recordHashes record).get ⟨k, hlt⟩ := by
      simp [DeclaredManifest.hash, declared, hlt]
    rw [List.range'_succ, List.mapM_cons, h.manifestEntry_eq (by omega), ih (k + 1) (by omega),
      List.drop_eq_getElem_cons hlt, entriesFrom, hhash]
    rfl

/-- The manifest rebuilt from the record. -/
theorem buildManifestFromRecord_eq : buildManifestFromRecord record =
    .ok (manifestOf record.byteLength record.chunkSize record.sourceSha256 record.merkleRoot
      (recordHashes record)) := by
  have hchunks := h.mapM_manifestEntry record.chunkCount 0 (by omega)
  rw [← List.range_eq_range', List.drop_zero] at hchunks
  simp only [buildManifestFromRecord, h.raw, h.leaf, hchunks]
  simp [manifestOf, h.counted, Except.mapError]

/-- The full consistency check succeeds exactly when the declared root is that
of the leaf hashes. -/
theorem assertManifestConsistent_iff :
    assertManifestConsistent platform.sha256 (manifestOf record.byteLength record.chunkSize
        record.sourceSha256 record.merkleRoot (recordHashes record)) = .ok () ↔
      record.merkleRoot = toHex (rootDigest platform.sha256 h.declared.leaves) := by
  constructor
  · intro hconsistent
    obtain ⟨byteLength, cs, sourceSha256, hashes, -, -, -, -, -, hmanifest⟩ :=
      (assertManifestConsistent_eq_ok _ _).mp hconsistent
    simp only [manifestOf, ArtifactChunkManifest.mk.injEq] at hmanifest
    obtain ⟨-, -, -, -, -, hentries, hroot⟩ := hmanifest
    have hleaves := congrArg (List.map fun chunk => hexToBuffer chunk.merkleLeafSha256) hentries
    rw [map_entriesFrom, map_entriesFrom] at hleaves
    rw [hroot, ← hleaves]
    rfl
  · intro hroot
    have hconsistent := h.declared.assertManifestConsistent_manifest platform.sha256
    rw [hroot]
    exact hconsistent

/-- The inspector's check of a manifest, its special case of no chunks included,
is the full consistency check. -/
theorem validateManifestConsistency_eq_ok :
    validateManifestConsistency platform (manifestOf record.byteLength record.chunkSize
        record.sourceSha256 record.merkleRoot (recordHashes record)) = .ok () ↔
      record.merkleRoot = toHex (rootDigest platform.sha256 h.declared.leaves) := by
  have hcounted := h.counted
  by_cases hzero : record.chunkCount = 0
  · have hempty : record.byteLength = 0 := by
      by_contra hpos
      have hfirst := (lt_chunkCountOf (i := 0) (pos_of_allowed h.allowed)).mpr
        (by rw [Nat.zero_mul]; exact Nat.pos_of_ne_zero hpos)
      omega
    have hhashes : recordHashes record = [] := by
      rw [← List.length_eq_zero_iff, h.length_recordHashes, hzero]
    have hleaves : h.declared.leaves = [] := by
      simp [DeclaredManifest.leaves, declared, hhashes, leavesOf]
    have hcount : chunkCountOf 0 record.chunkSize = 0 := chunkCountOf_zero (pos_of_allowed h.allowed)
    simp only [validateManifestConsistency, manifestOf, hhashes, hempty, entriesFrom, hleaves,
      h.hexSource, hcount]
    simp [rootDigest, emptyArtifactMerkleRoot, throwIf_eq_ok, bind_eq_ok]
  · have hpos : 0 < chunkCountOf record.byteLength record.chunkSize := by omega
    have hcheck : validateManifestConsistency platform (manifestOf record.byteLength
        record.chunkSize record.sourceSha256 record.merkleRoot (recordHashes record)) = .ok () ↔
        ∃ proof, buildArtifactChunkProof platform.sha256 (manifestOf record.byteLength
          record.chunkSize record.sourceSha256 record.merkleRoot (recordHashes record))
          (Number.ofNat 0) = .ok proof := by
      simp only [validateManifestConsistency, manifestOf]
      cases buildArtifactChunkProof platform.sha256 _ (Number.ofNat 0) with
      | error e => simp [Except.mapError, hpos]
      | ok proof => simp [Except.mapError, hpos]
    rw [hcheck]
    constructor
    · rintro ⟨proof, hproof⟩
      obtain ⟨⟨⟩, hconsistent, -⟩ := bind_eq_ok.mp hproof
      exact (h.assertManifestConsistent_iff platform).mp hconsistent
    · intro hroot
      have hchunks : 0 < h.declared.chunkCount := by
        rw [h.chunkCount_declared]
        omega
      rw [hroot]
      exact ⟨_, h.declared.buildArtifactChunkProof_manifest platform.sha256 hchunks⟩

end ValidRecord

/-! Records of a source. -/

/-- The record has the numbers and digests of the manifest of a source. -/
def Describes (platform : Platform) (source : Bytes) (record : AuthorizedArtifactRecord) : Prop :=
  ∃ manifest, buildArtifactChunkManifest platform.sha256 (.bytes source) record.chunkSize =
      .ok manifest ∧
    manifest.byteLength = Number.ofNat record.byteLength ∧
    manifest.chunkCount = Number.ofNat record.chunkCount ∧
    manifest.sourceSha256 = record.sourceSha256 ∧
    manifest.chunks.map ArtifactChunkManifestEntry.chunkSha256 = record.chunkSha256s ∧
    manifest.chunks.map ArtifactChunkManifestEntry.merkleLeafSha256 = record.merkleLeafSha256s ∧
    manifest.merkleRoot = record.merkleRoot

theorem Describes.declared {platform : Platform} {source : Bytes}
    {record : AuthorizedArtifactRecord} (h : Describes platform source record)
    (hvalid : ValidRecord record) : ∃ hlen : source.length ≤ maxCalibrationSourceBytes,
      hvalid.declared =
        DeclaredManifest.ofSource platform.sha256 source record.chunkSize hvalid.allowed hlen := by
  obtain ⟨manifest, hbuild, hlength, -, hsource, hraw, hleaf, -⟩ := h
  obtain ⟨hlen, cs, hcs, hsize, rfl⟩ := (buildArtifactChunkManifest_eq_ok platform.sha256).mp hbuild
  obtain rfl := Number.ofNat_inj.mp hsize
  refine ⟨hlen, ?_⟩
  have hhashes : recordHashes record = sourceHashes platform.sha256 source record.chunkSize := by
    rw [recordHashes, ← hraw, ← hleaf, List.zip_map']
    exact map_digests_entriesFrom _ _ 0 _
  simp only [ValidRecord.declared, DeclaredManifest.ofSource, DeclaredManifest.mk.injEq]
  exact ⟨(Number.ofNat_inj.mp hlength).symm, trivial, hsource.symm, hhashes⟩

/-! Resolution. -/

/-- What holds of a record and a manifest that resolution hands on. -/
structure Resolved (platform : Platform) (artifactId nowIso : Text)
    (record : AuthorizedArtifactRecord) (manifest : ArtifactChunkManifest) : Prop where
  valid : ValidRecord record
  requested : record.artifactId = artifactId
  unexpired : isArtifactExpired platform record.expiresAt nowIso = false
  root : record.merkleRoot = toHex (rootDigest platform.sha256 valid.declared.leaves)
  rebuilt : manifest = valid.declared.manifest platform.sha256

/-- The registry answered with an unexpired record of the artifact asked for. -/
def Answers (platform : Platform) (artifactId nowIso : Text) (record : AuthorizedArtifactRecord)
    (reply : Except Unit Value) : Prop :=
  ∃ rawRecord, reply = .ok rawRecord ∧
    validateAuthorizedArtifactRecord rawRecord artifactId = some record ∧
    isArtifactExpired platform record.expiresAt nowIso = false

/-- Every outcome with a record is one about the record the registry answered. -/
theorem answers_of_resolveOutcome {platform : Platform} {artifactId nowIso : Text}
    {reply : Except Unit Value} {record : AuthorizedArtifactRecord}
    (h : resolveOutcome platform artifactId nowIso reply = .internalError (some record) ∨
      ∃ manifest, resolveOutcome platform artifactId nowIso reply = .ok record manifest) :
    Answers platform artifactId nowIso record reply := by
  cases reply with
  | error e => simp [resolveOutcome] at h
  | ok rawRecord =>
    by_cases hnull : rawRecord = .null
    · simp [resolveOutcome, hnull] at h
    · cases hvalidated : validateAuthorizedArtifactRecord rawRecord artifactId with
      | none => simp [resolveOutcome, hvalidated] at h
      | some validated =>
        by_cases hexpired : isArtifactExpired platform validated.expiresAt nowIso = true
        · simp [resolveOutcome, hvalidated, hexpired] at h
        · have hrecord : validated = record := by
            revert h
            simp only [resolveOutcome, hvalidated, if_neg hexpired]
            split
            · simp
            · split
              · simp
              · simp +contextual
          subst hrecord
          exact ⟨rawRecord, rfl, hvalidated, by simpa using hexpired⟩

/-- A resolution that succeeds. -/
theorem resolved_of_resolveOutcome {platform : Platform} {artifactId nowIso : Text}
    {reply : Except Unit Value} {record : AuthorizedArtifactRecord}
    {manifest : ArtifactChunkManifest}
    (h : resolveOutcome platform artifactId nowIso reply = .ok record manifest) :
    Resolved platform artifactId nowIso record manifest := by
  obtain ⟨rawRecord, rfl, hvalidated, hexpired⟩ := answers_of_resolveOutcome (.inr ⟨manifest, h⟩)
  obtain ⟨hid, hvalid⟩ := validateAuthorizedArtifactRecord_eq_some hvalidated
  have hnull : rawRecord ≠ .null := by
    rintro rfl
    cases hvalidated
  simp only [resolveOutcome, hvalidated, hexpired, hvalid.buildManifestFromRecord_eq] at h
  have hroot : record.merkleRoot = toHex (rootDigest platform.sha256 hvalid.declared.leaves) := by
    rw [← hvalid.validateManifestConsistency_eq_ok platform]
    cases hcheck : validateManifestConsistency platform (manifestOf record.byteLength
        record.chunkSize record.sourceSha256 record.merkleRoot (recordHashes record)) with
    | error e => simp [hcheck] at h
    | ok u => rfl
  rw [(hvalid.validateManifestConsistency_eq_ok platform).mpr hroot] at h
  have hmanifest : manifestOf record.byteLength record.chunkSize record.sourceSha256
      record.merkleRoot (recordHashes record) = manifest := by simpa using h
  exact ⟨hvalid, hid, hexpired, hroot, by rw [← hmanifest, hroot]; rfl⟩

/-- A valid and unexpired record whose root is that of its leaf hashes resolves. -/
theorem resolveOutcome_eq_ok {platform : Platform} {artifactId nowIso : Text} {rawRecord : Value}
    {record : AuthorizedArtifactRecord}
    (hvalidated : validateAuthorizedArtifactRecord rawRecord artifactId = some record)
    (hvalid : ValidRecord record)
    (hexpired : isArtifactExpired platform record.expiresAt nowIso = false)
    (hroot : record.merkleRoot = toHex (rootDigest platform.sha256 hvalid.declared.leaves)) :
    resolveOutcome platform artifactId nowIso (.ok rawRecord) =
      .ok record (hvalid.declared.manifest platform.sha256) := by
  have hnull : rawRecord ≠ .null := by
    intro h
    rw [h] at hvalidated
    cases hvalidated
  have hconsistent := (hvalid.validateManifestConsistency_eq_ok platform).mpr hroot
  simp only [resolveOutcome, hvalidated, hexpired, hvalid.buildManifestFromRecord_eq, hconsistent]
  rw [hroot]
  rfl

end Inspector
