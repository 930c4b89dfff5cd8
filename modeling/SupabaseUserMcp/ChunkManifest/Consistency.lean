import SupabaseUserMcp.ChunkManifest.Levels

/- What the two shape validators accept, in numbers: a manifest is consistent
   when it is the manifest of a byte length, a chunk size, a source digest and
   one pair of digests a chunk, with the root of the leaf digests; a proof is
   well shaped when its fields are those of a declared geometry and its nodes
   stand for tree steps. -/
namespace ChunkManifest

open Js

/-! Digests in hexadecimal. -/

/-- A text of the digest pattern is the hexadecimal of 32 bytes. -/
theorem toHex_hexToBuffer {s : Text} (h : hex64Pattern s = true) :
    toHex (hexToBuffer s) = s ∧ (hexToBuffer s).length = 32 := by
  simp only [hex64Pattern, isLowerHex, Bool.and_eq_true, beq_iff_eq] at h
  exact toHex_fromHex (n := 32) h.1 h.2

theorem hex64Pattern_toHex {bytes : Bytes} (h : bytes.length = 32) :
    hex64Pattern (toHex bytes) = true :=
  isLowerHex_toHex (by omega)

/-! Chunk geometry. -/

/-- `ceil(byteLength / chunkSize)`. -/
def chunkCountOf (byteLength chunkSize : ℕ) : ℕ := (byteLength + chunkSize - 1) / chunkSize

/-- The bytes of chunk `i`, the last of which may be short. -/
def chunkLengthOf (byteLength chunkSize i : ℕ) : ℕ :=
  min (i * chunkSize + chunkSize) byteLength - i * chunkSize

theorem isAllowedChunkSize_eq_true {x : Number} :
    isAllowedChunkSize x = true ↔ ∃ cs ∈ allowedChunkSizes, x = Number.ofNat cs := by
  simp [isAllowedChunkSize, Number.strictEq_right_ofNat]

theorem pos_of_allowed {cs : ℕ} (h : cs ∈ allowedChunkSizes) : 0 < cs := by
  simp only [allowedChunkSizes, List.mem_cons, List.not_mem_nil, or_false] at h
  omega

section Geometry

variable {byteLength cs i : ℕ}

theorem chunkCountOf_zero (hcs : 0 < cs) : chunkCountOf 0 cs = 0 :=
  Nat.div_eq_of_lt (by omega)

/-- The count the source computes, with its special case for the empty source. -/
theorem expectedChunkCount (hcs : 0 < cs) :
    (if byteLength = 0 then Number.ofNat 0
      else (Number.ofNat byteLength).ceilDiv (Number.ofNat cs)) =
    Number.ofNat (chunkCountOf byteLength cs) := by
  split
  · next h => rw [h, chunkCountOf_zero hcs]
  · rw [Number.ceilDiv_ofNat _ _ hcs, chunkCountOf]

theorem lt_chunkCountOf (hcs : 0 < cs) : i < chunkCountOf byteLength cs ↔ i * cs < byteLength := by
  rw [chunkCountOf, Nat.lt_iff_add_one_le, Nat.le_div_iff_mul_le hcs, Nat.succ_mul]
  omega

theorem chunkLengthOf_final (hcs : 0 < cs) (h : i + 1 = chunkCountOf byteLength cs) :
    chunkLengthOf byteLength cs i = byteLength - i * cs := by
  have hlast : ¬ (i + 1) * cs < byteLength := by rw [← lt_chunkCountOf hcs]; omega
  rw [Nat.succ_mul] at hlast
  rw [chunkLengthOf]
  omega

theorem chunkLengthOf_inner (hcs : 0 < cs) (h : i + 1 < chunkCountOf byteLength cs) :
    chunkLengthOf byteLength cs i = cs := by
  have hnext := (lt_chunkCountOf hcs).mp h
  rw [Nat.succ_mul] at hnext
  rw [chunkLengthOf]
  omega

theorem chunkLengthOf_pos (hcs : 0 < cs) (h : i < chunkCountOf byteLength cs) :
    0 < chunkLengthOf byteLength cs i := by
  have hstart := (lt_chunkCountOf hcs).mp h
  rw [chunkLengthOf]
  omega

theorem chunkLengthOf_le : chunkLengthOf byteLength cs i ≤ cs := by
  rw [chunkLengthOf]
  omega

/-- No count of an allowed size exceeds the ceiling on counts. -/
theorem chunkCountOf_le (hcs : cs ∈ allowedChunkSizes)
    (hlen : byteLength ≤ maxCalibrationSourceBytes) :
    chunkCountOf byteLength cs ≤ maxChunkCount := by
  simp only [allowedChunkSizes, List.mem_cons, List.not_mem_nil, or_false] at hcs
  simp only [maxCalibrationSourceBytes] at hlen
  rw [chunkCountOf, maxChunkCount]
  rcases hcs with rfl | rfl | rfl <;> omega

end Geometry

/-! Consistent manifests. -/

/-- Chunk `i` of a manifest, from its two digests. -/
def entryOf (byteLength cs i : ℕ) (hashes : Text × Text) : ArtifactChunkManifestEntry :=
  ⟨i, (i * cs : ℕ), (chunkLengthOf byteLength cs i : ℕ), hashes.1, hashes.2⟩

/-- The entries from chunk `i` on. -/
def entriesFrom (byteLength cs : ℕ) : ℕ → List (Text × Text) → List ArtifactChunkManifestEntry
  | _, [] => []
  | i, hashes :: rest => entryOf byteLength cs i hashes :: entriesFrom byteLength cs (i + 1) rest

@[simp] theorem length_entriesFrom (byteLength cs : ℕ) : ∀ (i : ℕ) (hashes : List (Text × Text)),
    (entriesFrom byteLength cs i hashes).length = hashes.length
  | _, [] => rfl
  | i, _ :: rest => by simp [entriesFrom, length_entriesFrom byteLength cs (i + 1) rest]

theorem getElem?_entriesFrom (byteLength cs : ℕ) : ∀ (i k : ℕ) (hashes : List (Text × Text)),
    (entriesFrom byteLength cs i hashes)[k]? =
      hashes[k]?.map (entryOf byteLength cs (i + k))
  | _, _, [] => by simp [entriesFrom]
  | i, 0, _ :: _ => by simp [entriesFrom]
  | i, k + 1, _ :: rest => by
    simp only [entriesFrom, List.getElem?_cons_succ, getElem?_entriesFrom byteLength cs (i + 1) k]
    rw [Nat.add_assoc, Nat.add_comm 1 k]

/-- The leaf digests a list of declared digests stands for. -/
def leavesOf (hashes : List (Text × Text)) : List Bytes := hashes.map fun h => hexToBuffer h.2

/-- The leaf digests read back from the entries. -/
theorem map_entriesFrom (byteLength cs : ℕ) : ∀ (i : ℕ) (hashes : List (Text × Text)),
    (entriesFrom byteLength cs i hashes).map (fun chunk => hexToBuffer chunk.merkleLeafSha256) =
      leavesOf hashes
  | _, [] => rfl
  | i, _ :: rest => by
    rw [entriesFrom, List.map_cons, map_entriesFrom byteLength cs (i + 1) rest]
    rfl

/-- The digests read back from the entries. -/
theorem map_digests_entriesFrom (byteLength cs : ℕ) : ∀ (i : ℕ) (hashes : List (Text × Text)),
    (entriesFrom byteLength cs i hashes).map
      (fun chunk => (chunk.chunkSha256, chunk.merkleLeafSha256)) = hashes
  | _, [] => rfl
  | i, _ :: rest => by
    rw [entriesFrom, List.map_cons, map_digests_entriesFrom byteLength cs (i + 1) rest]
    rfl

def Hex64Pairs (hashes : List (Text × Text)) : Prop :=
  ∀ h ∈ hashes, hex64Pattern h.1 = true ∧ hex64Pattern h.2 = true

/-- The manifest of a geometry, a source digest and the digests of its chunks. -/
def manifestOf (byteLength cs : ℕ) (sourceSha256 merkleRoot : Text)
    (hashes : List (Text × Text)) : ArtifactChunkManifest :=
  ⟨artifactChunkMerkleProfileVersion, sourceSha256, byteLength, cs,
    (chunkCountOf byteLength cs : ℕ), entriesFrom byteLength cs 0 hashes, merkleRoot⟩

/-- One iteration of the loop over the chunks. -/
theorem assertChunksConsistent_cons {manifest : ArtifactChunkManifest} {byteLength cs : ℕ}
    (hcs : 0 < cs) (hsize : manifest.chunkSize = Number.ofNat cs)
    (hlen : manifest.byteLength = Number.ofNat byteLength)
    (hcount : manifest.chunks.length = chunkCountOf byteLength cs)
    {chunk : ArtifactChunkManifestEntry} {rest : List ArtifactChunkManifestEntry} {i : ℕ}
    (hi : i < chunkCountOf byteLength cs) {result : List Bytes × Number} :
    assertChunksConsistent manifest i (Number.ofNat (i * cs)) (chunk :: rest) = .ok result ↔
      chunk = entryOf byteLength cs i (chunk.chunkSha256, chunk.merkleLeafSha256) ∧
      hex64Pattern chunk.chunkSha256 = true ∧ hex64Pattern chunk.merkleLeafSha256 = true ∧
      ∃ tail, assertChunksConsistent manifest (i + 1)
          (Number.ofNat (i * cs + chunkLengthOf byteLength cs i)) rest = .ok tail ∧
        result = (hexToBuffer chunk.merkleLeafSha256 :: tail.1, tail.2) := by
  obtain ⟨chunkIndex, byteStart, length, chunkSha256, merkleLeafSha256⟩ := chunk
  have hlt := (lt_chunkCountOf hcs).mp hi
  have hpos := chunkLengthOf_pos hcs hi
  have hle : chunkLengthOf byteLength cs i ≤ cs := chunkLengthOf_le
  have hexpected : (if (i + 1 == manifest.chunks.length) = true then
      (Number.ofNat byteLength).sub (Number.ofNat (i * cs)) else Number.ofNat cs) =
      Number.ofNat (chunkLengthOf byteLength cs i) := by
    rw [hcount]
    by_cases hfinal : i + 1 = chunkCountOf byteLength cs
    · rw [if_pos (by simpa using hfinal), chunkLengthOf_final hcs hfinal,
        Number.sub_ofNat (by omega)]
    · rw [if_neg (by simpa using hfinal), chunkLengthOf_inner hcs (by omega)]
  simp only [assertChunksConsistent, bind_eq_ok, throwIf_eq_ok, exists_const, hsize, hlen,
    Bool.not_eq_false', Number.mul_ofNat, Number.strictEq_right_ofNat]
  constructor
  · rintro ⟨rfl, rfl, -, hlength, -, hraw, hleaf, ⟨leaves, covered⟩, htail, hresult⟩
    rw [hexpected, Number.strictEq_right_ofNat] at hlength
    subst hlength
    rw [Number.add_ofNat] at htail
    exact ⟨rfl, hraw, hleaf, (leaves, covered), htail, (Except.ok.inj hresult).symm⟩
  · rintro ⟨hentry, hraw, hleaf, ⟨leaves, covered⟩, htail, rfl⟩
    simp only [entryOf, ArtifactChunkManifestEntry.mk.injEq, and_true] at hentry
    obtain ⟨rfl, rfl, rfl⟩ := hentry
    refine ⟨rfl, rfl, rfl, ?_, ?_, hraw, hleaf, (leaves, covered), ?_, rfl⟩
    · rw [hexpected, Number.strictEq_ofNat]
      simp
    · simp
      omega
    · rwa [Number.add_ofNat]

/-- The loop over the chunks accepts exactly the entries of the geometry. -/
theorem assertChunksConsistent_eq_ok {manifest : ArtifactChunkManifest} {byteLength cs : ℕ}
    (hcs : 0 < cs) (hsize : manifest.chunkSize = Number.ofNat cs)
    (hlen : manifest.byteLength = Number.ofNat byteLength)
    (hcount : manifest.chunks.length = chunkCountOf byteLength cs) :
    ∀ (rest : List ArtifactChunkManifestEntry) (i : ℕ) (leaves : List Bytes) (covered : Number),
      i + rest.length = chunkCountOf byteLength cs →
      (assertChunksConsistent manifest i (Number.ofNat (min (i * cs) byteLength)) rest =
          .ok (leaves, covered) ↔
        ∃ hashes, rest = entriesFrom byteLength cs i hashes ∧ Hex64Pairs hashes ∧
          leaves = leavesOf hashes ∧ covered = Number.ofNat byteLength) := by
  intro rest
  induction rest with
  | nil =>
    intro i leaves covered hi
    have hdone : min (i * cs) byteLength = byteLength := by
      have : ¬ i < chunkCountOf byteLength cs := by simp at hi; omega
      rw [lt_chunkCountOf hcs] at this
      omega
    rw [hdone]
    constructor
    · intro h
      simp only [assertChunksConsistent, Except.ok.injEq, Prod.mk.injEq] at h
      exact ⟨[], rfl, by simp [Hex64Pairs], h.1.symm, h.2.symm⟩
    · rintro ⟨hashes, hnil, -, rfl, rfl⟩
      have : hashes = [] := by
        rw [← List.length_eq_zero_iff, ← length_entriesFrom byteLength cs i, ← hnil]
        rfl
      simp [assertChunksConsistent, this, leavesOf]
  | cons chunk rest ih =>
    intro i leaves covered hi
    rw [List.length_cons] at hi
    have hlt : i * cs < byteLength := (lt_chunkCountOf hcs).mp (by omega)
    have hstart : min (i * cs) byteLength = i * cs := by omega
    have hnext : i * cs + chunkLengthOf byteLength cs i = min ((i + 1) * cs) byteLength := by
      rw [Nat.succ_mul, chunkLengthOf]
      omega
    rw [hstart, assertChunksConsistent_cons hcs hsize hlen hcount (by omega), hnext]
    constructor
    · rintro ⟨hentry, hraw, hleaf, ⟨leaves', covered'⟩, htail, hresult⟩
      obtain ⟨hashes, rfl, hhex, rfl, rfl⟩ := (ih (i + 1) leaves' covered' (by omega)).mp htail
      refine ⟨(chunk.chunkSha256, chunk.merkleLeafSha256) :: hashes, ?_, ?_, ?_⟩
      · rw [entriesFrom, ← hentry]
      · simpa [Hex64Pairs, hraw, hleaf] using hhex
      · simpa [leavesOf] using hresult
    · rintro ⟨hashes, hcons, hhex, rfl, rfl⟩
      cases hashes with
      | nil => cases hcons
      | cons pair hashes =>
        obtain ⟨rfl, rfl⟩ := List.cons.inj hcons
        have hpair := hhex pair (by simp)
        refine ⟨rfl, hpair.1, hpair.2, (leavesOf hashes, Number.ofNat byteLength), ?_, rfl⟩
        exact (ih (i + 1) _ _ (by omega)).mpr
          ⟨hashes, rfl, fun h hh => hhex h (by simp [hh]), rfl, rfl⟩

/-- A manifest is consistent when it is the manifest of a geometry and of one
pair of digests a chunk, and its root is that of its leaf digests. -/
theorem assertManifestConsistent_eq_ok (sha : Sha256) (manifest : ArtifactChunkManifest) :
    assertManifestConsistent sha manifest = .ok () ↔
      ∃ byteLength cs sourceSha256 hashes, cs ∈ allowedChunkSizes ∧
        byteLength ≤ maxCalibrationSourceBytes ∧ hashes.length = chunkCountOf byteLength cs ∧
        hex64Pattern sourceSha256 = true ∧ Hex64Pairs hashes ∧
        manifest = manifestOf byteLength cs sourceSha256 (toHex (rootDigest sha (leavesOf hashes)))
          hashes := by
  obtain ⟨profileVersion, sourceSha256, byteLength, chunkSize, chunkCount, chunks, merkleRoot⟩ :=
    manifest
  simp only [assertManifestConsistent, bind_eq_ok, throwIf_eq_ok, exists_const,
    Bool.not_eq_false', Number.strictEq_right_ofNat]
  constructor
  · rintro ⟨hversion, hsize, hint, -, hmax, hcount, hsource, -, hlength, ⟨leaves, covered⟩,
      hchunks, -, levels, hlevels, hroot⟩
    obtain ⟨cs, hcs, rfl⟩ := isAllowedChunkSize_eq_true.mp hsize
    simp only [Bool.or_eq_false_iff, Bool.not_eq_false'] at hint
    obtain ⟨byteLength, rfl, -⟩ := Number.eq_ofNat_of_isInteger hint.1 hint.2
    simp only [Number.ofNat_inj, expectedChunkCount (pos_of_allowed hcs),
      Number.strictEq_right_ofNat] at hcount
    subst hcount
    have hlen : chunks.length = chunkCountOf byteLength cs := by simpa using hlength
    obtain ⟨hashes, rfl, hhex, rfl, -⟩ := (assertChunksConsistent_eq_ok (pos_of_allowed hcs)
      rfl rfl hlen chunks 0 leaves covered (by simpa using hlen)).mp (by simpa using hchunks)
    obtain ⟨levels', hbuild, hlast, -⟩ := buildMerkleLevels_eq sha (leavesOf hashes)
    obtain rfl : levels' = levels := Except.ok.inj (hbuild.symm.trans hlevels)
    refine ⟨byteLength, cs, sourceSha256, hashes, hcs, by simpa using hmax, by simpa using hlen,
      hsource, hhex, ?_⟩
    simp only [hlast, Option.map_some, bne_eq_false_iff_eq, Option.some.injEq] at hroot hversion
    rw [manifestOf, hroot, hversion]
  · rintro ⟨byteLength', cs, sourceSha256', hashes, hcs, hmax, hlen, hsource, hhex, hmanifest⟩
    simp only [manifestOf, ArtifactChunkManifest.mk.injEq] at hmanifest
    obtain ⟨rfl, rfl, rfl, rfl, rfl, rfl, rfl⟩ := hmanifest
    have hpos := pos_of_allowed hcs
    have hleaves : ∀ leaf ∈ leavesOf hashes, leaf.length = 32 := by
      intro leaf hleaf
      obtain ⟨pair, hpair, rfl⟩ := List.mem_map.mp hleaf
      exact (toHex_hexToBuffer (hhex pair hpair).2).2
    obtain ⟨levels, hbuild, hlast, -⟩ := buildMerkleLevels_eq sha (leavesOf hashes)
    have hcount := chunkCountOf_le hcs hmax
    have hsize : (manifestOf byteLength' cs sourceSha256 (toHex (rootDigest sha
      (leavesOf hashes))) hashes).chunkSize = Number.ofNat cs := rfl
    have hchunks := (assertChunksConsistent_eq_ok hpos hsize rfl
      (by simp [manifestOf, hlen]) (entriesFrom byteLength' cs 0 hashes) 0 (leavesOf hashes)
      (Number.ofNat byteLength') (by simp [hlen])).mpr ⟨hashes, rfl, hhex, rfl, rfl⟩
    rw [Nat.zero_mul, Nat.zero_min] at hchunks
    refine ⟨by simp, isAllowedChunkSize_eq_true.mpr ⟨cs, hcs, rfl⟩, by simp, by simpa using hcount,
      by simpa using hmax, ?_, hsource, hex64Pattern_toHex (length_rootDigest sha hleaves),
      by simp [hlen], (leavesOf hashes, Number.ofNat byteLength'), hchunks, by simp,
      levels, hbuild, by simp [hlast]⟩
    simp only [Number.ofNat_inj, expectedChunkCount hpos, Number.strictEq_ofNat, decide_true]

end ChunkManifest
