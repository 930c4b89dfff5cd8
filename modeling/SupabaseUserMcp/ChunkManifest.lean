import SupabaseUserMcp.Js.Sha256
import SupabaseUserMcp.Js.Value
import SupabaseUserMcp.Merkle.Tree

/- `artifact-chunk-manifest.ts`: a source is cut into chunks of one size, every
   chunk is hashed raw and as a domain-separated Merkle leaf, and a manifest
   carries the hashes and the root of the tree. The module builds manifests and
   inclusion proofs and verifies proofs against a root and manifests against
   the whole source. Numbers and texts a caller hands in stay JavaScript
   numbers and texts; arrays are lists, so the source's `undefined` entries of
   a dense array have no counterpart. -/
namespace ChunkManifest

open Js

/-! Hash profile. -/

def artifactChunkMerkleProfileVersion : Text := text "artifact-chunk-merkle/0.1"

def leafDomainPrefix : Bytes := [0x00]
def parentDomainPrefix : Bytes := [0x01]
def emptyRootDomainPrefix : Bytes := [0x02]

/-- `HEX64_PATTERN.test`. -/
def hex64Pattern (s : Text) : Bool := isLowerHex 64 s

def rawDigest (sha : Sha256) (bytes : Bytes) : Bytes := sha.digest bytes

def merkleLeafDigest (sha : Sha256) (chunkBytes : Bytes) : Bytes :=
  sha.digest (leafDomainPrefix ++ chunkBytes)

def parentDigest (sha : Sha256) (left right : Bytes) : Bytes :=
  sha.digest (parentDomainPrefix ++ (left ++ right))

def emptyMerkleRootDigest (sha : Sha256) : Bytes := sha.digest emptyRootDomainPrefix

def emptyArtifactMerkleRoot (sha : Sha256) : Text := toHex (emptyMerkleRootDigest sha)

def hexToBuffer (hex : Text) : Bytes := fromHex hex

/-! Bounds. -/

def allowedChunkSizes : List ℕ := [1024, 4096, 8192]

def defaultChunkSize : Number := (4096 : ℕ)
def maxCalibrationSourceBytes : ℕ := 1048576
def maxChunkCount : ℕ := 4096
def maxMerkleProofDepth : ℕ := 32

def isAllowedChunkSize (value : Number) : Bool :=
  allowedChunkSizes.any fun size => value.strictEq size

/-! Errors. -/

inductive ArtifactChunkManifestErrorCode where
  | invalidInputType
  | unsupportedChunkSize
  | sourceTooLarge
  | chunkCountExceeded
  | proofDepthExceeded
  | invalidChunkIndex
  | malformedDigest
  | malformedProofPosition
  | inconsistentManifest
  deriving DecidableEq, Repr

/-- A piece of a message template. -/
inductive MessagePart where
  | words (s : String)
  | number (n : Number)
  deriving DecidableEq, Repr

structure ArtifactChunkManifestError where
  code : ArtifactChunkManifestErrorCode
  message : List MessagePart
  deriving DecidableEq, Repr

/-- `new ArtifactChunkManifestError(code, message)` with a constant message. -/
def manifestError (code : ArtifactChunkManifestErrorCode) (message : String) :
    ArtifactChunkManifestError :=
  ⟨code, [.words message]⟩

/-- What may fail with the module's own error. -/
abbrev Checked (α : Type) := Except ArtifactChunkManifestError α

def assertIsUint8Array (value : Value) (label : String) : Checked Bytes :=
  match value with
  | .bytes bytes => .ok bytes
  | _ => .error ⟨.invalidInputType, [.words label, .words (" must be a Uint8Array (a Buffer is " ++
      "accepted as a Uint8Array subtype); arrays, strings, ArrayBuffer, and plain objects are " ++
      "rejected.")]⟩

@[simp] theorem assertIsUint8Array_bytes (bytes : Bytes) (label : String) :
    assertIsUint8Array (.bytes bytes) label = .ok bytes := rfl

/-! Manifests and proofs. -/

structure ArtifactChunkManifestEntry where
  chunkIndex : Number
  byteStart : Number
  byteLength : Number
  chunkSha256 : Text
  merkleLeafSha256 : Text
  deriving DecidableEq, Repr

structure ArtifactChunkManifest where
  profileVersion : Text
  sourceSha256 : Text
  byteLength : Number
  chunkSize : Number
  chunkCount : Number
  chunks : List ArtifactChunkManifestEntry
  merkleRoot : Text
  deriving DecidableEq, Repr

structure ArtifactChunkMerkleProofNode where
  siblingPosition : Text
  siblingSha256 : Text
  deriving DecidableEq, Repr

structure ArtifactChunkProof where
  profileVersion : Text
  sourceSha256 : Text
  sourceByteLength : Number
  chunkSize : Number
  totalChunkCount : Number
  chunkIndex : Number
  byteStart : Number
  byteLength : Number
  chunkSha256 : Text
  merkleLeafSha256 : Text
  proof : List ArtifactChunkMerkleProofNode
  deriving DecidableEq, Repr

/-- The two values of a sibling position. -/
def leftPosition : Text := text "left"
def rightPosition : Text := text "right"

/-! Tree construction. -/

/-- One iteration of the `for` loop of `buildMerkleLevels`. -/
def merkleParent (sha : Sha256) (current : List Bytes) (i : ℕ) : Checked Bytes :=
  match current[i]?, (if i + 1 < current.length then current[i + 1]? else current[i]?) with
  | some left, some right => .ok (parentDigest sha left right)
  | _, _ => .error (manifestError .inconsistentManifest
      "Merkle level construction produced an undefined node.")

/-- The level above `current`: `for (let i = 0; i < current.length; i += 2)`. -/
def nextMerkleLevel (sha : Sha256) (current : List Bytes) : Checked (List Bytes) :=
  (List.range' 0 ((current.length + 1) / 2) 2).mapM (merkleParent sha current)

/-- A loop whose every iteration succeeds maps its list. -/
theorem mapM_eq_ok {α β : Type} {f : α → Checked β} {g : α → β} :
    ∀ (l : List α), (∀ a ∈ l, f a = .ok (g a)) → l.mapM f = .ok (l.map g)
  | [], _ => rfl
  | a :: l, h => by
    rw [List.mapM_cons, h a (by simp), mapM_eq_ok l (fun b hb => h b (by simp [hb]))]
    rfl

theorem merkleParent_eq (sha : Sha256) {current : List Bytes} {k : ℕ}
    (hk : k < (current.length + 1) / 2) :
    merkleParent sha current (2 * k) = .ok (parentDigest sha (Merkle.children current k).1
      (Merkle.children current k).2) := by
  have hleft : 2 * k < current.length := by omega
  by_cases hright : 2 * k + 1 < current.length
  · have hmin : min (2 * k + 1) (current.length - 1) = 2 * k + 1 := by omega
    simp [merkleParent, Merkle.children, hleft, hright, hmin]
  · have hmin : min (2 * k + 1) (current.length - 1) = 2 * k := by omega
    simp [merkleParent, Merkle.children, hleft, hright, hmin]

/-- No iteration meets an undefined node. -/
theorem nextMerkleLevel_eq (sha : Sha256) (current : List Bytes) :
    nextMerkleLevel sha current = .ok (Merkle.pairUp (parentDigest sha) current) := by
  have hrange : List.range' 0 ((current.length + 1) / 2) 2 =
      (List.range ((current.length + 1) / 2)).map (2 * ·) :=
    List.ext_getElem (by simp) (by simp)
  have hstep : ∀ i ∈ List.range' 0 ((current.length + 1) / 2) 2,
      merkleParent sha current i = .ok (parentDigest sha (Merkle.children current (i / 2)).1
        (Merkle.children current (i / 2)).2) := by
    intro i hi
    rw [hrange] at hi
    obtain ⟨k, hk, rfl⟩ := List.mem_map.mp hi
    rw [merkleParent_eq sha (by simpa using hk), Nat.mul_div_cancel_left k (by omega)]
  rw [nextMerkleLevel, mapM_eq_ok _ hstep, hrange]
  congr 1
  refine List.ext_getElem? fun k => ?_
  by_cases hk : k < (current.length + 1) / 2
  · simp [Merkle.pairUp_eq_map_pairs, Merkle.getElem?_pairs current k hk, hk]
  · simp [hk]

/-- The `while` loop of `buildMerkleLevels`, from the level it stands at. -/
def growMerkleLevels (sha : Sha256) (current : List Bytes) : Checked (List (List Bytes)) :=
  if _h : current.length > 1 then
    match _hnext : nextMerkleLevel sha current with
    | .error e => .error e
    | .ok next => do
      let levels ← growMerkleLevels sha next
      .ok (current :: levels)
  else .ok [current]
termination_by current.length
decreasing_by
  rw [nextMerkleLevel_eq] at _hnext
  obtain rfl := Except.ok.inj _hnext
  rw [Merkle.length_pairUp]
  omega

def buildMerkleLevels (sha : Sha256) (leaves : List Bytes) : Checked (List (List Bytes)) :=
  if leaves.length = 0 then .ok [[emptyMerkleRootDigest sha]]
  else growMerkleLevels sha leaves

/-- `levels[levels.length - 1]?.[0]`. -/
def lastRoot (levels : List (List Bytes)) : Option Bytes := do
  let lastLevel ← levels.getLast?
  lastLevel[0]?

/-- `Math.ceil(Math.log2(n))` is exact on the counts it is asked for. -/
def expectedProofDepthFor (totalChunkCount : Number) : ℕ :=
  if totalChunkCount.le (1 : ℕ) then 0 else Nat.clog 2 totalChunkCount.toNat

/-- The nodes of a proof, one for every level below the last. -/
def buildProofNodesFromLevels : List (List Bytes) → ℕ → Checked (List ArtifactChunkMerkleProofNode)
  | [], _ => .ok []
  | [_], _ => .ok []
  | currentLevel :: levels, index => do
    let isRightChild := index % 2 == 1
    let siblingIndex := if isRightChild then index - 1 else index + 1
    match (if siblingIndex < currentLevel.length then currentLevel[siblingIndex]?
        else currentLevel[index]?) with
    | none => .error (manifestError .inconsistentManifest
        "Merkle proof construction could not resolve a sibling digest.")
    | some siblingDigest => do
      let nodes ← buildProofNodesFromLevels levels (index / 2)
      .ok (⟨if isRightChild then leftPosition else rightPosition, toHex siblingDigest⟩ :: nodes)

/-! Manifest consistency. -/

/-- The loop over the declared chunks, from chunk `i`: the leaf digests it
collects and the byte where the next chunk would start. -/
def assertChunksConsistent (manifest : ArtifactChunkManifest) (i : ℕ) (expectedStart : Number) :
    List ArtifactChunkManifestEntry → Checked (List Bytes × Number)
  | [] => .ok ([], expectedStart)
  | chunk :: rest => do
    throwIf (!chunk.chunkIndex.strictEq i)
      (manifestError .inconsistentManifest "Chunk indexes must begin at zero and be contiguous.")
    throwIf (!chunk.byteStart.strictEq (.mul i manifest.chunkSize))
      (manifestError .inconsistentManifest "Chunk byteStart must equal chunkIndex * chunkSize.")
    throwIf (!chunk.byteStart.strictEq expectedStart)
      (manifestError .inconsistentManifest "Chunk byte ranges must be contiguous.")
    let isFinal := i + 1 == manifest.chunks.length
    let expectedByteLength :=
      if isFinal then manifest.byteLength.sub chunk.byteStart else manifest.chunkSize
    throwIf (!chunk.byteLength.strictEq expectedByteLength)
      (manifestError .inconsistentManifest
        (if isFinal then "The final chunk byteLength must equal byteLength - byteStart."
        else "Every non-final chunk must be exactly chunkSize bytes."))
    throwIf (chunk.byteLength.lt (1 : ℕ) || chunk.byteLength.gt manifest.chunkSize)
      (manifestError .inconsistentManifest
        "Chunk byteLength must be positive and at most chunkSize.")
    throwIf (!hex64Pattern chunk.chunkSha256)
      (manifestError .malformedDigest
        "Chunk chunkSha256 must be a lowercase 64-hex-character SHA-256 digest.")
    throwIf (!hex64Pattern chunk.merkleLeafSha256)
      (manifestError .malformedDigest
        "Chunk merkleLeafSha256 must be a lowercase 64-hex-character SHA-256 digest.")
    let (leafDigests, covered) ←
      assertChunksConsistent manifest (i + 1) (.add expectedStart chunk.byteLength) rest
    .ok (hexToBuffer chunk.merkleLeafSha256 :: leafDigests, covered)

def assertManifestConsistent (sha : Sha256) (manifest : ArtifactChunkManifest) : Checked Unit := do
  throwIf (manifest.profileVersion != artifactChunkMerkleProfileVersion)
    (manifestError .inconsistentManifest "Unknown manifest profile version.")
  throwIf (!isAllowedChunkSize manifest.chunkSize)
    ⟨.unsupportedChunkSize,
      [.words "Unsupported chunk size: ", .number manifest.chunkSize, .words "."]⟩
  throwIf (!manifest.byteLength.isInteger || manifest.byteLength.lt (0 : ℕ))
    (manifestError .inconsistentManifest "Manifest byte length must be a non-negative integer.")
  throwIf (manifest.chunkCount.gt maxChunkCount)
    ⟨.chunkCountExceeded, [.words "Chunk count ", .number manifest.chunkCount,
      .words " exceeds the maximum of ", .number maxChunkCount, .words "."]⟩
  throwIf (manifest.byteLength.gt maxCalibrationSourceBytes)
    ⟨.sourceTooLarge, [.words "Manifest byte length ", .number manifest.byteLength,
      .words " exceeds the maximum of ", .number maxCalibrationSourceBytes, .words " bytes."]⟩
  let expectedChunkCount : Number :=
    if manifest.byteLength.strictEq (0 : ℕ) then (0 : ℕ)
    else manifest.byteLength.ceilDiv manifest.chunkSize
  throwIf (!manifest.chunkCount.strictEq expectedChunkCount)
    (manifestError .inconsistentManifest
      "Chunk count does not match ceil(byteLength / chunkSize).")
  throwIf (!hex64Pattern manifest.sourceSha256)
    (manifestError .malformedDigest
      "Manifest sourceSha256 must be a lowercase 64-hex-character SHA-256 digest.")
  throwIf (!hex64Pattern manifest.merkleRoot)
    (manifestError .malformedDigest
      "Manifest merkleRoot must be a lowercase 64-hex-character SHA-256 digest.")
  throwIf (!Number.strictEq manifest.chunks.length manifest.chunkCount)
    (manifestError .inconsistentManifest
      "Chunk array length does not match the declared chunk count.")
  let (leafDigests, expectedStart) ←
    assertChunksConsistent manifest 0 (0 : ℕ) manifest.chunks
  throwIf (!expectedStart.strictEq manifest.byteLength)
    (manifestError .inconsistentManifest "Chunk byte ranges must exactly cover the source.")
  let levels ← buildMerkleLevels sha leafDigests
  throwIf ((lastRoot levels).map toHex != some manifest.merkleRoot)
    (manifestError .inconsistentManifest ("Declared merkleRoot does not match the root " ++
      "reconstructed from the declared chunk leaf hashes."))

/-! Proof shape. -/

/-- The loop over the nodes of a proof. -/
def assertProofNodesConsistent : List ArtifactChunkMerkleProofNode → Checked Unit
  | [] => .ok ()
  | node :: rest => do
    throwIf (node.siblingPosition != leftPosition && node.siblingPosition != rightPosition)
      (manifestError .malformedProofPosition "Sibling position must be \"left\" or \"right\".")
    throwIf (!hex64Pattern node.siblingSha256)
      (manifestError .malformedDigest
        "Sibling hash must be a lowercase 64-hex-character SHA-256 digest.")
    assertProofNodesConsistent rest

def assertProofShapeConsistent (proof : ArtifactChunkProof) : Checked Unit := do
  throwIf (proof.profileVersion != artifactChunkMerkleProfileVersion)
    (manifestError .inconsistentManifest "Unknown proof profile version.")
  throwIf (!isAllowedChunkSize proof.chunkSize)
    ⟨.unsupportedChunkSize,
      [.words "Unsupported chunk size: ", .number proof.chunkSize, .words "."]⟩
  throwIf (proof.proof.length > maxMerkleProofDepth)
    ⟨.proofDepthExceeded, [.words "Proof depth ", .number proof.proof.length,
      .words " exceeds the maximum of ", .number maxMerkleProofDepth, .words "."]⟩
  throwIf (!proof.sourceByteLength.isInteger || proof.sourceByteLength.lt (1 : ℕ) ||
      proof.sourceByteLength.gt maxCalibrationSourceBytes)
    ⟨.inconsistentManifest, [.words "Proof sourceByteLength must be an integer from 1 through ",
      .number maxCalibrationSourceBytes, .words "."]⟩
  let expectedTotalChunkCount := proof.sourceByteLength.ceilDiv proof.chunkSize
  throwIf (!proof.totalChunkCount.isInteger || proof.totalChunkCount.lt (1 : ℕ))
    (manifestError .inconsistentManifest "Proof totalChunkCount must be a positive integer.")
  throwIf (proof.totalChunkCount.gt maxChunkCount)
    ⟨.chunkCountExceeded, [.words "Proof totalChunkCount ", .number proof.totalChunkCount,
      .words " exceeds the maximum of ", .number maxChunkCount, .words "."]⟩
  throwIf (!proof.totalChunkCount.strictEq expectedTotalChunkCount)
    (manifestError .inconsistentManifest
      "Proof totalChunkCount must equal ceil(sourceByteLength / chunkSize).")
  throwIf (!proof.chunkIndex.isInteger || proof.chunkIndex.lt (0 : ℕ))
    (manifestError .invalidChunkIndex "Proof chunkIndex must be a non-negative integer.")
  throwIf (proof.totalChunkCount.le proof.chunkIndex)
    (manifestError .invalidChunkIndex
      "Proof chunkIndex must be within the declared total chunk count.")
  throwIf (!proof.byteStart.strictEq (.mul proof.chunkIndex proof.chunkSize))
    (manifestError .inconsistentManifest ("Proof byteStart must equal chunkIndex * chunkSize, " ++
      "for every chunk including the final one."))
  let isFinalChunk := proof.chunkIndex.strictEq (.sub proof.totalChunkCount (1 : ℕ))
  let expectedByteLength :=
    if isFinalChunk then .sub proof.sourceByteLength proof.byteStart else proof.chunkSize
  throwIf (!proof.byteLength.strictEq expectedByteLength)
    (manifestError .inconsistentManifest
      (if isFinalChunk then "The final chunk byteLength must equal sourceByteLength - byteStart."
      else "Every non-final chunk byteLength must equal chunkSize."))
  throwIf (!proof.byteLength.isInteger || proof.byteLength.lt (1 : ℕ) ||
      proof.byteLength.gt proof.chunkSize)
    (manifestError .inconsistentManifest
      "Proof byteLength must be positive and at most chunkSize.")
  throwIf (!hex64Pattern proof.sourceSha256)
    (manifestError .malformedDigest ("Proof sourceSha256 must be a lowercase 64-hex-character " ++
      "SHA-256 digest (shape only -- a per-chunk proof cannot verify this value against real " ++
      "source bytes)."))
  throwIf (!hex64Pattern proof.chunkSha256)
    (manifestError .malformedDigest
      "Proof chunkSha256 must be a lowercase 64-hex-character SHA-256 digest.")
  throwIf (!hex64Pattern proof.merkleLeafSha256)
    (manifestError .malformedDigest
      "Proof merkleLeafSha256 must be a lowercase 64-hex-character SHA-256 digest.")
  throwIf (proof.proof.length != expectedProofDepthFor proof.totalChunkCount)
    (manifestError .inconsistentManifest
      "Proof depth does not match the depth expected for the declared total chunk count.")
  assertProofNodesConsistent proof.proof

/-! Public functions. -/

/-- The entry and the leaf digest of chunk `i`. -/
def buildChunk (sha : Sha256) (source : Bytes) (chunkSize i : ℕ) :
    ArtifactChunkManifestEntry × Bytes :=
  let start := i * chunkSize
  let stop := min (start + chunkSize) source.length
  let chunkBytes := subarray source start stop
  let leafDig := merkleLeafDigest sha chunkBytes
  (⟨i, start, (stop - start : ℕ), toHex (rawDigest sha chunkBytes), toHex leafDig⟩, leafDig)

def buildArtifactChunkManifest (sha : Sha256) (bytes : Value)
    (chunkSize : Number := defaultChunkSize) : Checked ArtifactChunkManifest := do
  let source ← assertIsUint8Array bytes "bytes"
  throwIf (!isAllowedChunkSize chunkSize)
    ⟨.unsupportedChunkSize, [.words "Unsupported chunk size: ", .number chunkSize, .words "."]⟩
  throwIf (source.length > maxCalibrationSourceBytes)
    ⟨.sourceTooLarge, [.words "Source of ", .number source.length,
      .words " bytes exceeds the maximum of ", .number maxCalibrationSourceBytes,
      .words " bytes."]⟩
  let byteLength := source.length
  let chunkCount : Number :=
    if byteLength = 0 then (0 : ℕ) else Number.ceilDiv byteLength chunkSize
  throwIf (chunkCount.gt maxChunkCount)
    ⟨.chunkCountExceeded, [.words "Chunk count ", .number chunkCount,
      .words " exceeds the maximum of ", .number maxChunkCount, .words "."]⟩
  let chunks := (List.range chunkCount.toNat).map (buildChunk sha source chunkSize.toNat)
  let levels ← buildMerkleLevels sha (chunks.map Prod.snd)
  match lastRoot levels with
  | none => .error (manifestError .inconsistentManifest "Merkle tree produced no root.")
  | some rootDigest =>
    .ok ⟨artifactChunkMerkleProfileVersion, toHex (rawDigest sha source), byteLength, chunkSize,
      chunkCount, chunks.map Prod.fst, toHex rootDigest⟩

def buildArtifactChunkProof (sha : Sha256) (manifest : ArtifactChunkManifest)
    (chunkIndex : Number) : Checked ArtifactChunkProof := do
  assertManifestConsistent sha manifest
  throwIf (!chunkIndex.isInteger || chunkIndex.lt (0 : ℕ) || manifest.chunkCount.le chunkIndex)
    ⟨.invalidChunkIndex, [.words "Chunk index ", .number chunkIndex,
      .words " is out of range for chunk count ", .number manifest.chunkCount, .words "."]⟩
  let leafDigests := manifest.chunks.map fun chunk => hexToBuffer chunk.merkleLeafSha256
  let levels ← buildMerkleLevels sha leafDigests
  let proofNodes ← buildProofNodesFromLevels levels chunkIndex.toNat
  throwIf (proofNodes.length > maxMerkleProofDepth)
    ⟨.proofDepthExceeded, [.words "Proof depth ", .number proofNodes.length,
      .words " exceeds the maximum of ", .number maxMerkleProofDepth, .words "."]⟩
  match manifest.chunks[chunkIndex.toNat]? with
  | none => .error (manifestError .invalidChunkIndex "Resolved chunk entry is missing.")
  | some chunk =>
    .ok ⟨manifest.profileVersion, manifest.sourceSha256, manifest.byteLength, manifest.chunkSize,
      manifest.chunkCount, chunk.chunkIndex, chunk.byteStart, chunk.byteLength, chunk.chunkSha256,
      chunk.merkleLeafSha256, proofNodes⟩

/-- The loop of `verifyArtifactChunkProof`: the digest and the width it ends
with, `none` where it returns `false`. -/
def walkProof (sha : Sha256) (current : Bytes) (index width : ℕ) :
    List ArtifactChunkMerkleProofNode → Option (Bytes × ℕ)
  | [] => some (current, width)
  | node :: rest =>
    if width % 2 = 1 ∧ index = width - 1 then
      if node.siblingPosition != rightPosition then none
      else if node.siblingSha256 != toHex current then none
      else walkProof sha (parentDigest sha current current) (index / 2) ((width + 1) / 2) rest
    else
      let expectedPosition := if index % 2 = 1 then leftPosition else rightPosition
      if node.siblingPosition != expectedPosition then none
      else
        let siblingDigest := hexToBuffer node.siblingSha256
        let parent :=
          if node.siblingPosition == leftPosition then parentDigest sha siblingDigest current
          else parentDigest sha current siblingDigest
        walkProof sha parent (index / 2) ((width + 1) / 2) rest

def verifyArtifactChunkProof (sha : Sha256) (chunkBytes : Value) (proof : ArtifactChunkProof)
    (expectedRoot : Text) : Checked Bool := do
  let chunkBytes ← assertIsUint8Array chunkBytes "chunkBytes"
  assertProofShapeConsistent proof
  throwIf (!hex64Pattern expectedRoot)
    (manifestError .malformedDigest
      "Expected root must be a lowercase 64-hex-character SHA-256 digest.")
  if !Number.strictEq chunkBytes.length proof.byteLength then return false
  if toHex (rawDigest sha chunkBytes) != proof.chunkSha256 then return false
  let leafDigestBuf := merkleLeafDigest sha chunkBytes
  if toHex leafDigestBuf != proof.merkleLeafSha256 then return false
  match walkProof sha leafDigestBuf proof.chunkIndex.toNat proof.totalChunkCount.toNat
      proof.proof with
  | none => return false
  | some (current, width) =>
    if width != 1 then return false
    return toHex current == expectedRoot

/-- The loop of `verifyArtifactSourceManifest`: the recomputed leaf digests,
`none` where it returns `false`. -/
def recomputeLeafDigests (sha : Sha256) (sourceBytes : Bytes) :
    List ArtifactChunkManifestEntry → Option (List Bytes)
  | [] => some []
  | chunk :: rest => do
    let chunkBytes := subarray sourceBytes chunk.byteStart.toNat
      (Number.add chunk.byteStart chunk.byteLength).toNat
    guard (toHex (rawDigest sha chunkBytes) = chunk.chunkSha256)
    let leafDig := merkleLeafDigest sha chunkBytes
    guard (toHex leafDig = chunk.merkleLeafSha256)
    let recomputedLeafDigests ← recomputeLeafDigests sha sourceBytes rest
    some (leafDig :: recomputedLeafDigests)

def verifyArtifactSourceManifest (sha : Sha256) (sourceBytes : Value)
    (manifest : ArtifactChunkManifest) : Checked Bool := do
  let sourceBytes ← assertIsUint8Array sourceBytes "sourceBytes"
  assertManifestConsistent sha manifest
  if !Number.strictEq sourceBytes.length manifest.byteLength then return false
  if toHex (rawDigest sha sourceBytes) != manifest.sourceSha256 then return false
  match recomputeLeafDigests sha sourceBytes manifest.chunks with
  | none => return false
  | some recomputedLeafDigests =>
    let levels ← buildMerkleLevels sha recomputedLeafDigests
    match lastRoot levels with
    | none => return false
    | some recomputedRoot => return toHex recomputedRoot == manifest.merkleRoot

end ChunkManifest
