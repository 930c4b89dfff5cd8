import SupabaseUserMcp.ChunkManifest
import SupabaseUserMcp.Inspection.Schemas
import SupabaseUserMcp.Process.Program
import SupabaseUserMcp.TextIndex

/- `artifact-inspector.ts`: five read-only operations over two injected
   dependencies, a clock and two observers. An operation is a program that makes
   requests of them; what a dependency answers is any value or a throw, and what
   an observer throws is dropped. A rejected promise is an `error` result. The
   operations share their opening checks and their reads of the byte adapter,
   which are definitions with the differing byte counts as parameters. Freezing
   has no counterpart on immutable data. -/
namespace Inspector

open Js Inspection
open ChunkManifest (ArtifactChunkManifest ArtifactChunkManifestEntry ArtifactChunkManifestError
  ArtifactChunkProof buildArtifactChunkProof verifyArtifactChunkProof verifyArtifactSourceManifest)
open TextIndex (ArtifactTextIndex ArtifactTextIndexError ArtifactTextIndexErrorCode
  ArtifactTextLine buildArtifactTextIndex readIndexedLines readIndexedHeading)
open Process (Program)

def artifactInspectorProfileVersion : Text := text "artifact-inspector-s2-0.1"
def maxCoveringFetchBytes : ℕ := 16384
def maxLineSourceScanBytes : ℕ := 262144
def maxExactSearchSourceBytes : ℕ := 8192

def plainMediaType : Text := text "text/plain"
def markdownMediaType : Text := text "text/markdown"

def isSupportedLineMediaType (mediaType : Text) : Bool :=
  mediaType == plainMediaType || mediaType == markdownMediaType

/-- What an operation can throw. -/
inductive Thrown where
  | error (message : String)
  | manifest (e : ArtifactChunkManifestError)
  | textIndex (e : ArtifactTextIndexError)
  deriving DecidableEq, Repr

/-! Query encoding. -/

/-- The loop of `encodeUnicodeScalarValueString`. -/
def hasUnpairedSurrogate : Text → Bool
  | [] => false
  | [u] => isHighSurrogate u || isLowSurrogate u
  | u :: v :: rest =>
    if isHighSurrogate u then !isLowSurrogate v || hasUnpairedSurrogate rest
    else isLowSurrogate u || hasUnpairedSurrogate (v :: rest)

def encodeUnicodeScalarValueString (value : Text) : Option Bytes :=
  if hasUnpairedSurrogate value then none
  else
    let bytes := encodeUtf8 value
    if decodeUtf8 bytes = some value then some bytes else none

def mapArtifactTextIndexError (e : ArtifactTextIndexError) : ArtifactInspectionErrorCode :=
  match e.code with
  | .unsupportedMediaType => .unsupported
  | .sourceTooLarge | .tooManyLines | .tooManyHeadings | .responseLimitExceeded =>
    .responseLimitExceeded
  | .sourceMismatch | .inconsistentIndex | .invalidUtf8 => .integrityFailure
  | .invalidLineRange => .invalidRequest
  | .invalidInputType | .invalidHeadingId => .internalError

def emptyBytesSha256Hex (platform : Platform) : Text := platform.sha256Hex []

/-! Trusted request context. -/

structure ArtifactInspectorTrustedContext where
  principalRef : Text
  inspectorClientRef : Text
  inspectorCapabilityRef : Text
  verifierAudience : Text
  policyVersion : Text
  inspectorDeploymentGitCoordinate : Text
  requestCorrelationId : Option Text
  deriving DecidableEq, Repr

def inspectorCapabilityRefSchema : Schema Text :=
  Schema.strictObject [text "capability", text "ref"] fun field => do
    let _ ← Schema.literal (text "artifact:inspect") (field (text "capability"))
    authorizationIdentifierSchema (field (text "ref"))

def artifactInspectorTrustedContextSchema : Schema ArtifactInspectorTrustedContext :=
  Schema.strictObject [text "principalRef", text "inspectorClientRef",
      text "inspectorCapabilityRef", text "verifierAudience", text "policyVersion",
      text "inspectorDeploymentGitCoordinate", text "requestCorrelationId"] fun field => do
    some ⟨← authorizationIdentifierSchema (field (text "principalRef")),
      ← authorizationIdentifierSchema (field (text "inspectorClientRef")),
      ← inspectorCapabilityRefSchema (field (text "inspectorCapabilityRef")),
      ← authorizationIdentifierSchema (field (text "verifierAudience")),
      ← boundedVersionStringSchema (field (text "policyVersion")),
      ← gitCommitCoordinateSchema (field (text "inspectorDeploymentGitCoordinate")),
      ← authorizationIdentifierSchema.optional (field (text "requestCorrelationId"))⟩

/-! Registry records. -/

structure AuthorizedArtifactRecord where
  artifactId : Text
  /-- Handed back to the byte adapter and never looked into. -/
  internalLocator : Value
  objectVersionRef : Text
  sourceSha256 : Text
  byteLength : ℕ
  chunkSize : ℕ
  chunkCount : ℕ
  chunkSha256s : List Text
  merkleLeafSha256s : List Text
  merkleRoot : Text
  mediaType : Text
  createdAt : Text
  expiresAt : Option Text
  chunkHashesRef : Option Text

/-- The cross-field conditions of `AuthorizedArtifactMetadataSchema`. -/
def authorizedArtifactMetadataRefine (record : AuthorizedArtifactRecord) : Bool :=
  record.chunkCount == (if record.byteLength = 0 then 0
    else (record.byteLength + record.chunkSize - 1) / record.chunkSize) &&
  record.chunkSha256s.length == record.chunkCount &&
  record.merkleLeafSha256s.length == record.chunkCount

/-- `AuthorizedArtifactMetadataSchema`, with the locator carried along. -/
def authorizedArtifactMetadata (candidate : Text → Value) : Option AuthorizedArtifactRecord := do
  let record : AuthorizedArtifactRecord :=
    ⟨← artifactIdSchema (candidate (text "artifactId")),
      candidate (text "internalLocator"),
      ← opaqueObjectVersionRefSchema (candidate (text "objectVersionRef")),
      ← sha256HexSchema (candidate (text "sourceSha256")),
      ← Schema.natBetween 0 ChunkManifest.maxCalibrationSourceBytes
        (candidate (text "byteLength")),
      ← ((Schema.int.refine ChunkManifest.isAllowedChunkSize).map Number.toNat)
        (candidate (text "chunkSize")),
      ← Schema.natBetween 0 ChunkManifest.maxChunkCount (candidate (text "chunkCount")),
      ← sha256HexSchema.arrayMax ChunkManifest.maxChunkCount (candidate (text "chunkSha256s")),
      ← sha256HexSchema.arrayMax ChunkManifest.maxChunkCount
        (candidate (text "merkleLeafSha256s")),
      ← sha256HexSchema (candidate (text "merkleRoot")),
      ← mediaTypeSchema (candidate (text "mediaType")),
      ← isoDatetimeSchema (candidate (text "createdAt")),
      ← isoDatetimeSchema.optional (candidate (text "expiresAt")),
      ← opaqueChunkHashesRefSchema.optional (candidate (text "chunkHashesRef"))⟩
  guard (authorizedArtifactMetadataRefine record)
  some record

def authorizedArtifactRecordKeys : List Text := [text "artifactId", text "internalLocator",
  text "objectVersionRef", text "sourceSha256", text "byteLength", text "chunkSize",
  text "chunkCount", text "chunkSha256s", text "merkleLeafSha256s", text "merkleRoot",
  text "mediaType", text "createdAt", text "expiresAt", text "chunkHashesRef"]

def validateAuthorizedArtifactRecord (rawRecord : Value) (requestedArtifactId : Text) :
    Option AuthorizedArtifactRecord :=
  match rawRecord with
  | .object candidate => do
    guard ((Value.property candidate (text "internalLocator")).isSome)
    guard (candidate.all fun p => authorizedArtifactRecordKeys.contains p.1)
    let record ← authorizedArtifactMetadata fun key =>
      (Value.property candidate key).getD .undefined
    guard (record.artifactId = requestedArtifactId)
    some record
  | _ => none

structure ReadVersionedRangeResult where
  bytes : Bytes
  objectVersionRef : Text
  deriving DecidableEq, Repr

def readVersionedRangeResultSchema : Schema ReadVersionedRangeResult :=
  Schema.strictObject [text "bytes", text "objectVersionRef"] fun field => do
    some ⟨← Schema.uint8Array (field (text "bytes")),
      ← opaqueObjectVersionRefSchema (field (text "objectVersionRef"))⟩

/-! Manifest reconstruction. -/

/-- Iteration `i` of the loop of `buildManifestFromRecord`. -/
def manifestEntry (record : AuthorizedArtifactRecord) (i : ℕ) :
    Except String ArtifactChunkManifestEntry := do
  let byteStart := i * record.chunkSize
  let byteLength := if i + 1 = record.chunkCount then record.byteLength - byteStart
    else record.chunkSize
  let chunkSha256 ← definedAt record.chunkSha256s[i]?
  let merkleLeafSha256 ← definedAt record.merkleLeafSha256s[i]?
  .ok ⟨i, byteStart, byteLength, chunkSha256, merkleLeafSha256⟩

def buildManifestFromRecord (record : AuthorizedArtifactRecord) :
    Except Thrown ArtifactChunkManifest := do
  throwIf (record.chunkSha256s.length != record.chunkCount ||
      record.merkleLeafSha256s.length != record.chunkCount)
    (.manifest (ChunkManifest.manifestError .inconsistentManifest
      "Registry record chunk hash arrays do not match the declared chunk count."))
  let chunks ← ((List.range record.chunkCount).mapM (manifestEntry record)).mapError .error
  .ok ⟨ChunkManifest.artifactChunkMerkleProfileVersion, record.sourceSha256, record.byteLength,
    record.chunkSize, record.chunkCount, chunks, record.merkleRoot⟩

def validateManifestConsistency (platform : Platform) (manifest : ArtifactChunkManifest) :
    Except Thrown Unit := do
  if manifest.chunkCount.gt (0 : ℕ) then
    let _ ← (buildArtifactChunkProof platform.sha256 manifest (0 : ℕ)).mapError .manifest
    return ()
  throwIf (!manifest.byteLength.strictEq (0 : ℕ) || manifest.chunks.length != 0)
    (.manifest (ChunkManifest.manifestError .inconsistentManifest
      "A zero-chunk manifest must declare zero bytes and zero chunks."))
  throwIf (manifest.merkleRoot != ChunkManifest.emptyArtifactMerkleRoot platform.sha256)
    (.manifest (ChunkManifest.manifestError .inconsistentManifest
      "A zero-chunk manifest must declare the canonical empty Merkle root."))
  throwIf (!ChunkManifest.hex64Pattern manifest.sourceSha256)
    (.manifest (ChunkManifest.manifestError .malformedDigest
      "Manifest sourceSha256 must be a lowercase 64-hex-character SHA-256 digest."))

/-! Requests. -/

inductive ResultClass where
  | success
  | error (code : ArtifactInspectionErrorCode)
  deriving DecidableEq, Repr

structure ByteCounts where
  requested : Option ℕ
  covering : Option ℕ
  returned : Option ℕ
  deriving DecidableEq, Repr

structure ArtifactInspectorOperationalEvent where
  operation : ArtifactInspectionOperation
  resultClass : ResultClass
  requestCorrelationId : Option Text
  elapsedMs : ℚ
  byteCounts : Option ByteCounts
  deriving DecidableEq, Repr

/-- What `dependencies.now()` does: throw, return what is no `Date`, or return a
`Date`, whose time value is an integer unless the date is invalid. -/
inductive ClockReading where
  | threw
  | notADate
  | date (time : Option ℤ)
  deriving DecidableEq, Repr

inductive Request where
  | performanceNow
  | now
  | resolveAuthorizedArtifact (context : ArtifactInspectorTrustedContext) (artifactId : Text)
  | readVersionedRange (context : ArtifactInspectorTrustedContext) (internalLocator : Value)
      (objectVersionRef : Text) (offset length : ℕ)
  | emitOperationalEvent (event : ArtifactInspectorOperationalEvent)
  | emitInspectionReceipt (receipt : ArtifactInspectionReceipt)

/-- A dependency answers with any value or throws, an observer returns or throws. -/
abbrev Reply : Request → Type
  | .performanceNow => ℚ
  | .now => ClockReading
  | .resolveAuthorizedArtifact .. => Except Unit Value
  | .readVersionedRange .. => Except Unit Value
  | .emitOperationalEvent _ => Except Unit Unit
  | .emitInspectionReceipt _ => Except Unit Unit

abbrev Inspection (α : Type) := Program Request Reply α

/-- The settled promise of an operation. -/
abbrev Settled := Except Thrown InspectionOutput

def request (q : Request) : Inspection (Reply q) := Program.request q

/-- A rejected promise. -/
def reject (e : Thrown) : Inspection Settled := .done (.error e)

def settle (output : InspectionOutput) : Inspection Settled := .done (.ok output)

/-! Resolution. -/

inductive ResolveOutcome where
  | unavailable
  /-- With the record of an integrity failure. -/
  | internalError (corrupt : Option AuthorizedArtifactRecord)
  | ok (record : AuthorizedArtifactRecord) (manifest : ArtifactChunkManifest)

/-- What `resolveArtifact` makes of the registry's answer. -/
def resolveOutcome (platform : Platform) (artifactId nowIso : Text) :
    Except Unit Value → ResolveOutcome
  | .error _ => .internalError none
  | .ok .null => .unavailable
  | .ok rawRecord =>
    match validateAuthorizedArtifactRecord rawRecord artifactId with
    | none => .internalError none
    | some record =>
      if isArtifactExpired platform record.expiresAt nowIso then .unavailable
      else
        match buildManifestFromRecord record with
        | .error _ => .internalError (some record)
        | .ok manifest =>
          match validateManifestConsistency platform manifest with
          | .error _ => .internalError (some record)
          | .ok _ => .ok record manifest

def resolveArtifact (platform : Platform) (context : ArtifactInspectorTrustedContext)
    (artifactId nowIso : Text) : Inspection ResolveOutcome := do
  let reply ← request (.resolveAuthorizedArtifact context artifactId)
  return resolveOutcome platform artifactId nowIso reply

/-! Covering chunks. -/

def chunkAt (manifest : ArtifactChunkManifest) (index : ℕ) :
    Except String ArtifactChunkManifestEntry :=
  definedAt manifest.chunks[index]?

/-- The numbers of a proof are natural numbers, `buildArtifactChunkProof` having
checked its manifest. -/
def verifiedChunkOf (proof : ArtifactChunkProof) : VerifiedChunk :=
  ⟨proof.chunkIndex.toNat, proof.byteStart.toNat, proof.byteLength.toNat, proof.chunkSha256,
    proof.proof.map fun node => ⟨node.siblingPosition, node.siblingSha256⟩⟩

/-- The loop of `buildAndVerifyCoveringChunks` over the chunk indexes left. -/
def verifyCoveringChunks (platform : Platform) (manifest : ArtifactChunkManifest)
    (chunkBytesFor : ℕ → Except String Bytes) :
    List ℕ → Except Thrown (Option (List VerifiedChunk))
  | [] => .ok (some [])
  | i :: rest =>
    match buildArtifactChunkProof platform.sha256 manifest i with
    | .error _ => .ok none
    | .ok proof => do
      let chunkBytes ← (chunkBytesFor i).mapError .error
      let verified ← (verifyArtifactChunkProof platform.sha256 (.bytes chunkBytes) proof
        manifest.merkleRoot).mapError .manifest
      if !verified then return none
      let verifiedRest ← verifyCoveringChunks platform manifest chunkBytesFor rest
      return verifiedRest.map (verifiedChunkOf proof :: ·)

def buildAndVerifyCoveringChunks (platform : Platform) (manifest : ArtifactChunkManifest)
    (startChunkIndex endChunkIndex : ℕ) (chunkBytesFor : ℕ → Except String Bytes) :
    Except Thrown (Option (List VerifiedChunk)) :=
  verifyCoveringChunks platform manifest chunkBytesFor
    (List.range' startChunkIndex (endChunkIndex + 1 - startChunkIndex))

/-- The bytes of a chunk inside a buffer that starts at an offset of the source. -/
def chunkBytesAt (manifest : ArtifactChunkManifest) (buffer : Bytes) (bufferOffset chunkIndex : ℕ) :
    Except String Bytes := do
  let chunk ← chunkAt manifest chunkIndex
  let start := chunk.byteStart.toNat - bufferOffset
  .ok (subarray buffer start (start + chunk.byteLength.toNat))

/-! Receipts and events. -/

def analyzerProfileIdFor (mediaType : Text) : Text :=
  if isSupportedLineMediaType mediaType then mediaType else text "unsupported"

def receiptResultOrError : Option ArtifactInspectionErrorCode → ReceiptResultOrError
  | none => .result
  | some errorClass => .error errorClass

structure ReceiptOptions where
  context : ArtifactInspectorTrustedContext
  record : AuthorizedArtifactRecord
  artifactId : Text
  recordedAt : Text

def buildReceiptBase (options : ReceiptOptions) (errorClass : Option ArtifactInspectionErrorCode)
    (operationDetail : ReceiptOperationDetail) : ArtifactInspectionReceipt where
  verifierAudience := options.context.verifierAudience
  principalRef := options.context.principalRef
  inspectorClientRef := options.context.inspectorClientRef
  inspectorCapabilityRef := options.context.inspectorCapabilityRef
  artifactId := options.artifactId
  objectVersionRef := options.record.objectVersionRef
  sourceSha256 := options.record.sourceSha256
  merkleRoot := options.record.merkleRoot
  analyzerProfileId := analyzerProfileIdFor options.record.mediaType
  analyzerProfileVersion := artifactInspectorProfileVersion
  policyVersion := options.context.policyVersion
  inspectorDeploymentGitCoordinate := options.context.inspectorDeploymentGitCoordinate
  recordedAt := options.recordedAt
  operationDetail := operationDetail
  resultOrErrorClass := receiptResultOrError errorClass

/-- Whether the receipt was valid; a valid one reaches the observer. -/
def emitReceiptSafely (receipt : ArtifactInspectionReceipt) : Inspection Bool := do
  if !artifactInspectionReceiptSchema receipt then return false
  let _ ← request (.emitInspectionReceipt receipt)
  return true

/-- What `emit` closes over: the context is set once it has been validated. -/
structure Call where
  operation : ArtifactInspectionOperation
  startedAtMs : ℚ
  context : Option ArtifactInspectorTrustedContext

def emit (call : Call) (resultClass : ResultClass) (byteCounts : Option ByteCounts) :
    Inspection Unit := do
  let now ← request .performanceNow
  let _ ← request (.emitOperationalEvent ⟨call.operation, resultClass,
    call.context.bind ArtifactInspectorTrustedContext.requestCorrelationId,
    max 0 (now - call.startedAtMs), byteCounts⟩)
  return ()

/-- `emit(code, byteCounts); return createArtifactInspectionError(code)`. -/
def refuse (call : Call) (code : ArtifactInspectionErrorCode) (byteCounts : Option ByteCounts) :
    Inspection Settled := do
  emit call (.error code) byteCounts
  settle (createArtifactInspectionError code)

/-- The unavailable artifact, on behalf of no receipt. -/
def unavailable (call : Call) (byteCounts : Option ByteCounts) : Inspection Settled := do
  emit call (.error .resourceUnavailable) byteCounts
  settle (publicArtifactInspectionUnavailable .missing)

/-- An error receipt, then `refuse`. -/
def failClosed (call : Call) (options : ReceiptOptions) (detail : ReceiptOperationDetail)
    (byteCounts : Option ByteCounts) (errorClass : ArtifactInspectionErrorCode) :
    Inspection Settled := do
  let _ ← emitReceiptSafely (buildReceiptBase options (some errorClass) detail)
  refuse call errorClass byteCounts

/-- The result receipt, without which there is no success. -/
def succeed (call : Call) (options : ReceiptOptions) (detail : ReceiptOperationDetail)
    (droppedByteCounts byteCounts : Option ByteCounts) (output : InspectionOutput) :
    Inspection Settled := do
  if !(← emitReceiptSafely (buildReceiptBase options none detail)) then
    refuse call .internalError droppedByteCounts
  else
    emit call .success byteCounts
    settle output

/-! What the operations share. -/

def validateRuntimeContext (context : Value) : Option ArtifactInspectorTrustedContext :=
  artifactInspectorTrustedContextSchema context

def readClockIso : Inspection (Option Text) := do
  match ← request .now with
  | .date (some time) => return some (toISOString time)
  | _ => return none

def parseReadResult (rawResult : Value) : Option ReadVersionedRangeResult :=
  readVersionedRangeResultSchema rawResult

/-- The opening checks: input, context, clock, registry. -/
def openInspection {Input : Type} (platform : Platform) (operation : ArtifactInspectionOperation)
    (context : Value) (input : Option Input) (artifactId : Input → Text)
    (byteCounts : Input → Option ByteCounts)
    (onInternalError : Call → ArtifactInspectorTrustedContext → Text → Input →
      Option AuthorizedArtifactRecord → Inspection Settled)
    (body : Call → ReceiptOptions → Input → ArtifactChunkManifest → Inspection Settled) :
    Inspection Settled := do
  let startedAtMs ← request .performanceNow
  match input with
  | none => refuse ⟨operation, startedAtMs, none⟩ .invalidRequest none
  | some input =>
    match validateRuntimeContext context with
    | none => refuse ⟨operation, startedAtMs, none⟩ .internalError (byteCounts input)
    | some runtimeContext =>
      let call : Call := ⟨operation, startedAtMs, some runtimeContext⟩
      match ← readClockIso with
      | none => refuse call .internalError (byteCounts input)
      | some nowIso =>
        match ← resolveArtifact platform runtimeContext (artifactId input) nowIso with
        | .unavailable => unavailable call (byteCounts input)
        | .internalError corrupt => onInternalError call runtimeContext nowIso input corrupt
        | .ok record manifest =>
          body call ⟨runtimeContext, record, artifactId input, nowIso⟩ input manifest

/-- An exact-version read and the checks of its version and length. -/
def readBytes (call : Call) (options : ReceiptOptions) (offset length : ℕ)
    (byteCounts : Option ByteCounts) (failClosed : ArtifactInspectionErrorCode → Inspection Settled)
    (next : Bytes → Inspection Settled) : Inspection Settled := do
  let record := options.record
  match ← request (.readVersionedRange options.context record.internalLocator
      record.objectVersionRef offset length) with
  | .error _ => failClosed .internalError
  | .ok .null => unavailable call byteCounts
  | .ok rawReadResult =>
    match parseReadResult rawReadResult with
    | none => failClosed .internalError
    | some readResult =>
      if readResult.objectVersionRef != record.objectVersionRef then failClosed .integrityFailure
      else if readResult.bytes.length != length then failClosed .integrityFailure
      else next readResult.bytes

/-- The whole source, verified against the manifest, and its text index. -/
def readIndexedSource (platform : Platform) (call : Call) (options : ReceiptOptions)
    (manifest : ArtifactChunkManifest) (mediaType : Text)
    (failClosed : ArtifactInspectionErrorCode → Inspection Settled)
    (next : Bytes → ArtifactTextIndex → Inspection Settled) : Inspection Settled :=
  readBytes call options 0 options.record.byteLength none failClosed fun bytes =>
    match verifyArtifactSourceManifest platform.sha256 (.bytes bytes) manifest with
    | .error e => reject (.manifest e)
    | .ok false => failClosed .integrityFailure
    | .ok true =>
      match buildArtifactTextIndex platform (.bytes bytes) (.string mediaType) with
      | .error e => failClosed (mapArtifactTextIndexError e)
      | .ok textIndex => next bytes textIndex

/-- An internal error of resolution is refused without a receipt. -/
def refuseInternalError {Input : Type} (byteCounts : Input → Option ByteCounts) (call : Call)
    (_context : ArtifactInspectorTrustedContext) (_nowIso : Text) (input : Input)
    (_corrupt : Option AuthorizedArtifactRecord) : Inspection Settled :=
  refuse call .internalError (byteCounts input)

def placeholderReturnedRange : ByteRange := ⟨0, 0⟩

/-- The integrity object of a read. -/
def readIntegrity (record : AuthorizedArtifactRecord) (requestedRange : RequestedRange)
    (startChunkIndex endChunkIndex : ℕ) (returnedRange : ByteRange)
    (verifiedChunks : List VerifiedChunk) (returnedByteSha256 : Text) : PartialReadIntegrity where
  requestedRange := requestedRange
  verifiedCoveringChunkRange := ⟨startChunkIndex, endChunkIndex⟩
  returnedRange := returnedRange
  chunkSize := record.chunkSize
  chunkCount := record.chunkCount
  verifiedChunks := verifiedChunks
  merkleRoot := record.merkleRoot
  returnedByteSha256 := returnedByteSha256
  sourceSha256 := record.sourceSha256

/-! `artifact_stat`. -/

/-- The chunk hashes of a stat, when there is a way to state them. -/
def statChunkHashes (record : AuthorizedArtifactRecord) (manifest : ArtifactChunkManifest) :
    Option ChunkHashes :=
  if manifest.chunkCount.le maxInlineChunkHashes then some (.inline record.chunkSha256s)
  else record.chunkHashesRef.map .reference

def statCandidate (artifactId : Text) (record : AuthorizedArtifactRecord)
    (chunkHashes : ChunkHashes) : InspectionOutput :=
  .stat ⟨artifactId, record.objectVersionRef, record.sourceSha256, record.byteLength,
    record.chunkSize, record.chunkCount, chunkHashes, record.merkleRoot, record.mediaType,
    analyzerProfileIdFor record.mediaType, record.createdAt, record.expiresAt⟩

def artifactStatBody (platform : Platform) (call : Call) (options : ReceiptOptions)
    (input : ArtifactStatInput) (manifest : ArtifactChunkManifest) : Inspection Settled :=
  let failClosed := failClosed call options .artifactStat none
  match statChunkHashes options.record manifest with
  | none => failClosed .internalError
  | some chunkHashes =>
    let candidate := statCandidate input.artifactId options.record chunkHashes
    if artifactInspectionResponseByteLength platform .null candidate.toValue >
        maxArtifactResponseBytes then
      failClosed .responseLimitExceeded
    else
      match artifactStatOutputSchema platform candidate with
      | .error message => reject (.error message)
      | .ok false => failClosed .internalError
      | .ok true => succeed call options .artifactStat none none candidate

def artifactStat (platform : Platform) (context rawInput : Value) : Inspection Settled :=
  openInspection platform .artifactStat context (artifactStatInputSchema rawInput)
    ArtifactStatInput.artifactId (fun _ => none) (refuseInternalError fun _ => none)
    (artifactStatBody platform)

/-! `artifact_read_range`. -/

def requestedCount (input : ArtifactReadRangeInput) : Option ByteCounts :=
  some ⟨some input.length, none, none⟩

/-- What follows the verification of the covering chunks. -/
def finishReadRange (platform : Platform) (call : Call) (options : ReceiptOptions)
    (input : ArtifactReadRangeInput) (startChunkIndex endChunkIndex coveringOffset : ℕ)
    (coveringBuffer : Bytes) (verifiedChunks : List VerifiedChunk) : Inspection Settled :=
  let requestedRange : ByteRange := ⟨input.offset, input.length⟩
  let failClosedWith := failClosed call options (.artifactReadRange requestedRange
    placeholderReturnedRange (emptyBytesSha256Hex platform))
  let covering : Option ByteCounts :=
    some ⟨some input.length, some coveringBuffer.length, none⟩
  if verifiedChunks.length > maxVerifiedChunksPerRead then
    failClosedWith (requestedCount input) .responseLimitExceeded
  else
    let requestedStart := input.offset - coveringOffset
    let requestedBytes := subarray coveringBuffer requestedStart (requestedStart + input.length)
    match decodeUtf8 requestedBytes with
    | none => failClosedWith covering .unsupported
    | some data =>
      let returnedByteSha256 := platform.sha256Hex requestedBytes
      let candidate := InspectionOutput.readRange data (readIntegrity options.record
        (.byteRange input.offset input.length) startChunkIndex endChunkIndex requestedRange
        verifiedChunks returnedByteSha256)
      if artifactInspectionResponseByteLength platform .null candidate.toValue >
          maxArtifactResponseBytes then
        failClosedWith covering .responseLimitExceeded
      else
        match artifactReadRangeOutputSchema platform candidate with
        | .error message => reject (.error message)
        | .ok false => failClosedWith (requestedCount input) .internalError
        | .ok true =>
          succeed call options (.artifactReadRange requestedRange requestedRange
            returnedByteSha256) covering
            (some ⟨some input.length, some coveringBuffer.length, some input.length⟩) candidate

def artifactReadRangeBody (platform : Platform) (call : Call) (options : ReceiptOptions)
    (input : ArtifactReadRangeInput) (manifest : ArtifactChunkManifest) : Inspection Settled :=
  let record := options.record
  let offset := input.offset
  let length := input.length
  let failClosed := failClosed call options (.artifactReadRange ⟨offset, length⟩
    placeholderReturnedRange (emptyBytesSha256Hex platform)) (requestedCount input)
  if offset ≥ record.byteLength || offset + length > record.byteLength then
    failClosed .integrityFailure
  else
    let startChunkIndex := offset / record.chunkSize
    let endChunkIndex := (offset + length - 1) / record.chunkSize
    let coveringOffset := startChunkIndex * record.chunkSize
    let coveringEnd := min ((endChunkIndex + 1) * record.chunkSize) record.byteLength
    let coveringLength := coveringEnd - coveringOffset
    if coveringLength > maxCoveringFetchBytes then failClosed .responseLimitExceeded
    else
      readBytes call options coveringOffset coveringLength (requestedCount input) failClosed
        fun coveringBuffer =>
          match buildAndVerifyCoveringChunks platform manifest startChunkIndex endChunkIndex
              (chunkBytesAt manifest coveringBuffer coveringOffset) with
          | .error e => reject e
          | .ok none => failClosed .integrityFailure
          | .ok (some verifiedChunks) =>
            finishReadRange platform call options input startChunkIndex endChunkIndex
              coveringOffset coveringBuffer verifiedChunks

def artifactReadRange (platform : Platform) (context rawInput : Value) : Inspection Settled :=
  openInspection platform .artifactReadRange context (artifactReadRangeInputSchema rawInput)
    ArtifactReadRangeInput.artifactId requestedCount (refuseInternalError requestedCount)
    (artifactReadRangeBody platform)

/-! `artifact_read_lines`. -/

/-- The chunks of the whole source that cover a byte interval. -/
def verifySourceChunks (platform : Platform) (manifest : ArtifactChunkManifest) (bytes : Bytes)
    (startChunkIndex endChunkIndex : ℕ) : Except Thrown (Option (List VerifiedChunk)) :=
  buildAndVerifyCoveringChunks platform manifest startChunkIndex endChunkIndex
    (chunkBytesAt manifest bytes 0)

def requestedLines (input : ArtifactReadLinesInput) : RequestedLineRange :=
  ⟨input.startLine, input.count⟩

def failLines (platform : Platform) (call : Call) (options : ReceiptOptions)
    (input : ArtifactReadLinesInput) (byteCounts : Option ByteCounts) :
    ArtifactInspectionErrorCode → Inspection Settled :=
  failClosed call options (.artifactReadLines (requestedLines input) placeholderReturnedRange
    (emptyBytesSha256Hex platform)) byteCounts

/-- A start line past the last: an empty read anchored to the last chunk. -/
def readPastLastLine (platform : Platform) (call : Call) (options : ReceiptOptions)
    (input : ArtifactReadLinesInput) (manifest : ArtifactChunkManifest) (bytes : Bytes) :
    Inspection Settled :=
  let record := options.record
  let failClosed := failLines platform call options input none
  if manifest.chunkCount.strictEq (0 : ℕ) then failClosed .invalidRequest
  else
    let lastChunkIndex := manifest.chunkCount.toNat - 1
    match verifySourceChunks platform manifest bytes lastChunkIndex lastChunkIndex with
    | .error e => reject e
    | .ok none => failClosed .integrityFailure
    | .ok (some verifiedChunks) =>
      let returnedRange : ByteRange := ⟨record.byteLength, 0⟩
      let candidate := InspectionOutput.readLines [] 0 (readIntegrity record
        (.lineRange input.startLine input.count) lastChunkIndex lastChunkIndex returnedRange
        verifiedChunks (emptyBytesSha256Hex platform))
      match artifactReadLinesOutputSchema platform candidate with
      | .error message => reject (.error message)
      | .ok false => failClosed .internalError
      | .ok true =>
        succeed call options (.artifactReadLines (requestedLines input) returnedRange
          (emptyBytesSha256Hex platform)) none (some ⟨none, none, some 0⟩) candidate

/-- What follows the verification of the chunks of the selected lines. -/
def finishReadLines (platform : Platform) (call : Call) (options : ReceiptOptions)
    (input : ArtifactReadLinesInput) (data : Text) (returnedLineCount : ℕ)
    (returnedRange : ByteRange) (startChunkIndex endChunkIndex : ℕ)
    (verifiedChunks : List VerifiedChunk) : Inspection Settled :=
  let failClosed := failLines platform call options input none
  let returned : Option ByteCounts := some ⟨none, none, some returnedRange.length⟩
  if verifiedChunks.length > maxVerifiedChunksPerRead then failClosed .responseLimitExceeded
  else
    let returnedByteSha256 := platform.sha256Hex (encodeUtf8 data)
    let candidate := InspectionOutput.readLines data returnedLineCount (readIntegrity
      options.record (.lineRange input.startLine input.count) startChunkIndex endChunkIndex
      returnedRange verifiedChunks returnedByteSha256)
    if artifactInspectionResponseByteLength platform .null candidate.toValue >
        maxArtifactResponseBytes then
      failLines platform call options input returned .responseLimitExceeded
    else
      match artifactReadLinesOutputSchema platform candidate with
      | .error message => reject (.error message)
      | .ok false => failClosed .internalError
      | .ok true =>
        succeed call options (.artifactReadLines (requestedLines input) returnedRange
          returnedByteSha256) returned returned candidate

/-- The first and the last of the selected lines. -/
def selectedLines (textIndex : ArtifactTextIndex) (startIndex returnedLineCount : ℕ) :
    Except String (ArtifactTextLine × ArtifactTextLine) := do
  let firstLine ← definedAt textIndex.lines[startIndex]?
  let lastLine ← definedAt textIndex.lines[startIndex + returnedLineCount - 1]?
  .ok (firstLine, lastLine)

def readSelectedLines (platform : Platform) (call : Call) (options : ReceiptOptions)
    (input : ArtifactReadLinesInput) (manifest : ArtifactChunkManifest) (bytes : Bytes)
    (textIndex : ArtifactTextIndex) : Inspection Settled :=
  let record := options.record
  let failClosed := failLines platform call options input none
  let startIndex := input.startLine - 1
  let returnedLineCount := min input.count (textIndex.lineCount - startIndex)
  match readIndexedLines platform (.bytes bytes) textIndex.toValue input.startLine
      returnedLineCount with
  | .error e => failClosed (mapArtifactTextIndexError e)
  | .ok read =>
    match selectedLines textIndex startIndex returnedLineCount with
    | .error message => reject (.error message)
    | .ok (firstLine, lastLine) =>
      let byteOffset := firstLine.byteStart
      let dataByteLength := lastLine.byteStart + lastLine.contentByteLength +
        lastLine.newlineByteLength - firstLine.byteStart
      if dataByteLength > maxRangeBytes then failClosed .responseLimitExceeded
      else
        let startChunkIndex := byteOffset / record.chunkSize
        let endChunkIndex := (byteOffset + dataByteLength - 1) / record.chunkSize
        match verifySourceChunks platform manifest bytes startChunkIndex endChunkIndex with
        | .error e => reject e
        | .ok none => failClosed .integrityFailure
        | .ok (some verifiedChunks) =>
          finishReadLines platform call options input read.text returnedLineCount
            ⟨byteOffset, dataByteLength⟩ startChunkIndex endChunkIndex verifiedChunks

def artifactReadLinesBody (platform : Platform) (call : Call) (options : ReceiptOptions)
    (input : ArtifactReadLinesInput) (manifest : ArtifactChunkManifest) : Inspection Settled :=
  let record := options.record
  let failClosed := failLines platform call options input none
  if !isSupportedLineMediaType record.mediaType then failClosed .unsupported
  else if record.byteLength > maxLineSourceScanBytes then failClosed .responseLimitExceeded
  else
    readIndexedSource platform call options manifest record.mediaType failClosed
      fun bytes textIndex =>
        if input.startLine - 1 ≥ textIndex.lineCount then
          readPastLastLine platform call options input manifest bytes
        else readSelectedLines platform call options input manifest bytes textIndex

def artifactReadLines (platform : Platform) (context rawInput : Value) : Inspection Settled :=
  openInspection platform .artifactReadLines context (artifactReadLinesInputSchema rawInput)
    ArtifactReadLinesInput.artifactId (fun _ => none) (refuseInternalError fun _ => none)
    (artifactReadLinesBody platform)

/-! `artifact_read_heading`. -/

def failHeading (platform : Platform) (call : Call) (options : ReceiptOptions)
    (input : ArtifactReadHeadingInput) : ArtifactInspectionErrorCode → Inspection Settled :=
  failClosed call options (.artifactReadHeading input.headingId placeholderReturnedRange
    (emptyBytesSha256Hex platform)) none

/-- What follows the verification of the chunks of the heading line. -/
def finishReadHeading (platform : Platform) (call : Call) (options : ReceiptOptions)
    (input : ArtifactReadHeadingInput) (bytes : Bytes) (data : Text) (returnedRange : ByteRange)
    (startChunkIndex endChunkIndex : ℕ) (verifiedChunks : List VerifiedChunk) :
    Inspection Settled :=
  let failClosed := failHeading platform call options input
  if verifiedChunks.length > maxVerifiedChunksPerRead then failClosed .responseLimitExceeded
  else
    let returnedBytes := subarray bytes returnedRange.offset
      (returnedRange.offset + returnedRange.length)
    let returnedByteSha256 := platform.sha256Hex returnedBytes
    let candidate := InspectionOutput.readHeading input.headingId data (readIntegrity
      options.record (.heading input.headingId) startChunkIndex endChunkIndex returnedRange
      verifiedChunks returnedByteSha256)
    if artifactInspectionResponseByteLength platform .null candidate.toValue >
        maxArtifactResponseBytes then
      failClosed .responseLimitExceeded
    else
      match artifactReadHeadingOutputSchema platform candidate with
      | .error message => reject (.error message)
      | .ok false => failClosed .internalError
      | .ok true =>
        succeed call options (.artifactReadHeading input.headingId returnedRange
          returnedByteSha256) (some ⟨none, none, some returnedRange.length⟩)
          (some ⟨none, some options.record.byteLength, some returnedRange.length⟩) candidate

def readSelectedHeading (platform : Platform) (call : Call) (options : ReceiptOptions)
    (input : ArtifactReadHeadingInput) (manifest : ArtifactChunkManifest) (bytes : Bytes)
    (textIndex : ArtifactTextIndex) : Inspection Settled :=
  let record := options.record
  let failClosed := failHeading platform call options input
  match readIndexedHeading platform (.bytes bytes) textIndex.toValue (.string input.headingId) with
  | .error e =>
    if e.code = .invalidHeadingId then unavailable call none
    else failClosed (mapArtifactTextIndexError e)
  | .ok read =>
    match textIndex.headings.find? fun candidate => candidate.headingId == input.headingId with
    | none => unavailable call none
    | some heading =>
      let returnedRange : ByteRange := ⟨heading.byteStart, heading.byteLength⟩
      if returnedRange.length > maxRangeBytes then failClosed .responseLimitExceeded
      else
        let startChunkIndex := returnedRange.offset / record.chunkSize
        let endChunkIndex := (returnedRange.offset + returnedRange.length - 1) / record.chunkSize
        match verifySourceChunks platform manifest bytes startChunkIndex endChunkIndex with
        | .error e => reject e
        | .ok none => failClosed .integrityFailure
        | .ok (some verifiedChunks) =>
          finishReadHeading platform call options input bytes read.text returnedRange
            startChunkIndex endChunkIndex verifiedChunks

def artifactReadHeadingBody (platform : Platform) (call : Call) (options : ReceiptOptions)
    (input : ArtifactReadHeadingInput) (manifest : ArtifactChunkManifest) : Inspection Settled :=
  let record := options.record
  let failClosed := failHeading platform call options input
  if record.mediaType != markdownMediaType then failClosed .unsupported
  else if record.byteLength > maxLineSourceScanBytes then failClosed .responseLimitExceeded
  else
    readIndexedSource platform call options manifest markdownMediaType failClosed
      (readSelectedHeading platform call options input manifest)

def artifactReadHeading (platform : Platform) (context rawInput : Value) : Inspection Settled :=
  openInspection platform .artifactReadHeading context (artifactReadHeadingInputSchema rawInput)
    ArtifactReadHeadingInput.artifactId (fun _ => none) (refuseInternalError fun _ => none)
    (artifactReadHeadingBody platform)

/-! `artifact_search_exact`. -/

/-- An input whose query has bytes. -/
structure EncodedSearchInput where
  input : ArtifactSearchExactInput
  queryBytes : Bytes
  deriving DecidableEq, Repr

/-- Both ways a search request is invalid. -/
def encodedSearchInput (rawInput : Value) : Option EncodedSearchInput := do
  let input ← artifactSearchExactInputSchema rawInput
  let queryBytes ← encodeUnicodeScalarValueString input.query
  guard (queryBytes.length ≤ maxSearchQueryLength)
  some ⟨input, queryBytes⟩

/-- `source.indexOf(query, from)` of two buffers, the query not empty. -/
def indexOf (source query : Bytes) (start : ℕ) : Option ℕ :=
  (List.range' start (source.length + 1 - start)).find? fun k => query.isPrefixOf (source.drop k)

/-- The inner loop: the line of a match, over the lines after the current one. -/
def advanceLine (matchOffset lineIndex : ℕ) : List ArtifactTextLine → ℕ
  | [] => lineIndex
  | next :: rest =>
    if next.byteStart ≤ matchOffset then advanceLine matchOffset (lineIndex + 1) rest
    else lineIndex

/-- The outer loop, for the number of hits still allowed. -/
def searchHits (platform : Platform) (source queryBytes : Bytes) (query : Text)
    (lines : List ArtifactTextLine) : ℕ → ℕ → ℕ → Except String (List ArtifactSearchHit)
  | 0, _, _ => .ok []
  | remaining + 1, searchOffset, lineIndex =>
    if searchOffset + queryBytes.length ≤ source.length then
      match indexOf source queryBytes searchOffset with
      | none => .ok []
      | some matchOffset => do
        let lineIndex := advanceLine matchOffset lineIndex (lines.drop (lineIndex + 1))
        let line ← definedAt lines[lineIndex]?
        let range : ByteRange := ⟨matchOffset, queryBytes.length⟩
        let hits ← searchHits platform source queryBytes query lines remaining
          (matchOffset + queryBytes.length) lineIndex
        .ok (⟨range, range, platform.sha256Hex queryBytes, line.lineNumber, query⟩ :: hits)
    else .ok []

def searchDetail (input : EncodedSearchInput) (hits : List ArtifactSearchHit) :
    ReceiptOperationDetail :=
  .artifactSearchExact input.queryBytes.length input.input.maxHits
    (hits.map fun hit => ⟨hit.snippetRange, hit.snippetSha256⟩)

def failSearch (call : Call) (options : ReceiptOptions) (input : EncodedSearchInput) :
    ArtifactInspectionErrorCode → Inspection Settled :=
  failClosed call options (searchDetail input []) none

/-- An integrity failure of the record has its receipt even so. -/
def failSearchResolution (call : Call) (context : ArtifactInspectorTrustedContext) (nowIso : Text)
    (input : EncodedSearchInput) : Option AuthorizedArtifactRecord → Inspection Settled
  | some record =>
    failSearch call ⟨context, record, input.input.artifactId, nowIso⟩ input .integrityFailure
  | none => refuse call .internalError none

/-- What follows the verification of all chunks. -/
def finishSearch (platform : Platform) (call : Call) (options : ReceiptOptions)
    (input : EncodedSearchInput) (manifest : ArtifactChunkManifest) (bytes : Bytes)
    (textIndex : ArtifactTextIndex) (verifiedChunks : List VerifiedChunk) : Inspection Settled :=
  let record := options.record
  let failClosed := failSearch call options input
  if verifiedChunks.length != manifest.chunkCount.toNat then failClosed .integrityFailure
  else
    match searchHits platform bytes input.queryBytes input.input.query textIndex.lines
        input.input.maxHits 0 0 with
    | .error message => reject (.error message)
    | .ok hits =>
      let returnedByteSha256 := platform.sha256Hex bytes
      let candidate := InspectionOutput.searchExact hits (readIntegrity record
        (.searchExact input.queryBytes.length) 0 (manifest.chunkCount.toNat - 1)
        ⟨0, record.byteLength⟩ verifiedChunks returnedByteSha256)
      if artifactInspectionResponseByteLength platform .null candidate.toValue >
          maxArtifactResponseBytes then
        failClosed .responseLimitExceeded
      else
        match artifactSearchExactOutputSchema platform candidate with
        | .error message => reject (.error message)
        | .ok false => failClosed .internalError
        | .ok true =>
          succeed call options (searchDetail input hits)
            (some ⟨some input.queryBytes.length, some record.byteLength, none⟩)
            (some ⟨some input.queryBytes.length, some record.byteLength,
              some ((hits.map fun hit => hit.snippetRange.length).sum)⟩) candidate

def artifactSearchExactBody (platform : Platform) (call : Call) (options : ReceiptOptions)
    (input : EncodedSearchInput) (manifest : ArtifactChunkManifest) : Inspection Settled :=
  let record := options.record
  let failClosed := failSearch call options input
  if !isSupportedLineMediaType record.mediaType then failClosed .unsupported
  else if record.byteLength = 0 then failClosed .resourceUnavailable
  else if record.byteLength > maxExactSearchSourceBytes then failClosed .responseLimitExceeded
  else if record.chunkCount > maxVerifiedChunksPerRead then failClosed .responseLimitExceeded
  else
    readIndexedSource platform call options manifest record.mediaType failClosed
      fun bytes textIndex =>
        match verifySourceChunks platform manifest bytes 0 (manifest.chunkCount.toNat - 1) with
        | .error e => reject e
        | .ok none => failClosed .integrityFailure
        | .ok (some verifiedChunks) =>
          finishSearch platform call options input manifest bytes textIndex verifiedChunks

def artifactSearchExact (platform : Platform) (context rawInput : Value) : Inspection Settled :=
  openInspection platform .artifactSearchExact context (encodedSearchInput rawInput)
    (fun input => input.input.artifactId) (fun _ => none) failSearchResolution
    (artifactSearchExactBody platform)

/-- The five operations, by name. -/
def inspect (platform : Platform) : ArtifactInspectionOperation → Value → Value →
    Inspection Settled
  | .artifactStat => artifactStat platform
  | .artifactReadRange => artifactReadRange platform
  | .artifactReadLines => artifactReadLines platform
  | .artifactReadHeading => artifactReadHeading platform
  | .artifactSearchExact => artifactSearchExact platform

end Inspector
