import Mathlib.Data.List.Chain
import SupabaseUserMcp.Inspection

/- `contracts/artifact-inspection.ts`, second half: the output schemas and the
   inspection receipt. An inspector hands its schemas values whose shape is
   already that of the type, so a schema is a test of the fields and of the
   conditions between them. A test reads array elements through `definedAt`,
   and then it can throw instead of answering. -/
namespace Inspection

open Js

/-! Fields. -/

def accepts {α : Type} (schema : Schema α) (s : Text) : Bool := (schema (.string s)).isSome

/-- `z.number().int().min(lo)`. -/
def intFrom (lo n : ℕ) : Bool := lo ≤ n && Number.isSafeInteger (n : ℕ)

/-- `z.number().int().min(lo).max(hi)`. -/
def intBetween (lo hi n : ℕ) : Bool := intFrom lo n && n ≤ hi

def mediaTypeSchema : Schema Text := Schema.string.lengthBetween 1 255

def analyzerProfileIds : List Text := [text "text/plain", text "text/markdown"]

/-- `AnalyzerProfileSupportSchema` and `ReceiptAnalyzerProfileSchema`. -/
def isAnalyzerProfileSupport (profile : Text) : Bool :=
  (analyzerProfileIds ++ [text "unsupported"]).contains profile

/-! Source-integrity metadata. -/

def chunkHashesSchema : ChunkHashes → Bool
  | .inline hashes => hashes.all (accepts sha256HexSchema) && hashes.length ≤ maxInlineChunkHashes
  | .reference ref => accepts opaqueChunkHashesRefSchema ref

/-- The geometry a manifest declares. -/
def sourceIntegrityRefine (value : SourceIntegrityMetadata) : Bool :=
  if value.byteLength = 0 then
    value.chunkCount == 0 && value.chunkHashes == .inline []
  else if value.chunkCount = 0 then false
  else
    (match value.chunkHashes with
      | .inline hashes => hashes.length == value.chunkCount
      | .reference _ => true) &&
    value.chunkSize * (value.chunkCount - 1) + 1 ≤ value.byteLength &&
    value.byteLength ≤ value.chunkSize * value.chunkCount

def sourceIntegrityMetadataSchema (value : SourceIntegrityMetadata) : Bool :=
  accepts artifactIdSchema value.artifactId &&
  accepts opaqueObjectVersionRefSchema value.objectVersionRef &&
  accepts sha256HexSchema value.sourceSha256 &&
  intFrom 0 value.byteLength && intFrom 1 value.chunkSize && intFrom 0 value.chunkCount &&
  chunkHashesSchema value.chunkHashes &&
  accepts sha256HexSchema value.merkleRoot &&
  accepts mediaTypeSchema value.mediaType &&
  isAnalyzerProfileSupport value.analyzerProfileSupport &&
  accepts isoDatetimeSchema value.createdAt &&
  (value.expiresAt.all (accepts isoDatetimeSchema)) &&
  sourceIntegrityRefine value

/-! Partial-read integrity metadata. -/

def requestedRangeSchema : RequestedRange → Bool
  | .byteRange offset length =>
    intBetween 0 maxArtifactByteOffset offset && intBetween 1 maxRangeBytes length
  | .lineRange startLine count =>
    intBetween 1 maxStartLine startLine && intBetween 1 maxLineCount count
  | .heading headingId => accepts headingIdSchema headingId
  | .searchExact queryLength => intBetween 1 maxSearchQueryLength queryLength

def returnedRangeSchema (range : ByteRange) : Bool :=
  intFrom 0 range.offset && intBetween 0 maxRangeBytes range.length

def coveringChunkRangeSchema (range : CoveringChunkRange) : Bool :=
  intFrom 0 range.startChunkIndex && intFrom 0 range.endChunkIndex &&
  range.startChunkIndex ≤ range.endChunkIndex

def merkleProofNodeSchema (node : MerkleProofNode) : Bool :=
  (node.siblingPosition == text "left" || node.siblingPosition == text "right") &&
  accepts sha256HexSchema node.siblingSha256

def verifiedChunkSchema (chunk : VerifiedChunk) : Bool :=
  intFrom 0 chunk.chunkIndex && intFrom 0 chunk.byteStart && intFrom 1 chunk.byteLength &&
  accepts sha256HexSchema chunk.chunkSha256 &&
  chunk.merkleProof.all merkleProofNodeSchema && chunk.merkleProof.length ≤ maxMerkleProofDepth

def partialReadIntegrityFields (value : PartialReadIntegrity) : Bool :=
  requestedRangeSchema value.requestedRange &&
  coveringChunkRangeSchema value.verifiedCoveringChunkRange &&
  returnedRangeSchema value.returnedRange &&
  intFrom 1 value.chunkSize && intFrom 1 value.chunkCount &&
  value.verifiedChunks.all verifiedChunkSchema &&
  1 ≤ value.verifiedChunks.length && value.verifiedChunks.length ≤ maxVerifiedChunksPerRead &&
  accepts sha256HexSchema value.merkleRoot &&
  accepts sha256HexSchema value.returnedByteSha256 &&
  accepts sha256HexSchema value.sourceSha256

/-- The declared size of a verified chunk. -/
def chunkSizeMatches (value : PartialReadIntegrity) (chunk : VerifiedChunk) : Bool :=
  if chunk.chunkIndex + 1 = value.chunkCount then chunk.byteLength ≤ value.chunkSize
  else chunk.byteLength == value.chunkSize

/-- The sums of byte positions are those of doubles: two safe integers may add up
to more than `2^53`. -/
def partialReadIntegrityRefine (value : PartialReadIntegrity) : Except String Bool := do
  let chunks := value.verifiedChunks
  let indexes := chunks.map VerifiedChunk.chunkIndex
  if !decide indexes.Nodup then return false
  if !decide (indexes.IsChain (· < ·)) then return false
  if !chunks.all (fun chunk => chunk.chunkIndex < value.chunkCount) then return false
  if !decide (chunks.IsChain fun previous current =>
      current.chunkIndex = previous.chunkIndex + 1 ∧
      current.byteStart = Number.toDouble (previous.byteStart + previous.byteLength)) then
    return false
  let first ← definedAt chunks.head?
  let last ← definedAt chunks.getLast?
  let coveredStart := first.byteStart
  let coveredEnd := Number.toDouble (last.byteStart + last.byteLength)
  return first.chunkIndex == value.verifiedCoveringChunkRange.startChunkIndex &&
    last.chunkIndex == value.verifiedCoveringChunkRange.endChunkIndex &&
    chunks.all (chunkSizeMatches value) &&
    coveredStart ≤ value.returnedRange.offset &&
    Number.toDouble (value.returnedRange.offset + value.returnedRange.length) ≤ coveredEnd &&
    (match value.requestedRange with
      | .byteRange offset length =>
        coveredStart ≤ offset && Number.toDouble (offset + length) ≤ coveredEnd
      | _ => true) &&
    (value.chunkCount ≤ 1 || chunks.all fun chunk => chunk.merkleProof != [])

def partialReadIntegritySchema (value : PartialReadIntegrity) : Except String Bool := do
  let refined ← partialReadIntegrityRefine value
  return partialReadIntegrityFields value && refined

/-! Output schemas. -/

def bindReturnedDataToIntegrity (platform : Platform) (data : Text)
    (integrity : PartialReadIntegrity) : Bool :=
  utf8Length data == integrity.returnedRange.length &&
  platform.sha256Hex (encodeUtf8 data) == integrity.returnedByteSha256

def artifactStatSuccessSchema : InspectionOutput → Except String Bool
  | .stat artifact => .ok (sourceIntegrityMetadataSchema artifact)
  | _ => .ok false

def artifactReadRangeSuccessSchema (platform : Platform) : InspectionOutput → Except String Bool
  | .readRange data integrity => do
    let valid ← partialReadIntegritySchema integrity
    return valid && bindReturnedDataToIntegrity platform data integrity
  | _ => .ok false

def artifactReadLinesSuccessSchema (platform : Platform) : InspectionOutput → Except String Bool
  | .readLines data returnedLineCount integrity => do
    let valid ← partialReadIntegritySchema integrity
    return intBetween 0 maxLineCount returnedLineCount && valid &&
      bindReturnedDataToIntegrity platform data integrity
  | _ => .ok false

def artifactReadHeadingSuccessSchema (platform : Platform) : InspectionOutput → Except String Bool
  | .readHeading headingId data integrity => do
    let valid ← partialReadIntegritySchema integrity
    return accepts headingIdSchema headingId && valid &&
      bindReturnedDataToIntegrity platform data integrity
  | _ => .ok false

def searchMatchRangeSchema (range : ByteRange) : Bool :=
  intFrom 0 range.offset && intBetween 1 maxSearchQueryLength range.length

/-- A hit binds its snippet to its own range and digest. -/
def artifactSearchHitSchema (platform : Platform) (hit : ArtifactSearchHit) : Bool :=
  searchMatchRangeSchema hit.matchRange && returnedRangeSchema hit.snippetRange &&
  accepts sha256HexSchema hit.snippetSha256 && intBetween 1 maxStartLine hit.lineNumber &&
  hit.snippet.length ≤ maxSearchSnippetLength &&
  hit.snippetRange.offset ≤ hit.matchRange.offset &&
  hit.matchRange.offset + hit.matchRange.length ≤
    hit.snippetRange.offset + hit.snippetRange.length &&
  1 ≤ hit.snippetRange.length &&
  utf8Length hit.snippet == hit.snippetRange.length &&
  platform.sha256Hex (encodeUtf8 hit.snippet) == hit.snippetSha256

/-- Two ranges have one key `offset:length` exactly when they are equal. -/
def searchHitsRefine (hits : List ArtifactSearchHit) (integrity : PartialReadIntegrity) :
    Except String Bool := do
  if !decide (hits.IsChain fun previous current =>
      previous.snippetRange.offset + previous.snippetRange.length ≤
        current.snippetRange.offset) then return false
  if !decide (hits.map ArtifactSearchHit.snippetRange).Nodup then return false
  let firstChunk ← definedAt integrity.verifiedChunks.head?
  let lastChunk ← definedAt integrity.verifiedChunks.getLast?
  let coveredStart := firstChunk.byteStart
  let coveredEnd := lastChunk.byteStart + lastChunk.byteLength
  return hits.all fun hit => coveredStart ≤ hit.snippetRange.offset &&
    hit.snippetRange.offset + hit.snippetRange.length ≤ coveredEnd

def artifactSearchExactSuccessSchema (platform : Platform) : InspectionOutput → Except String Bool
  | .searchExact hits integrity => do
    let valid ← partialReadIntegritySchema integrity
    let refined ← searchHitsRefine hits integrity
    return hits.all (artifactSearchHitSchema platform) && hits.length ≤ maxSearchHits &&
      valid && refined
  | _ => .ok false

def artifactInspectionErrorOutputSchema : InspectionOutput → Bool
  | .error _ => true
  | _ => false

/-- `z.union([success, ArtifactInspectionErrorOutputSchema]).refine(withinLimit)`. -/
def outputSchema (platform : Platform) (success : InspectionOutput → Except String Bool)
    (output : InspectionOutput) : Except String Bool := do
  let succeeded ← success output
  return (succeeded || artifactInspectionErrorOutputSchema output) &&
    withinArtifactInspectionResponseByteLimit platform output.toValue

def artifactStatOutputSchema (platform : Platform) :=
  outputSchema platform artifactStatSuccessSchema

def artifactReadRangeOutputSchema (platform : Platform) :=
  outputSchema platform (artifactReadRangeSuccessSchema platform)

def artifactReadLinesOutputSchema (platform : Platform) :=
  outputSchema platform (artifactReadLinesSuccessSchema platform)

def artifactReadHeadingOutputSchema (platform : Platform) :=
  outputSchema platform (artifactReadHeadingSuccessSchema platform)

def artifactSearchExactOutputSchema (platform : Platform) :=
  outputSchema platform (artifactSearchExactSuccessSchema platform)

/-! Inspection receipt. -/

inductive ReceiptResultOrError where
  | result
  | error (errorClass : ArtifactInspectionErrorCode)
  deriving DecidableEq, Repr

structure ReceiptSearchHitDetail where
  returnedRange : ByteRange
  returnedByteSha256 : Text
  deriving DecidableEq, Repr

structure RequestedLineRange where
  startLine : ℕ
  count : ℕ
  deriving DecidableEq, Repr

inductive ReceiptOperationDetail where
  | artifactStat
  | artifactReadRange (requestedRange returnedRange : ByteRange) (returnedByteSha256 : Text)
  | artifactReadLines (requestedLineRange : RequestedLineRange) (returnedRange : ByteRange)
      (returnedByteSha256 : Text)
  | artifactReadHeading (requestedHeadingId : Text) (returnedRange : ByteRange)
      (returnedByteSha256 : Text)
  | artifactSearchExact (queryLength maxHits : ℕ) (returnedHits : List ReceiptSearchHitDetail)
  deriving DecidableEq, Repr

/-- The fields of a receipt that its schema does not fix to one literal. -/
structure ArtifactInspectionReceipt where
  verifierAudience : Text
  principalRef : Text
  inspectorClientRef : Text
  inspectorCapabilityRef : Text
  artifactId : Text
  objectVersionRef : Text
  sourceSha256 : Text
  merkleRoot : Text
  analyzerProfileId : Text
  analyzerProfileVersion : Text
  policyVersion : Text
  inspectorDeploymentGitCoordinate : Text
  recordedAt : Text
  operationDetail : ReceiptOperationDetail
  resultOrErrorClass : ReceiptResultOrError
  deriving DecidableEq, Repr

def receiptSearchHitDetailSchema (hit : ReceiptSearchHitDetail) : Bool :=
  returnedRangeSchema hit.returnedRange && accepts sha256HexSchema hit.returnedByteSha256

def receiptOperationDetailSchema : ReceiptOperationDetail → Bool
  | .artifactStat => true
  | .artifactReadRange requestedRange returnedRange returnedByteSha256 =>
    intBetween 0 maxArtifactByteOffset requestedRange.offset &&
    intBetween 1 maxRangeBytes requestedRange.length &&
    returnedRangeSchema returnedRange && accepts sha256HexSchema returnedByteSha256
  | .artifactReadLines requestedLineRange returnedRange returnedByteSha256 =>
    intBetween 1 maxStartLine requestedLineRange.startLine &&
    intBetween 1 maxLineCount requestedLineRange.count &&
    returnedRangeSchema returnedRange && accepts sha256HexSchema returnedByteSha256
  | .artifactReadHeading requestedHeadingId returnedRange returnedByteSha256 =>
    accepts headingIdSchema requestedHeadingId &&
    returnedRangeSchema returnedRange && accepts sha256HexSchema returnedByteSha256
  | .artifactSearchExact queryLength maxHits returnedHits =>
    intBetween 1 maxSearchQueryLength queryLength && intBetween 1 maxSearchHits maxHits &&
    returnedHits.all receiptSearchHitDetailSchema && returnedHits.length ≤ maxSearchHits &&
    returnedHits.all (fun hit => 1 ≤ hit.returnedRange.length) &&
    decide (returnedHits.map ReceiptSearchHitDetail.returnedRange).Nodup

def artifactInspectionReceiptSchema (receipt : ArtifactInspectionReceipt) : Bool :=
  accepts authorizationIdentifierSchema receipt.verifierAudience &&
  accepts authorizationIdentifierSchema receipt.principalRef &&
  accepts authorizationIdentifierSchema receipt.inspectorClientRef &&
  accepts authorizationIdentifierSchema receipt.inspectorCapabilityRef &&
  accepts artifactIdSchema receipt.artifactId &&
  accepts opaqueObjectVersionRefSchema receipt.objectVersionRef &&
  accepts sha256HexSchema receipt.sourceSha256 &&
  accepts sha256HexSchema receipt.merkleRoot &&
  isAnalyzerProfileSupport receipt.analyzerProfileId &&
  accepts boundedVersionStringSchema receipt.analyzerProfileVersion &&
  accepts boundedVersionStringSchema receipt.policyVersion &&
  accepts gitCommitCoordinateSchema receipt.inspectorDeploymentGitCoordinate &&
  accepts isoDatetimeSchema receipt.recordedAt &&
  receiptOperationDetailSchema receipt.operationDetail

/-! When a schema answers, and what it has checked. -/

theorem exists_head?_getLast? {α : Type} {l : List α} (h : l ≠ []) :
    (∃ a, l.head? = some a) ∧ ∃ a, l.getLast? = some a := by
  constructor
  · exact ⟨l.head h, List.head?_eq_some_head h⟩
  · exact ⟨l.getLast h, List.getLast?_eq_some_getLast h⟩

theorem chunkSizeMatches_of {value : PartialReadIntegrity} {chunk : VerifiedChunk}
    (hle : chunk.byteLength ≤ value.chunkSize)
    (hinner : chunk.chunkIndex + 1 ≠ value.chunkCount → chunk.byteLength = value.chunkSize) :
    chunkSizeMatches value chunk = true := by
  rw [chunkSizeMatches]
  split
  · exact decide_eq_true hle
  · next hne => exact beq_iff_eq.mpr (hinner hne)

/-- A read passes the conditions between its fields when its chunks follow each
other, end where sums are exact, and cover its ranges. -/
theorem partialReadIntegrityRefine_of {value : PartialReadIntegrity} {first last : VerifiedChunk}
    (hnodup : (value.verifiedChunks.map VerifiedChunk.chunkIndex).Nodup)
    (hsorted : (value.verifiedChunks.map VerifiedChunk.chunkIndex).IsChain (· < ·))
    (hinRange : (value.verifiedChunks.all fun chunk => chunk.chunkIndex < value.chunkCount) = true)
    (hneighbours : value.verifiedChunks.IsChain fun previous current =>
      current.chunkIndex = previous.chunkIndex + 1 ∧
      current.byteStart = previous.byteStart + previous.byteLength)
    (hexact : ∀ chunk ∈ value.verifiedChunks, chunk.byteStart + chunk.byteLength < 2 ^ 53)
    (hfirst : value.verifiedChunks.head? = some first)
    (hlast : value.verifiedChunks.getLast? = some last)
    (hcovering : value.verifiedCoveringChunkRange = ⟨first.chunkIndex, last.chunkIndex⟩)
    (hsizes : value.verifiedChunks.all (chunkSizeMatches value) = true)
    (hstart : first.byteStart ≤ value.returnedRange.offset)
    (hstop : value.returnedRange.offset + value.returnedRange.length ≤
      last.byteStart + last.byteLength)
    (hrequested : ∀ offset length, value.requestedRange = .byteRange offset length →
      first.byteStart ≤ offset ∧ offset + length ≤ last.byteStart + last.byteLength)
    (hproofs : 1 < value.chunkCount → (value.verifiedChunks.all fun chunk =>
      chunk.merkleProof != []) = true) : partialReadIntegrityRefine value = .ok true := by
  have hneighbours : value.verifiedChunks.IsChain fun previous current =>
      current.chunkIndex = previous.chunkIndex + 1 ∧
      current.byteStart = Number.toDouble (previous.byteStart + previous.byteLength) := by
    refine hneighbours.imp_of_mem_imp fun previous current hprevious _ hnext => ⟨hnext.1, ?_⟩
    rw [Number.toDouble_of_lt (hexact previous hprevious), hnext.2]
  have hend := hexact last (List.mem_of_getLast? hlast)
  simp only [partialReadIntegrityRefine, hnodup, hsorted, hinRange, hneighbours, hfirst, hlast,
    definedAt_some, ok_bind, pure_eq_ok, decide_true, Bool.not_true, Bool.false_eq_true, if_false,
    hcovering, hsizes, hstart, Number.toDouble_of_lt hend, Number.toDouble_of_lt (hstop.trans_lt hend),
    hstop, beq_self_eq_true, Bool.and_self, Bool.true_and]
  refine congrArg Except.ok (Bool.and_eq_true_iff.mpr ⟨?_, ?_⟩)
  · cases hrange : value.requestedRange with
    | byteRange offset length =>
      obtain ⟨hfrom, hto⟩ := hrequested offset length hrange
      simp [hfrom, hto, Number.toDouble_of_lt (hto.trans_lt hend)]
    | _ => rfl
  · by_cases hone : value.chunkCount ≤ 1
    · simp [hone]
    · rw [hproofs (by omega), Bool.or_true]

/-- The schema of a partial read throws only on a read without chunks. -/
theorem exists_partialReadIntegritySchema {value : PartialReadIntegrity}
    (h : value.verifiedChunks ≠ []) : ∃ valid, partialReadIntegritySchema value = .ok valid := by
  obtain ⟨⟨first, hfirst⟩, last, hlast⟩ := exists_head?_getLast? h
  have hrefine : ∃ refined, partialReadIntegrityRefine value = .ok refined := by
    simp only [partialReadIntegrityRefine, hfirst, hlast, definedAt_some, ok_bind]
    exact exists_ok_ite ⟨_, rfl⟩ (exists_ok_ite ⟨_, rfl⟩ (exists_ok_ite ⟨_, rfl⟩
      (exists_ok_ite ⟨_, rfl⟩ ⟨_, rfl⟩)))
  obtain ⟨refined, hrefined⟩ := hrefine
  exact ⟨_, by rw [partialReadIntegritySchema, hrefined]; rfl⟩

theorem exists_searchHitsRefine {hits : List ArtifactSearchHit} {integrity : PartialReadIntegrity}
    (h : integrity.verifiedChunks ≠ []) : ∃ refined, searchHitsRefine hits integrity = .ok refined := by
  obtain ⟨⟨first, hfirst⟩, last, hlast⟩ := exists_head?_getLast? h
  simp only [searchHitsRefine, hfirst, hlast, definedAt_some, ok_bind]
  exact exists_ok_ite ⟨_, rfl⟩ (exists_ok_ite ⟨_, rfl⟩ ⟨_, rfl⟩)

/-- The integrity object of an output, where it has one. -/
def InspectionOutput.integrity : InspectionOutput → Option PartialReadIntegrity
  | .readRange _ integrity | .readLines _ _ integrity | .readHeading _ _ integrity
  | .searchExact _ integrity => some integrity
  | .stat _ | .error _ => none

section Answers

variable {platform : Platform} {output : InspectionOutput}

theorem exists_outputSchema {success : InspectionOutput → Except String Bool}
    (h : ∃ succeeded, success output = .ok succeeded) :
    ∃ valid, outputSchema platform success output = .ok valid := by
  obtain ⟨succeeded, hsucceeded⟩ := h
  exact ⟨_, by rw [outputSchema, hsucceeded]; rfl⟩

theorem exists_artifactStatOutputSchema :
    ∃ valid, artifactStatOutputSchema platform output = .ok valid := by
  refine exists_outputSchema ?_
  cases output <;> exact ⟨_, rfl⟩

variable (h : ∀ integrity, output.integrity = some integrity → integrity.verifiedChunks ≠ [])

include h

theorem exists_artifactReadRangeOutputSchema :
    ∃ valid, artifactReadRangeOutputSchema platform output = .ok valid := by
  refine exists_outputSchema ?_
  cases output with
  | readRange data integrity =>
    obtain ⟨valid, hvalid⟩ := exists_partialReadIntegritySchema (h integrity rfl)
    exact ⟨_, by rw [artifactReadRangeSuccessSchema, hvalid]; rfl⟩
  | _ => exact ⟨_, rfl⟩

theorem exists_artifactReadLinesOutputSchema :
    ∃ valid, artifactReadLinesOutputSchema platform output = .ok valid := by
  refine exists_outputSchema ?_
  cases output with
  | readLines data returnedLineCount integrity =>
    obtain ⟨valid, hvalid⟩ := exists_partialReadIntegritySchema (h integrity rfl)
    exact ⟨_, by rw [artifactReadLinesSuccessSchema, hvalid]; rfl⟩
  | _ => exact ⟨_, rfl⟩

theorem exists_artifactReadHeadingOutputSchema :
    ∃ valid, artifactReadHeadingOutputSchema platform output = .ok valid := by
  refine exists_outputSchema ?_
  cases output with
  | readHeading headingId data integrity =>
    obtain ⟨valid, hvalid⟩ := exists_partialReadIntegritySchema (h integrity rfl)
    exact ⟨_, by rw [artifactReadHeadingSuccessSchema, hvalid]; rfl⟩
  | _ => exact ⟨_, rfl⟩

theorem exists_artifactSearchExactOutputSchema :
    ∃ valid, artifactSearchExactOutputSchema platform output = .ok valid := by
  refine exists_outputSchema ?_
  cases output with
  | searchExact hits integrity =>
    obtain ⟨valid, hvalid⟩ := exists_partialReadIntegritySchema (h integrity rfl)
    obtain ⟨refined, hrefined⟩ := exists_searchHitsRefine (h integrity rfl)
    exact ⟨_, by rw [artifactSearchExactSuccessSchema, hvalid, ok_bind, hrefined]; rfl⟩
  | _ => exact ⟨_, rfl⟩

end Answers

/-- Every output schema ends with the check of the response ceiling. -/
theorem within_of_outputSchema {platform : Platform} {output : InspectionOutput}
    {success : InspectionOutput → Except String Bool}
    (h : outputSchema platform success output = .ok true) :
    withinArtifactInspectionResponseByteLimit platform output.toValue = true := by
  obtain ⟨succeeded, -, h⟩ := bind_eq_ok.mp h
  simp only [pure_eq_ok, Except.ok.injEq, Bool.and_eq_true] at h
  exact h.2

end Inspection
