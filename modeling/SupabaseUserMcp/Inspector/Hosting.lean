import SupabaseUserMcp.Inspector.Operations
import SupabaseUserMcp.Js.Dates

/- A source behind honest dependencies. The registry answers with a valid and
   unexpired record of the source, the adapter with the bytes asked for under the
   recorded version, and the clock with one time; the observers do as they like.
   `Settles` says what a fragment of an operation fetches and how it ends, on every
   run of it with such dependencies, and has one rule for each fragment. -/
namespace Inspector

open Js Inspection ChunkManifest
open Process (Exchange Program Ensures ensures_ask ensures_done)

/-! Accepted fields. -/

/-- The fields of a context that a receipt repeats. -/
structure Trusted (context : ArtifactInspectorTrustedContext) : Prop where
  verifierAudience : accepts authorizationIdentifierSchema context.verifierAudience = true
  principalRef : accepts authorizationIdentifierSchema context.principalRef = true
  inspectorClientRef : accepts authorizationIdentifierSchema context.inspectorClientRef = true
  inspectorCapabilityRef :
    accepts authorizationIdentifierSchema context.inspectorCapabilityRef = true
  policyVersion : accepts boundedVersionStringSchema context.policyVersion = true
  inspectorDeploymentGitCoordinate :
    accepts gitCommitCoordinateSchema context.inspectorDeploymentGitCoordinate = true

/-- What a refined string schema reads it accepts. -/
theorem accepts_of_refine {schema : Schema Text} {p : Text → Bool} {v : Value} {s : Text}
    (hschema : ∀ {v s}, schema v = some s → v = .string s) (h : schema.refine p v = some s) :
    accepts (schema.refine p) s = true := by
  obtain rfl := hschema (Schema.refine_eq_some.mp h).1
  rw [accepts, h]
  rfl

theorem lengthBetween_eq_string {lo hi : ℕ} {v : Value} {s : Text}
    (h : Schema.string.lengthBetween lo hi v = some s) : v = .string s :=
  Schema.string_eq_some.mp (Schema.refine_eq_some.mp h).1

theorem trusted_of_validate {context : Value} {runtimeContext : ArtifactInspectorTrustedContext}
    (h : validateRuntimeContext context = some runtimeContext) : Trusted runtimeContext := by
  cases context with
  | object properties =>
    simp only [validateRuntimeContext, artifactInspectorTrustedContextSchema, Schema.strictObject,
      Option.ite_none_right_eq_some] at h
    obtain ⟨principalRef, hprincipal, h⟩ := Option.bind_eq_some_iff.mp h.2
    obtain ⟨clientRef, hclient, h⟩ := Option.bind_eq_some_iff.mp h
    obtain ⟨capabilityRef, hcapability, h⟩ := Option.bind_eq_some_iff.mp h
    obtain ⟨audience, haudience, h⟩ := Option.bind_eq_some_iff.mp h
    obtain ⟨policyVersion, hpolicy, h⟩ := Option.bind_eq_some_iff.mp h
    obtain ⟨coordinate, hcoordinate, h⟩ := Option.bind_eq_some_iff.mp h
    obtain ⟨correlation, -, h⟩ := Option.bind_eq_some_iff.mp h
    obtain rfl := Option.some.inj h
    have href : ∃ ref, authorizationIdentifierSchema ref = some capabilityRef := by
      cases hvalue : (Value.property properties (text "inspectorCapabilityRef")).getD .undefined with
      | object fields =>
        rw [hvalue] at hcapability
        simp only [inspectorCapabilityRefSchema, Schema.strictObject,
          Option.ite_none_right_eq_some] at hcapability
        obtain ⟨⟨⟩, -, hcapability⟩ := Option.bind_eq_some_iff.mp hcapability.2
        exact ⟨_, hcapability⟩
      | _ =>
        rw [hvalue] at hcapability
        cases hcapability
    obtain ⟨ref, href⟩ := href
    exact ⟨accepts_of_refine lengthBetween_eq_string haudience,
      accepts_of_refine lengthBetween_eq_string hprincipal,
      accepts_of_refine lengthBetween_eq_string hclient,
      accepts_of_refine lengthBetween_eq_string href,
      accepts_of_refine lengthBetween_eq_string hpolicy,
      accepts_of_refine Schema.string_eq_some.mp hcoordinate⟩
  | _ => cases h

/-- The references of a validated record, which a receipt repeats. -/
theorem accepts_references {rawRecord : Value} {artifactId : Text}
    {record : AuthorizedArtifactRecord}
    (h : validateAuthorizedArtifactRecord rawRecord artifactId = some record) :
    accepts artifactIdSchema record.artifactId = true ∧
      accepts opaqueObjectVersionRefSchema record.objectVersionRef = true := by
  cases rawRecord with
  | object candidate =>
    simp only [validateAuthorizedArtifactRecord, Option.bind_eq_bind, Option.bind_eq_some_iff]
      at h
    obtain ⟨⟨⟩, -, ⟨⟩, -, validated, hvalidated, ⟨⟩, -, hrecord⟩ := h
    obtain rfl := Option.some.inj hrecord
    obtain ⟨artifactId, hid, hvalidated⟩ := Option.bind_eq_some_iff.mp hvalidated
    obtain ⟨objectVersionRef, hversion, hvalidated⟩ := Option.bind_eq_some_iff.mp hvalidated
    obtain ⟨sourceSha256, -, hvalidated⟩ := Option.bind_eq_some_iff.mp hvalidated
    obtain ⟨byteLength, -, hvalidated⟩ := Option.bind_eq_some_iff.mp hvalidated
    obtain ⟨chunkSize, -, hvalidated⟩ := Option.bind_eq_some_iff.mp hvalidated
    obtain ⟨chunkCount, -, hvalidated⟩ := Option.bind_eq_some_iff.mp hvalidated
    obtain ⟨raws, -, hvalidated⟩ := Option.bind_eq_some_iff.mp hvalidated
    obtain ⟨leaves, -, hvalidated⟩ := Option.bind_eq_some_iff.mp hvalidated
    obtain ⟨merkleRoot, -, hvalidated⟩ := Option.bind_eq_some_iff.mp hvalidated
    obtain ⟨mediaType, -, hvalidated⟩ := Option.bind_eq_some_iff.mp hvalidated
    obtain ⟨createdAt, -, hvalidated⟩ := Option.bind_eq_some_iff.mp hvalidated
    obtain ⟨expiresAt, -, hvalidated⟩ := Option.bind_eq_some_iff.mp hvalidated
    obtain ⟨chunkHashesRef, -, hvalidated⟩ := Option.bind_eq_some_iff.mp hvalidated
    obtain ⟨⟨⟩, -, hvalidated⟩ := Option.bind_eq_some_iff.mp hvalidated
    obtain rfl := Option.some.inj hvalidated
    exact ⟨accepts_of_refine lengthBetween_eq_string hid,
      accepts_of_refine lengthBetween_eq_string hversion⟩
  | _ => cases h

/-- The profile of a receipt is one of the three. -/
theorem isAnalyzerProfileSupport_analyzerProfileIdFor (mediaType : Text) :
    isAnalyzerProfileSupport (analyzerProfileIdFor mediaType) = true := by
  rw [analyzerProfileIdFor]
  split
  · next h =>
    simp only [isSupportedLineMediaType, Bool.or_eq_true, beq_iff_eq] at h
    rcases h with rfl | rfl <;> decide
  · decide

/-- The covering chunks of a read are few and small. -/
theorem covering_small {cs length : ℕ} (offset len : ℕ) (hcs : cs ∈ allowedChunkSizes)
    (hpositive : 1 ≤ length) (hmax : length ≤ maxRangeBytes) :
    min (((offset + length - 1) / cs + 1) * cs) len - offset / cs * cs ≤ maxCoveringFetchBytes ∧
      (offset + length - 1) / cs + 1 - offset / cs ≤ maxVerifiedChunksPerRead := by
  simp only [allowedChunkSizes, List.mem_cons, List.not_mem_nil, or_false] at hcs
  simp only [maxRangeBytes, maxCoveringFetchBytes, maxVerifiedChunksPerRead] at hmax ⊢
  rcases hcs with rfl | rfl | rfl <;> omega

/-! Hosting. -/

theorem fourDigitYear_zero : 0 ≤ (civil (0 / 86400000)).1 ∧ (civil (0 / 86400000)).1 ≤ 9999 := by
  decide

/-- A source, its record and its registry's answer, the context and the clock of a request. -/
structure Hosting (platform : Platform) where
  source : Bytes
  nonempty : source ≠ []
  artifactId : Text
  rawRecord : Value
  record : AuthorizedArtifactRecord
  validated : validateAuthorizedArtifactRecord rawRecord artifactId = some record
  describes : Describes platform source record
  context : Value
  runtimeContext : ArtifactInspectorTrustedContext
  trusted : validateRuntimeContext context = some runtimeContext
  time : ℤ
  fourDigitYear : 0 ≤ (civil (time / 86400000)).1 ∧ (civil (time / 86400000)).1 ≤ 9999
  unexpired : isArtifactExpired platform record.expiresAt (toISOString time) = false

/-- The interval that an exchange fetched. -/
def fetchOf : Exchange Request Reply → Option ByteRange
  | ⟨.readVersionedRange _ _ _ offset length, _⟩ => some ⟨offset, length⟩
  | _ => none

def fetches (trace : Trace) : List ByteRange := trace.filterMap fetchOf

/-- An output, or the refusal of its response. -/
def limited (platform : Platform) (output : InspectionOutput) : InspectionOutput :=
  if artifactInspectionResponseByteLength platform .null output.toValue > maxArtifactResponseBytes
  then .error .responseLimitExceeded
  else output

def requestedRange (input : ArtifactReadRangeInput) : ByteRange := ⟨input.offset, input.length⟩

namespace Hosting

variable {platform : Platform} (hosting : Hosting platform)

/-- An exchange with honest dependencies. The observers may answer anything. -/
def Honest : Exchange Request Reply → Prop
  | ⟨.now, reading⟩ => reading = .date (some hosting.time)
  | ⟨.resolveAuthorizedArtifact _ artifactId, reply⟩ =>
    artifactId = hosting.artifactId → reply = .ok hosting.rawRecord
  | ⟨.readVersionedRange _ internalLocator objectVersionRef offset length, reply⟩ =>
    internalLocator = hosting.record.internalLocator →
      objectVersionRef = hosting.record.objectVersionRef →
      offset + length ≤ hosting.source.length →
      ∃ rawResult, reply = .ok rawResult ∧ parseReadResult rawResult =
        some ⟨subarray hosting.source offset (offset + length), objectVersionRef⟩
  | _ => True

/-- Every run with honest dependencies fetches these intervals and returns this output. -/
def Settles (p : Inspection Settled) (fetched : List ByteRange) (output : InspectionOutput) : Prop :=
  Ensures p fun trace settled => (∀ x ∈ trace, hosting.Honest x) →
    fetches trace = fetched ∧ settled = .ok output

theorem valid : ValidRecord hosting.record :=
  (validateAuthorizedArtifactRecord_eq_some hosting.validated).2

theorem artifactId_record : hosting.record.artifactId = hosting.artifactId :=
  (validateAuthorizedArtifactRecord_eq_some hosting.validated).1

theorem bounded : hosting.source.length ≤ maxCalibrationSourceBytes :=
  (hosting.describes.declared hosting.valid).choose

/-- The data of the record's manifest, which are the source's. -/
def declared : DeclaredManifest :=
  .ofSource platform.sha256 hosting.source hosting.record.chunkSize hosting.valid.allowed
    hosting.bounded

theorem declared_record : hosting.valid.declared = hosting.declared :=
  (hosting.describes.declared hosting.valid).choose_spec

def manifest : ArtifactChunkManifest := hosting.declared.manifest platform.sha256

theorem byteLength_record : hosting.record.byteLength = hosting.source.length :=
  congrArg DeclaredManifest.byteLength hosting.declared_record

theorem length_pos : 0 < hosting.source.length := List.length_pos_iff.mpr hosting.nonempty

theorem root_record : hosting.record.merkleRoot =
    toHex (rootDigest platform.sha256 hosting.valid.declared.leaves) := by
  obtain ⟨manifest, hbuild, -, -, -, -, -, hroot⟩ := hosting.describes
  obtain ⟨-, cs, -, hsize, rfl⟩ := (buildArtifactChunkManifest_eq_ok platform.sha256).mp hbuild
  obtain rfl := Number.ofNat_inj.mp hsize
  rw [declared_record, ← hroot]
  show toHex (rootDigest platform.sha256 _) =
    toHex (rootDigest platform.sha256 (leavesOf (sourceHashes platform.sha256 _ _)))
  rw [leavesOf_sourceHashes]

theorem resolveOutcome_rawRecord : resolveOutcome platform hosting.artifactId
    (toISOString hosting.time) (.ok hosting.rawRecord) =
      .ok hosting.record hosting.manifest := by
  rw [resolveOutcome_eq_ok hosting.validated hosting.valid hosting.unexpired hosting.root_record,
    declared_record, manifest]

/-! Rules. -/

section Rules

variable {fetched : List ByteRange} {output : InspectionOutput}

theorem settles_settle : hosting.Settles (settle output) [] output :=
  ensures_done.mpr fun _ => ⟨rfl, rfl⟩

/-- A request that fetches nothing. -/
theorem settles_ask {q : Request} {next : Reply q → Inspection Settled}
    (hq : ∀ reply, fetchOf ⟨q, reply⟩ = none)
    (hnext : ∀ reply, hosting.Honest ⟨q, reply⟩ → hosting.Settles (next reply) fetched output) :
    hosting.Settles (.ask q next) fetched output := by
  refine ensures_ask.mpr fun reply trace settled hrun hhonest => ?_
  obtain ⟨hreply, hrest⟩ := List.forall_mem_cons.mp hhonest
  obtain ⟨hfetches, hsettled⟩ := hnext reply hreply trace settled hrun hrest
  refine ⟨?_, hsettled⟩
  rw [fetches, List.filterMap_cons_none (hq reply)]
  exact hfetches

theorem settles_emit {call : Call} {resultClass : ResultClass} {byteCounts : Option ByteCounts}
    {next : Inspection Settled} (hnext : hosting.Settles next fetched output) :
    hosting.Settles (emit call resultClass byteCounts >>= fun _ => next) fetched output := by
  simp only [emit, request, Program.request_bind, Program.ask_bind, Program.pure_eq,
    Program.done_bind]
  exact hosting.settles_ask (fun _ => rfl) fun _ _ =>
    hosting.settles_ask (fun _ => rfl) fun _ _ => hnext

/-- A failure is returned whether its receipt is valid or not. -/
theorem settles_failClosed (call : Call) (options : ReceiptOptions) (detail : ReceiptOperationDetail)
    (byteCounts : Option ByteCounts) (code : ArtifactInspectionErrorCode) :
    hosting.Settles (failClosed call options detail byteCounts code) [] (.error code) := by
  have hrefuse : hosting.Settles (refuse call code byteCounts) [] (.error code) :=
    hosting.settles_emit hosting.settles_settle
  simp only [failClosed, emitReceiptSafely]
  split
  · exact hrefuse
  · exact hosting.settles_ask (fun _ => rfl) fun _ _ => hrefuse

def options : ReceiptOptions :=
  ⟨hosting.runtimeContext, hosting.record, hosting.artifactId, toISOString hosting.time⟩

theorem receipt_valid {detail : ReceiptOperationDetail}
    (hdetail : receiptOperationDetailSchema detail = true) :
    artifactInspectionReceiptSchema (buildReceiptBase hosting.options none detail) = true := by
  have htrusted := trusted_of_validate hosting.trusted
  obtain ⟨hid, hversion⟩ := accepts_references hosting.validated
  rw [hosting.artifactId_record] at hid
  have hsource := accepts_sha256Hex hosting.valid.hexSource
  have hroot := accepts_sha256Hex hosting.valid.hexRoot
  have hprofile := isAnalyzerProfileSupport_analyzerProfileIdFor hosting.record.mediaType
  have hprofileVersion : accepts boundedVersionStringSchema artifactInspectorProfileVersion =
      true := by decide +kernel
  have hrecordedAt : accepts isoDatetimeSchema (toISOString hosting.time) = true := by
    have hdatetime := isoDatetime_toISOString hosting.fourDigitYear.1 hosting.fourDigitYear.2
    rw [accepts, Option.isSome_iff_exists]
    exact ⟨_, Schema.refine_of rfl hdatetime⟩
  simp only [artifactInspectionReceiptSchema, buildReceiptBase, options, hid, hversion, hsource,
    hroot, hprofile, hprofileVersion, hrecordedAt, hdetail, htrusted.verifierAudience,
    htrusted.principalRef, htrusted.inspectorClientRef, htrusted.inspectorCapabilityRef,
    htrusted.policyVersion, htrusted.inspectorDeploymentGitCoordinate, Bool.and_self]

theorem settles_succeed {detail : ReceiptOperationDetail}
    (hdetail : receiptOperationDetailSchema detail = true) (call : Call)
    (droppedByteCounts byteCounts : Option ByteCounts) :
    hosting.Settles (succeed call hosting.options detail droppedByteCounts byteCounts output) []
      output := by
  simp only [succeed, emitReceiptSafely, hosting.receipt_valid hdetail, Bool.not_true,
    Bool.false_eq_true, if_false]
  exact hosting.settles_ask (fun _ => rfl) fun _ _ => hosting.settles_emit hosting.settles_settle

/-- The end of an operation whose output passes its schema. -/
theorem settles_candidate {candidate : InspectionOutput} {checked : Except String Bool} {call : Call}
    {detail : ReceiptOperationDetail} {droppedByteCounts byteCounts : Option ByteCounts}
    {onLimit onInvalid : Inspection Settled} {onError : String → Inspection Settled} :
    hosting.Settles onLimit [] (.error .responseLimitExceeded) →
      (artifactInspectionResponseByteLength platform .null candidate.toValue ≤
        maxArtifactResponseBytes → checked = .ok true) →
      receiptOperationDetailSchema detail = true →
      hosting.Settles (if artifactInspectionResponseByteLength platform .null candidate.toValue >
          maxArtifactResponseBytes then onLimit
        else match checked with
          | .error message => onError message
          | .ok false => onInvalid
          | .ok true =>
            succeed call hosting.options detail droppedByteCounts byteCounts candidate) []
        (limited platform candidate) := by
  intro hlimit hchecked hdetail
  rw [limited]
  split
  · exact hlimit
  · next hfits =>
    rw [hchecked (Nat.le_of_not_lt hfits)]
    exact hosting.settles_succeed hdetail call droppedByteCounts byteCounts

/-- The opening checks pass. -/
theorem settles_openInspection {Input : Type} {operation : ArtifactInspectionOperation}
    {input : Input} {id : Input → Text} {byteCounts : Input → Option ByteCounts}
    {onInternalError : Call → ArtifactInspectorTrustedContext → Text → Input →
      Option AuthorizedArtifactRecord → Inspection Settled}
    {body : Call → ReceiptOptions → Input → ArtifactChunkManifest → Inspection Settled}
    (hid : id input = hosting.artifactId)
    (hbody : ∀ call, hosting.Settles (body call hosting.options input hosting.manifest) fetched
      output) :
    hosting.Settles (openInspection platform operation hosting.context (some input) id byteCounts
      onInternalError body) fetched output := by
  simp only [openInspection, request, readClockIso, resolveArtifact, Program.request_bind,
    Program.ask_bind, Program.pure_eq, Program.done_bind, hosting.trusted, hid]
  refine hosting.settles_ask (fun _ => rfl) fun startedAtMs _ => ?_
  refine hosting.settles_ask (fun _ => rfl) fun reading hreading => ?_
  obtain rfl : reading = .date (some hosting.time) := hreading
  refine hosting.settles_ask (fun _ => rfl) fun reply hreply => ?_
  obtain rfl := hreply hid
  simp only [hosting.resolveOutcome_rawRecord]
  exact hbody _

/-- A read inside the source fetches its interval and goes on with its bytes. -/
theorem settles_readBytes {call : Call} {offset length : ℕ} {byteCounts : Option ByteCounts}
    {failClosed : ArtifactInspectionErrorCode → Inspection Settled}
    {next : Bytes → Inspection Settled} (hinside : offset + length ≤ hosting.source.length)
    (hnext : hosting.Settles (next (subarray hosting.source offset (offset + length))) fetched
      output) :
    hosting.Settles (readBytes call hosting.options offset length byteCounts failClosed next)
      (⟨offset, length⟩ :: fetched) output := by
  have hlength : (subarray hosting.source offset (offset + length)).length = length := by
    rw [length_subarray]
    omega
  simp only [readBytes, request, Program.request_bind]
  refine ensures_ask.mpr fun reply trace settled hrun hhonest => ?_
  obtain ⟨hreply, hrest⟩ := List.forall_mem_cons.mp hhonest
  obtain ⟨rawResult, rfl, hparse⟩ := hreply rfl rfl hinside
  have hnull : rawResult ≠ .null := by
    rintro rfl
    cases hparse
  have hversion : (hosting.options.record.objectVersionRef !=
      hosting.options.record.objectVersionRef) = false := bne_self_eq_false _
  simp only [hparse, hversion, hlength, bne_self_eq_false, Bool.false_eq_true, if_false] at hrun
  obtain ⟨hfetches, hsettled⟩ := hnext trace settled hrun hrest
  refine ⟨?_, hsettled⟩
  show (⟨offset, length⟩ : ByteRange) :: fetches trace = _
  rw [hfetches]

end Rules

/-! Reads of an interval. -/

/-- An interval that a read may return. -/
structure Readable (range : ByteRange) : Prop where
  positive : 0 < range.length
  within : range.length ≤ maxRangeBytes
  inside : range.offset + range.length ≤ hosting.source.length

def startChunkIndex (range : ByteRange) : ℕ := range.offset / hosting.record.chunkSize

def endChunkIndex (range : ByteRange) : ℕ :=
  (range.offset + range.length - 1) / hosting.record.chunkSize

def bytes (range : ByteRange) : Bytes :=
  subarray hosting.source range.offset (range.offset + range.length)

def verifiedChunks (range : ByteRange) : List VerifiedChunk :=
  (List.range' (hosting.startChunkIndex range)
    (hosting.endChunkIndex range + 1 - hosting.startChunkIndex range)).map
      (verifiedChunk platform hosting.declared)

/-- The integrity object of a read that returns an interval. -/
def integrity (requestedRange : RequestedRange) (range : ByteRange) : PartialReadIntegrity :=
  coveredIntegrity platform hosting.declared requestedRange (hosting.startChunkIndex range)
    (hosting.endChunkIndex range) range (platform.sha256Hex (hosting.bytes range))

theorem readIntegrity_record (requestedRange : RequestedRange) (range : ByteRange) :
    readIntegrity hosting.record requestedRange (hosting.startChunkIndex range)
      (hosting.endChunkIndex range) range (hosting.verifiedChunks range)
      (platform.sha256Hex (hosting.bytes range)) = hosting.integrity requestedRange range := by
  have hcount : hosting.record.chunkCount = hosting.declared.chunkCount := by
    rw [← declared_record, ValidRecord.chunkCount_declared]
  have hsource : hosting.record.sourceSha256 = hosting.declared.sourceSha256 :=
    congrArg DeclaredManifest.sourceSha256 hosting.declared_record
  have hroot : hosting.record.merkleRoot =
      (hosting.declared.manifest platform.sha256).merkleRoot := by
    rw [hosting.root_record, declared_record]
    rfl
  simp only [readIntegrity, integrity, coveredIntegrity, verifiedChunks, hcount, hsource, hroot]
  rfl

section Reads

variable {hosting} {range : ByteRange} (hreadable : hosting.Readable range)

include hreadable

theorem endChunkIndex_lt : hosting.endChunkIndex range <
    chunkCountOf hosting.source.length hosting.record.chunkSize := by
  refine (lt_chunkCountOf (pos_of_allowed hosting.valid.allowed)).mpr ?_
  have hpositive := hreadable.positive
  have hinside := hreadable.inside
  have := Nat.div_mul_le_self (range.offset + range.length - 1) hosting.record.chunkSize
  rw [endChunkIndex]
  omega

/-- The source's own chunks are verified, in whatever buffer they are found. -/
theorem buildAndVerifyCoveringChunks_source {buffer : Bytes} {bufferOffset : ℕ}
    (hslice : ∀ i, hosting.startChunkIndex range ≤ i → i ≤ hosting.endChunkIndex range →
      i < chunkCountOf hosting.source.length hosting.record.chunkSize →
      chunkSlice hosting.declared buffer bufferOffset i =
        chunkOf hosting.source hosting.record.chunkSize i) :
    buildAndVerifyCoveringChunks platform hosting.manifest (hosting.startChunkIndex range)
      (hosting.endChunkIndex range) (chunkBytesAt hosting.manifest buffer bufferOffset) =
        .ok (some (hosting.verifiedChunks range)) := by
  have hend := endChunkIndex_lt hreadable
  refine verifyCoveringChunks_source platform hosting.valid.allowed hosting.bounded fun i hi => ?_
  obtain ⟨hfrom, hto⟩ := List.mem_range'_1.mp hi
  exact ⟨by omega, hslice i hfrom (by omega) (by omega)⟩

/-- In the whole source they are. -/
theorem verifySourceChunks_source :
    verifySourceChunks platform hosting.manifest hosting.source (hosting.startChunkIndex range)
      (hosting.endChunkIndex range) = .ok (some (hosting.verifiedChunks range)) := by
  refine buildAndVerifyCoveringChunks_source hreadable fun i _ _ hi => ?_
  have hwhole : subarray hosting.source (0 * hosting.record.chunkSize)
      (min ((chunkCountOf hosting.source.length hosting.record.chunkSize + 1) *
        hosting.record.chunkSize) hosting.source.length) = hosting.source := by
    have hcover : ¬ chunkCountOf hosting.source.length hosting.record.chunkSize *
        hosting.record.chunkSize < hosting.source.length :=
      (lt_chunkCountOf (pos_of_allowed hosting.valid.allowed)).not.mp (Nat.lt_irrefl _)
    rw [Nat.zero_mul, Nat.min_eq_right (by rw [Nat.add_mul]; omega), subarray, List.take_length,
      List.drop_zero]
  have hslice := chunkSlice_source platform hosting.valid.allowed hosting.bounded
    (Nat.zero_le i) hi.le hi
  rwa [hwhole, Nat.zero_mul] at hslice

theorem length_verifiedChunks :
    (hosting.verifiedChunks range).length ≤ maxVerifiedChunksPerRead := by
  rw [verifiedChunks, List.length_map, List.length_range']
  exact (covering_small range.offset hosting.source.length hosting.valid.allowed hreadable.positive
    hreadable.within).2

/-- The last covering chunk reaches the end of the interval. -/
theorem le_lastChunk : range.offset + range.length ≤
    hosting.endChunkIndex range * hosting.record.chunkSize +
      chunkLengthOf hosting.source.length hosting.record.chunkSize (hosting.endChunkIndex range) := by
  have hpos := pos_of_allowed hosting.valid.allowed
  obtain ⟨-, -, hstop⟩ := covering_bounds hpos hreadable.positive hreadable.inside
  have hlast := (lt_chunkCountOf hpos).mp (endChunkIndex_lt hreadable)
  rw [Nat.succ_mul] at hstop
  rw [chunkLengthOf]
  simp only [endChunkIndex] at hlast ⊢
  omega

theorem partialReadIntegritySchema_integrity {requestedRange : RequestedRange}
    (hrequested : ∀ offset length, requestedRange = .byteRange offset length →
      range = ⟨offset, length⟩)
    (hschema : requestedRangeSchema requestedRange = true) :
    partialReadIntegritySchema (hosting.integrity requestedRange range) = .ok true := by
  obtain ⟨hle, hstart, -⟩ := covering_bounds (pos_of_allowed hosting.valid.allowed)
    hreadable.positive hreadable.inside
  have hmany := (covering_small range.offset hosting.source.length hosting.valid.allowed
    hreadable.positive hreadable.within).2
  have hsha : hex64Pattern (platform.sha256Hex (hosting.bytes range)) = true :=
    hex64Pattern_toHex (platform.sha256.length_digest _)
  exact partialReadIntegritySchema_covered platform hle (endChunkIndex_lt hreadable) hrequested
    hstart (le_lastChunk hreadable) hschema hreadable.within hmany hsha

theorem bindReturnedDataToIntegrity_integrity (requestedRange : RequestedRange) {data : Text}
    (hdata : decodeUtf8 (hosting.bytes range) = some data) :
    bindReturnedDataToIntegrity platform data (hosting.integrity requestedRange range) = true := by
  have hlength : (hosting.bytes range).length = range.length := by
    have := hreadable.inside
    rw [bytes, length_subarray]
    omega
  simp [bindReturnedDataToIntegrity, utf8Length, encodeUtf8_of_decodeUtf8 hdata, integrity,
    coveredIntegrity, hlength]

/-- The receipt of a returned interval. -/
theorem returnedRange_valid (bytes : Bytes) : returnedRangeSchema range = true ∧
    accepts sha256HexSchema (platform.sha256Hex bytes) = true := by
  have hsafe : maxRangeBytes ≤ 9007199254740991 ∧ maxCalibrationSourceBytes ≤ 9007199254740991 := by
    decide
  have hinside := hreadable.inside
  have hwithin := hreadable.within
  have hbounded := hosting.bounded
  refine ⟨?_, accepts_sha256Hex (hex64Pattern_toHex (platform.sha256.length_digest _))⟩
  simp only [returnedRangeSchema, intBetween, intFrom_of (Nat.zero_le range.offset) (by omega),
    intFrom_of (Nat.zero_le range.length) (by omega), decide_eq_true hwithin, Bool.and_self]

end Reads

/-! Range reads. -/

/-- What the wire check lets through an output schema needs of its success. -/
theorem outputSchema_of {success : InspectionOutput → Except String Bool}
    {output : InspectionOutput} (hsuccess : success output = .ok true)
    (hlimit : artifactInspectionResponseByteLength platform .null output.toValue ≤
      maxArtifactResponseBytes) : outputSchema platform success output = .ok true := by
  have hwithin : withinArtifactInspectionResponseByteLimit platform output.toValue = true :=
    decide_eq_true hlimit
  rw [outputSchema, hsuccess, ok_bind, hwithin]
  rfl

/-- Where the covering chunks of an interval stop. -/
def coveringEnd (range : ByteRange) : ℕ :=
  min ((hosting.endChunkIndex range + 1) * hosting.record.chunkSize) hosting.source.length

/-- The covering chunks of an interval. -/
def covering (range : ByteRange) : ByteRange where
  offset := hosting.startChunkIndex range * hosting.record.chunkSize
  length := hosting.coveringEnd range - hosting.startChunkIndex range * hosting.record.chunkSize

section Covering

variable {hosting} {range : ByteRange} (hreadable : hosting.Readable range)

include hreadable

/-- The covering chunks are inside the source, around the interval, and few enough to fetch. -/
theorem covering_readable : (hosting.covering range).offset ≤ range.offset ∧
    range.offset + range.length ≤ hosting.coveringEnd range ∧
    (hosting.covering range).offset + (hosting.covering range).length = hosting.coveringEnd range ∧
    hosting.coveringEnd range ≤ hosting.source.length ∧
    (hosting.covering range).length ≤ maxCoveringFetchBytes := by
  obtain ⟨-, hstart, hstop⟩ := covering_bounds (pos_of_allowed hosting.valid.allowed)
    hreadable.positive hreadable.inside
  refine ⟨hstart, hstop, ?_, Nat.min_le_right _ _, ?_⟩
  · have hle : hosting.startChunkIndex range * hosting.record.chunkSize ≤
        hosting.coveringEnd range := (hstart.trans (Nat.le_add_right _ _)).trans hstop
    exact Nat.add_sub_cancel' hle
  · exact (covering_small range.offset hosting.source.length hosting.valid.allowed
      hreadable.positive hreadable.within).1

/-- In the covering chunks the source's own are verified. -/
theorem buildAndVerifyCoveringChunks_covering :
    buildAndVerifyCoveringChunks platform hosting.manifest (hosting.startChunkIndex range)
      (hosting.endChunkIndex range) (chunkBytesAt hosting.manifest
        (subarray hosting.source (hosting.covering range).offset (hosting.coveringEnd range))
        (hosting.covering range).offset) = .ok (some (hosting.verifiedChunks range)) :=
  buildAndVerifyCoveringChunks_source hreadable fun _ hfrom hto hi =>
    chunkSlice_source platform hosting.valid.allowed hosting.bounded hfrom hto hi

/-- The interval inside its covering chunks. -/
theorem subarray_covering :
    subarray (subarray hosting.source (hosting.covering range).offset (hosting.coveringEnd range))
      (range.offset - (hosting.covering range).offset)
      (range.offset - (hosting.covering range).offset + range.length) = hosting.bytes range := by
  obtain ⟨hbefore, hbehind, -⟩ := covering_readable hreadable
  rw [subarray_subarray _ (by omega), ← Nat.add_assoc, Nat.add_sub_cancel' hbefore]
  rfl

end Covering

/-- A range read that decodes fetches its covering chunks and returns its text. -/
theorem settles_artifactReadRange {rawInput : Value} {input : ArtifactReadRangeInput}
    (hinput : artifactReadRangeInputSchema rawInput = some input)
    (hid : input.artifactId = hosting.artifactId)
    (hinside : input.offset + input.length ≤ hosting.source.length) {data : Text}
    (hdata : decodeUtf8 (hosting.bytes (requestedRange input)) = some data) :
    hosting.Settles (artifactReadRange platform hosting.context rawInput)
      [hosting.covering (requestedRange input)]
      (limited platform (.readRange data (hosting.integrity (.byteRange input.offset input.length)
        (requestedRange input)))) := by
  obtain ⟨hpositive, hwithin⟩ := artifactReadRangeInputSchema_eq_some hinput
  have hreadable : hosting.Readable (requestedRange input) := ⟨hpositive, hwithin, hinside⟩
  have hlength : hosting.options.record.byteLength = hosting.source.length :=
    hosting.byteLength_record
  have hsize : hosting.options.record.chunkSize = hosting.record.chunkSize := rfl
  have hrange : ⟨input.offset, input.length⟩ = requestedRange input := rfl
  have hstart : input.offset / hosting.record.chunkSize =
      hosting.startChunkIndex (requestedRange input) := rfl
  have hend : (input.offset + input.length - 1) / hosting.record.chunkSize =
      hosting.endChunkIndex (requestedRange input) := rfl
  have hoffset : hosting.startChunkIndex (requestedRange input) * hosting.record.chunkSize =
      (hosting.covering (requestedRange input)).offset := rfl
  have hcoveringEnd : min ((hosting.endChunkIndex (requestedRange input) + 1) *
      hosting.record.chunkSize) hosting.source.length =
        hosting.coveringEnd (requestedRange input) := rfl
  have hcovering : hosting.coveringEnd (requestedRange input) -
      (hosting.covering (requestedRange input)).offset =
        (hosting.covering (requestedRange input)).length := rfl
  obtain ⟨-, -, hsum, hle, hfetch⟩ := covering_readable hreadable
  have hslice : subarray (subarray hosting.source (hosting.covering (requestedRange input)).offset
      (hosting.coveringEnd (requestedRange input)))
      (input.offset - (hosting.covering (requestedRange input)).offset)
      (input.offset - (hosting.covering (requestedRange input)).offset + input.length) =
        hosting.bytes (requestedRange input) := subarray_covering hreadable
  have hcandidate : readIntegrity hosting.options.record (.byteRange input.offset input.length)
      (hosting.startChunkIndex (requestedRange input)) (hosting.endChunkIndex (requestedRange input))
      (requestedRange input) (hosting.verifiedChunks (requestedRange input))
      (platform.sha256Hex (hosting.bytes (requestedRange input))) =
        hosting.integrity (.byteRange input.offset input.length) (requestedRange input) :=
    hosting.readIntegrity_record _ _
  have hschema : requestedRangeSchema (.byteRange input.offset input.length) = true := by
    have hsafe : maxArtifactByteOffset ≤ 9007199254740991 ∧ maxRangeBytes ≤ 9007199254740991 ∧
        maxCalibrationSourceBytes ≤ maxArtifactByteOffset := by
      decide
    have hbounded := hosting.bounded
    simp only [requestedRangeSchema, intBetween, intFrom_of (Nat.zero_le input.offset) (by omega),
      intFrom_of (show 1 ≤ input.length from hpositive) (by omega), decide_eq_true hwithin,
      decide_eq_true (show input.offset ≤ maxArtifactByteOffset by omega), Bool.and_self]
  rw [artifactReadRange, hinput]
  refine hosting.settles_openInspection hid fun call => ?_
  simp only [artifactReadRangeBody, hlength, hsize, hstart, hend, hoffset, hcoveringEnd, hcovering,
    hrange]
  rw [if_neg (by simp; omega), if_neg (Nat.not_lt.mpr hfetch)]
  refine hosting.settles_readBytes (hsum.trans_le hle) ?_
  rw [hsum, buildAndVerifyCoveringChunks_covering hreadable]
  simp only [finishReadRange]
  rw [if_neg (Nat.not_lt.mpr (length_verifiedChunks hreadable)), hslice, hdata]
  simp only [hrange, hcandidate]
  refine hosting.settles_candidate (hosting.settles_failClosed _ _ _ _ _) (fun hlimit => ?_) ?_
  · refine outputSchema_of ?_ hlimit
    have hrequested : ∀ offset length, RequestedRange.byteRange input.offset input.length =
        .byteRange offset length → requestedRange input = ⟨offset, length⟩ := by
      rintro offset length ⟨⟩
      rfl
    rw [artifactReadRangeSuccessSchema, partialReadIntegritySchema_integrity hreadable hrequested
      hschema, ok_bind, bindReturnedDataToIntegrity_integrity hreadable _ hdata]
    rfl
  · obtain ⟨hreturned, hsha⟩ := returnedRange_valid hreadable (hosting.bytes (requestedRange input))
    rw [requestedRangeSchema] at hschema
    simp only [receiptOperationDetailSchema, hreturned, hsha, Bool.and_true]
    exact hschema

end Hosting

end Inspector
