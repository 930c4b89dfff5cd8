import SupabaseUserMcp.Js.Reading
import SupabaseUserMcp.ReceiptJournal

/- `ArtifactInspectionReceiptSchema` on a value of unknown type. It accepts what is
   the same JSON as a receipt that passes the conditions on its fields, and returns
   that receipt. -/
namespace ReceiptJournal.Reading

open Js Inspection
open Js.Value (SameJson field)
open Js.Schema (Reads Textual)

/-! The schemas. -/

def artifactInspectionErrorCodeSchema : Schema ArtifactInspectionErrorCode :=
  Schema.enum ([ArtifactInspectionErrorCode.invalidRequest, .resourceUnavailable, .unsupported,
    .responseLimitExceeded, .integrityFailure, .deadlineExceeded, .internalError].map
      fun code => (code.name, code))

def receiptResultSchema : Schema ReceiptResultOrError :=
  Schema.strictObject [text "kind"] fun field => do
    let _ ← Schema.literal (text "result") (field (text "kind"))
    some .result

def receiptErrorSchema : Schema ReceiptResultOrError :=
  Schema.strictObject [text "kind", text "errorClass"] fun field => do
    let _ ← Schema.literal (text "error") (field (text "kind"))
    some (.error (← artifactInspectionErrorCodeSchema (field (text "errorClass"))))

def receiptResultOrErrorSchema : Schema ReceiptResultOrError :=
  Schema.discriminatedUnion (text "kind")
    [(text "result", receiptResultSchema), (text "error", receiptErrorSchema)]

/-- `InspectorCapabilityRefSchema`: the reference, next to a fixed capability. -/
def inspectorCapabilityRefSchema : Schema Text :=
  Schema.strictObject [text "capability", text "ref"] fun field => do
    let _ ← Schema.literal (text "artifact:inspect") (field (text "capability"))
    authorizationIdentifierSchema (field (text "ref"))

def receiptAnalyzerProfileSchema : Schema Text := Schema.string.refine isAnalyzerProfileSupport

def returnedRangeSchema : Schema ByteRange :=
  Schema.strictObject [text "offset", text "length"] fun field => do
    some ⟨← Schema.nat 0 (field (text "offset")),
      ← Schema.natBetween 0 maxRangeBytes (field (text "length"))⟩

def requestedRangeSchema : Schema ByteRange :=
  Schema.strictObject [text "offset", text "length"] fun field => do
    some ⟨← Schema.natBetween 0 maxArtifactByteOffset (field (text "offset")),
      ← Schema.natBetween 1 maxRangeBytes (field (text "length"))⟩

def requestedLineRangeSchema : Schema RequestedLineRange :=
  Schema.strictObject [text "startLine", text "count"] fun field => do
    some ⟨← Schema.natBetween 1 maxStartLine (field (text "startLine")),
      ← Schema.natBetween 1 maxLineCount (field (text "count"))⟩

def receiptStatDetailSchema : Schema ReceiptOperationDetail :=
  Schema.strictObject [text "operation"] fun field => do
    let _ ← Schema.literal (text "artifact_stat") (field (text "operation"))
    some .artifactStat

def receiptRangeDetailSchema : Schema ReceiptOperationDetail :=
  Schema.strictObject [text "operation", text "requestedRange", text "returnedRange",
      text "returnedByteSha256"] fun field => do
    let _ ← Schema.literal (text "artifact_read_range") (field (text "operation"))
    some (.artifactReadRange (← requestedRangeSchema (field (text "requestedRange")))
      (← returnedRangeSchema (field (text "returnedRange")))
      (← sha256HexSchema (field (text "returnedByteSha256"))))

def receiptLinesDetailSchema : Schema ReceiptOperationDetail :=
  Schema.strictObject [text "operation", text "requestedLineRange", text "returnedRange",
      text "returnedByteSha256"] fun field => do
    let _ ← Schema.literal (text "artifact_read_lines") (field (text "operation"))
    some (.artifactReadLines (← requestedLineRangeSchema (field (text "requestedLineRange")))
      (← returnedRangeSchema (field (text "returnedRange")))
      (← sha256HexSchema (field (text "returnedByteSha256"))))

def receiptHeadingDetailSchema : Schema ReceiptOperationDetail :=
  Schema.strictObject [text "operation", text "requestedHeadingId", text "returnedRange",
      text "returnedByteSha256"] fun field => do
    let _ ← Schema.literal (text "artifact_read_heading") (field (text "operation"))
    some (.artifactReadHeading (← headingIdSchema (field (text "requestedHeadingId")))
      (← returnedRangeSchema (field (text "returnedRange")))
      (← sha256HexSchema (field (text "returnedByteSha256"))))

def receiptSearchHitDetailSchema : Schema ReceiptSearchHitDetail :=
  Schema.strictObject [text "returnedRange", text "returnedByteSha256"] fun field => do
    some ⟨← returnedRangeSchema (field (text "returnedRange")),
      ← sha256HexSchema (field (text "returnedByteSha256"))⟩

/-- The conditions between the fields of a search: no hit is empty, and the set of their
ranges is as large as the list. -/
def receiptSearchRefine : ReceiptOperationDetail → Bool
  | .artifactSearchExact _ _ returnedHits =>
    returnedHits.all (fun hit => 1 ≤ hit.returnedRange.length) &&
    decide (returnedHits.map ReceiptSearchHitDetail.returnedRange).Nodup
  | _ => false

def receiptSearchDetailSchema : Schema ReceiptOperationDetail :=
  (Schema.strictObject [text "operation", text "queryLength", text "maxHits", text "returnedHits"]
    fun field => do
      let _ ← Schema.literal (text "artifact_search_exact") (field (text "operation"))
      some (.artifactSearchExact
        (← Schema.natBetween 1 maxSearchQueryLength (field (text "queryLength")))
        (← Schema.natBetween 1 maxSearchHits (field (text "maxHits")))
        (← Schema.arrayMax maxSearchHits receiptSearchHitDetailSchema
          (field (text "returnedHits"))))).refine receiptSearchRefine

def receiptOperationDetailSchema : Schema ReceiptOperationDetail :=
  Schema.discriminatedUnion (text "operation")
    [(text "artifact_stat", receiptStatDetailSchema),
      (text "artifact_read_range", receiptRangeDetailSchema),
      (text "artifact_read_lines", receiptLinesDetailSchema),
      (text "artifact_read_heading", receiptHeadingDetailSchema),
      (text "artifact_search_exact", receiptSearchDetailSchema)]

def artifactInspectionReceiptSchema : Schema ArtifactInspectionReceipt :=
  Schema.strictObject [text "receiptSchemaVersion", text "verifierAudience", text "principalRef",
      text "principalBinding", text "inspectorClientRef", text "inspectorClientBinding",
      text "inspectorCapabilityRef", text "artifactId", text "objectVersionRef",
      text "sourceSha256", text "merkleRoot", text "analyzerProfileId",
      text "analyzerProfileVersion", text "policyVersion",
      text "inspectorDeploymentGitCoordinate", text "recordedAt", text "operationDetail",
      text "resultOrErrorClass"] fun field => do
    let _ ← Schema.literal artifactInspectionReceiptSchemaVersion
      (field (text "receiptSchemaVersion"))
    let _ ← Schema.literal (text "session_derived") (field (text "principalBinding"))
    let _ ← Schema.literal (text "approved") (field (text "inspectorClientBinding"))
    some {
      verifierAudience := ← authorizationIdentifierSchema (field (text "verifierAudience"))
      principalRef := ← authorizationIdentifierSchema (field (text "principalRef"))
      inspectorClientRef := ← authorizationIdentifierSchema (field (text "inspectorClientRef"))
      inspectorCapabilityRef := ← inspectorCapabilityRefSchema
        (field (text "inspectorCapabilityRef"))
      artifactId := ← artifactIdSchema (field (text "artifactId"))
      objectVersionRef := ← opaqueObjectVersionRefSchema (field (text "objectVersionRef"))
      sourceSha256 := ← sha256HexSchema (field (text "sourceSha256"))
      merkleRoot := ← sha256HexSchema (field (text "merkleRoot"))
      analyzerProfileId := ← receiptAnalyzerProfileSchema (field (text "analyzerProfileId"))
      analyzerProfileVersion := ← boundedVersionStringSchema
        (field (text "analyzerProfileVersion"))
      policyVersion := ← boundedVersionStringSchema (field (text "policyVersion"))
      inspectorDeploymentGitCoordinate := ← gitCommitCoordinateSchema
        (field (text "inspectorDeploymentGitCoordinate"))
      recordedAt := ← isoDatetimeSchema (field (text "recordedAt"))
      operationDetail := ← receiptOperationDetailSchema (field (text "operationDetail"))
      resultOrErrorClass := ← receiptResultOrErrorSchema (field (text "resultOrErrorClass")) }

/-! What they read. -/

/-- A text that a schema of fields reads. -/
theorem accepts_iff {schema : Schema Text} (h : Textual schema) :
    Reads schema Value.string (fun s => accepts schema s = true) := fun _ _ => h.eq_some_iff

theorem textual_opaqueRef (start : String) (lo hi : ℕ) : Textual (opaqueRef start lo hi) :=
  (Schema.textual_string.lengthBetween lo hi).refine _

theorem textual_sha256Hex : Textual sha256HexSchema := Schema.textual_string.refine _

theorem textual_authorizationIdentifier : Textual authorizationIdentifierSchema :=
  (Schema.textual_string.lengthBetween 1 128).refine _

theorem textual_boundedVersionString : Textual boundedVersionStringSchema :=
  (Schema.textual_string.lengthBetween 1 64).refine _

theorem textual_headingId : Textual headingIdSchema :=
  (Schema.textual_string.lengthBetween 1 maxHeadingIdLength).refine _

theorem reads_nat (lo : ℕ) : Reads (Schema.nat lo) natValue (fun n => intFrom lo n = true) := by
  intro v n
  rw [Schema.nat_eq_some_iff]
  simp only [intFrom, Bool.and_eq_true, decide_eq_true_eq]
  rfl

theorem reads_natBetween (lo hi : ℕ) :
    Reads (Schema.natBetween lo hi) natValue (fun n => intBetween lo hi n = true) := by
  intro v n
  simp only [intBetween, Bool.and_eq_true]
  exact (reads_nat lo).refine _ v n

theorem reads_returnedRange : Reads returnedRangeSchema ByteRange.toValue
    (fun range => Inspection.returnedRangeSchema range = true) := by
  refine Schema.reads_strictObject (by decide) (fun _ _ => rfl) ?_
  intro ps range
  obtain ⟨offset, length⟩ := range
  simp only [Option.bind_eq_bind, Option.bind_eq_some_iff, Option.some.injEq, ByteRange.mk.injEq,
    existsAndEq, reads_nat _ _ _, reads_natBetween _ _ _ _, List.forall_mem_cons, List.not_mem_nil,
    property, Inspection.returnedRangeSchema, Bool.and_eq_true, false_imp_iff, implies_true, and_true]
  grind

theorem reads_requestedRange : Reads requestedRangeSchema ByteRange.toValue
    (fun range => intBetween 0 maxArtifactByteOffset range.offset = true ∧
      intBetween 1 maxRangeBytes range.length = true) := by
  refine Schema.reads_strictObject (by decide) (fun _ _ => rfl) ?_
  intro ps range
  obtain ⟨offset, length⟩ := range
  simp only [Option.bind_eq_bind, Option.bind_eq_some_iff, Option.some.injEq, ByteRange.mk.injEq,
    existsAndEq, reads_natBetween _ _ _ _, List.forall_mem_cons, List.not_mem_nil, property,
    false_imp_iff, implies_true, and_true]
  grind

/-- The lines a read asks for, as an object. -/
def requestedLineRangeValue (range : RequestedLineRange) : Value :=
  .object [property "startLine" (natValue range.startLine), property "count" (natValue range.count)]

theorem reads_requestedLineRange : Reads requestedLineRangeSchema requestedLineRangeValue
    (fun range => intBetween 1 maxStartLine range.startLine = true ∧
      intBetween 1 maxLineCount range.count = true) := by
  refine Schema.reads_strictObject (by decide) (fun _ _ => rfl) ?_
  intro ps range
  obtain ⟨startLine, count⟩ := range
  simp only [Option.bind_eq_bind, Option.bind_eq_some_iff, Option.some.injEq,
    RequestedLineRange.mk.injEq, existsAndEq, reads_natBetween _ _ _ _, List.forall_mem_cons,
    List.not_mem_nil, property, false_imp_iff, implies_true, and_true]
  grind

theorem reads_searchHit : Reads receiptSearchHitDetailSchema ReceiptSearchHitDetail.toValue
    (fun hit => Inspection.receiptSearchHitDetailSchema hit = true) := by
  refine Schema.reads_strictObject (by decide) (fun _ _ => rfl) ?_
  intro ps hit
  obtain ⟨returnedRange, returnedByteSha256⟩ := hit
  simp only [Option.bind_eq_bind, Option.bind_eq_some_iff, Option.some.injEq,
    ReceiptSearchHitDetail.mk.injEq, existsAndEq, reads_returnedRange _ _,
    accepts_iff textual_sha256Hex _ _, List.forall_mem_cons, List.not_mem_nil, property,
    Inspection.receiptSearchHitDetailSchema, Bool.and_eq_true, false_imp_iff, implies_true, and_true]
  grind

theorem reads_errorCode : Reads artifactInspectionErrorCodeSchema
    (fun code => .string code.name) (fun _ => True) := by
  intro v code
  rw [Value.sameJson_string_iff, and_true]
  constructor
  · intro h
    cases v with
    | string s =>
      obtain ⟨alternative, hfind, hcode⟩ := Option.map_eq_some_iff.mp h
      have hname := List.find?_some hfind
      obtain ⟨known, _, hknown⟩ := List.mem_map.mp (List.mem_of_find?_eq_some hfind)
      subst hknown hcode
      rw [beq_iff_eq] at hname
      rw [← hname]
    | _ => cases h
  · rintro rfl
    cases code <;> decide

/-! Discriminated unions. -/

/-- The properties of an object. -/
def fieldsOf : Value → List (Text × Value)
  | .object fields => fields
  | _ => []

/-- The properties of an operation's detail. -/
def detailFields (detail : ReceiptOperationDetail) : List (Text × Value) :=
  fieldsOf (ReceiptOperationDetail.toValue detail)

theorem toValue_detail (detail : ReceiptOperationDetail) :
    ReceiptOperationDetail.toValue detail = .object (detailFields detail) := by
  cases detail <;> rfl

theorem nodup_detailFields (detail : ReceiptOperationDetail) :
    ((detailFields detail).map Prod.fst).Nodup := by
  cases detail <;>
    simp only [detailFields, fieldsOf, ReceiptOperationDetail.toValue, operationProperty, property,
      List.map_cons, List.map_nil] <;>
    decide

def operationOf : ReceiptOperationDetail → ArtifactInspectionOperation
  | .artifactStat => .artifactStat
  | .artifactReadRange .. => .artifactReadRange
  | .artifactReadLines .. => .artifactReadLines
  | .artifactReadHeading .. => .artifactReadHeading
  | .artifactSearchExact .. => .artifactSearchExact

/-- One option reads the details of its operation. -/
def ReadsDetail (schema : Schema ReceiptOperationDetail)
    (operation : ArtifactInspectionOperation) : Prop :=
  Reads schema (fun detail => .object (detailFields detail)) (fun detail =>
    operationOf detail = operation ∧ Inspection.receiptOperationDetailSchema detail = true)

theorem readsDetail_stat : ReadsDetail receiptStatDetailSchema .artifactStat := by
  refine Schema.reads_strictObject (by decide) ?_ ?_
  · rintro detail ⟨hoperation, _⟩
    cases detail <;> cases hoperation
    rfl
  · intro ps detail
    cases detail with
    | artifactStat =>
      simp only [Option.bind_eq_bind, Option.bind_eq_some_iff, Schema.literal_eq_some_iff,
        detailFields, fieldsOf, ReceiptOperationDetail.toValue, operationProperty, property,
        ArtifactInspectionOperation.name, List.forall_mem_cons, List.not_mem_nil, false_imp_iff,
        implies_true, and_true, operationOf, Inspection.receiptOperationDetailSchema, exists_const]
    | _ => simp only [Option.bind_eq_bind, Option.bind_eq_some_iff, Option.some.injEq, operationOf,
        reduceCtorEq, and_false, false_and, exists_false]

theorem readsDetail_range : ReadsDetail receiptRangeDetailSchema .artifactReadRange := by
  refine Schema.reads_strictObject (by decide) ?_ ?_
  · rintro detail ⟨hoperation, _⟩
    cases detail <;> cases hoperation
    rfl
  · intro ps detail
    cases detail with
    | artifactReadRange requestedRange returnedRange returnedByteSha256 =>
      simp only [Option.bind_eq_bind, Option.bind_eq_some_iff, Schema.literal_eq_some_iff,
        Option.some.injEq, ReceiptOperationDetail.artifactReadRange.injEq, existsAndEq,
        reads_requestedRange _ _, reads_returnedRange _ _, accepts_iff textual_sha256Hex _ _,
        detailFields, fieldsOf, ReceiptOperationDetail.toValue, operationProperty, property,
        ArtifactInspectionOperation.name, List.forall_mem_cons, List.not_mem_nil, false_imp_iff,
        implies_true, and_true, true_and, operationOf, Inspection.receiptOperationDetailSchema,
        Bool.and_eq_true, exists_const]
      grind
    | _ => simp only [Option.bind_eq_bind, Option.bind_eq_some_iff, Option.some.injEq, operationOf,
        reduceCtorEq, and_false, false_and, exists_false]

theorem readsDetail_lines : ReadsDetail receiptLinesDetailSchema .artifactReadLines := by
  refine Schema.reads_strictObject (by decide) ?_ ?_
  · rintro detail ⟨hoperation, _⟩
    cases detail <;> cases hoperation
    rfl
  · intro ps detail
    cases detail with
    | artifactReadLines requestedLineRange returnedRange returnedByteSha256 =>
      simp only [Option.bind_eq_bind, Option.bind_eq_some_iff, Schema.literal_eq_some_iff,
        Option.some.injEq, ReceiptOperationDetail.artifactReadLines.injEq, existsAndEq,
        reads_requestedLineRange _ _, reads_returnedRange _ _, accepts_iff textual_sha256Hex _ _,
        requestedLineRangeValue, detailFields, fieldsOf, ReceiptOperationDetail.toValue, operationProperty,
        property, ArtifactInspectionOperation.name, List.forall_mem_cons, List.not_mem_nil,
        false_imp_iff, implies_true, and_true, true_and, operationOf,
        Inspection.receiptOperationDetailSchema, Bool.and_eq_true, exists_const]
      grind
    | _ => simp only [Option.bind_eq_bind, Option.bind_eq_some_iff, Option.some.injEq, operationOf,
        reduceCtorEq, and_false, false_and, exists_false]

theorem readsDetail_heading : ReadsDetail receiptHeadingDetailSchema .artifactReadHeading := by
  refine Schema.reads_strictObject (by decide) ?_ ?_
  · rintro detail ⟨hoperation, _⟩
    cases detail <;> cases hoperation
    rfl
  · intro ps detail
    cases detail with
    | artifactReadHeading requestedHeadingId returnedRange returnedByteSha256 =>
      simp only [Option.bind_eq_bind, Option.bind_eq_some_iff, Schema.literal_eq_some_iff,
        Option.some.injEq, ReceiptOperationDetail.artifactReadHeading.injEq, existsAndEq,
        accepts_iff textual_headingId _ _, reads_returnedRange _ _,
        accepts_iff textual_sha256Hex _ _, detailFields, fieldsOf, ReceiptOperationDetail.toValue,
        operationProperty, property, ArtifactInspectionOperation.name, List.forall_mem_cons,
        List.not_mem_nil, false_imp_iff, implies_true, and_true, true_and, operationOf,
        Inspection.receiptOperationDetailSchema, Bool.and_eq_true, exists_const]
      grind
    | _ => simp only [Option.bind_eq_bind, Option.bind_eq_some_iff, Option.some.injEq, operationOf,
        reduceCtorEq, and_false, false_and, exists_false]

theorem reads_hits : Reads (Schema.arrayMax maxSearchHits receiptSearchHitDetailSchema)
    (fun hits => .array (hits.map ReceiptSearchHitDetail.toValue))
    (fun hits => (∀ hit ∈ hits, Inspection.receiptSearchHitDetailSchema hit = true) ∧
      hits.length ≤ maxSearchHits) := by
  intro v hits
  rw [Schema.arrayMax, reads_searchHit.array.refine _ v hits]
  simp only [decide_eq_true_eq]

theorem readsDetail_search : ReadsDetail receiptSearchDetailSchema .artifactSearchExact := by
  have hfields : Reads (Schema.strictObject [text "operation", text "queryLength", text "maxHits",
      text "returnedHits"] fun field => do
        let _ ← Schema.literal (text "artifact_search_exact") (field (text "operation"))
        some (ReceiptOperationDetail.artifactSearchExact
          (← Schema.natBetween 1 maxSearchQueryLength (field (text "queryLength")))
          (← Schema.natBetween 1 maxSearchHits (field (text "maxHits")))
          (← Schema.arrayMax maxSearchHits receiptSearchHitDetailSchema
            (field (text "returnedHits")))))
      (fun detail => .object (detailFields detail)) (fun detail =>
        ∃ queryLength maxHits returnedHits,
          detail = .artifactSearchExact queryLength maxHits returnedHits ∧
          intBetween 1 maxSearchQueryLength queryLength = true ∧
          intBetween 1 maxSearchHits maxHits = true ∧
          (∀ hit ∈ returnedHits, Inspection.receiptSearchHitDetailSchema hit = true) ∧
          returnedHits.length ≤ maxSearchHits) := by
    refine Schema.reads_strictObject (by decide) ?_ ?_
    · rintro _ ⟨_, _, _, rfl, _⟩
      rfl
    · intro ps detail
      cases detail with
      | artifactSearchExact queryLength maxHits returnedHits =>
        simp only [Option.bind_eq_bind, Option.bind_eq_some_iff, Schema.literal_eq_some_iff,
          Option.some.injEq, ReceiptOperationDetail.artifactSearchExact.injEq, existsAndEq,
          reads_natBetween _ _ _ _, reads_hits _ _, detailFields, fieldsOf, ReceiptOperationDetail.toValue,
          operationProperty, property, ArtifactInspectionOperation.name, List.forall_mem_cons,
          List.not_mem_nil, false_imp_iff, implies_true, and_true, true_and, exists_const]
        grind
      | _ => simp only [Option.bind_eq_bind, Option.bind_eq_some_iff, Option.some.injEq,
          reduceCtorEq, and_false, false_and, exists_false]
  intro v detail
  rw [receiptSearchDetailSchema, hfields.refine _ v detail]
  refine and_congr_right fun _ => ?_
  cases detail with
  | artifactSearchExact queryLength maxHits returnedHits =>
    simp only [receiptSearchRefine, operationOf, Inspection.receiptOperationDetailSchema,
      ReceiptOperationDetail.artifactSearchExact.injEq, existsAndEq, Bool.and_eq_true,
      List.all_eq_true, decide_eq_true_eq, true_and]
    grind
  | _ => simp only [operationOf, reduceCtorEq, false_and, exists_false]

/-- The detail of an operation is read by the option its operation names. -/
theorem reads_operationDetail : Reads receiptOperationDetailSchema ReceiptOperationDetail.toValue
    (fun detail => Inspection.receiptOperationDetailSchema detail = true) := by
  intro v detail
  rw [toValue_detail]
  constructor
  · intro h
    obtain ⟨option, hoption, hread⟩ := Schema.exists_of_discriminatedUnion h
    simp only [List.mem_cons, List.not_mem_nil, or_false] at hoption
    rcases hoption with rfl | rfl | rfl | rfl | rfl
    · exact ((readsDetail_stat v detail).mp hread).imp_right And.right
    · exact ((readsDetail_range v detail).mp hread).imp_right And.right
    · exact ((readsDetail_lines v detail).mp hread).imp_right And.right
    · exact ((readsDetail_heading v detail).mp hread).imp_right And.right
    · exact ((readsDetail_search v detail).mp hread).imp_right And.right
  · rintro ⟨hsame, hvalid⟩
    cases hdetail : detail with
    | artifactStat =>
      subst hdetail
      rw [receiptOperationDetailSchema, Schema.discriminatedUnion_of_sameJson (nodup_detailFields _)
        List.mem_cons_self hsame rfl]
      exact (readsDetail_stat v _).mpr ⟨hsame, rfl, hvalid⟩
    | artifactReadRange requestedRange returnedRange returnedByteSha256 =>
      subst hdetail
      rw [receiptOperationDetailSchema, Schema.discriminatedUnion_of_sameJson (nodup_detailFields _)
        List.mem_cons_self hsame rfl]
      exact (readsDetail_range v _).mpr ⟨hsame, rfl, hvalid⟩
    | artifactReadLines requestedLineRange returnedRange returnedByteSha256 =>
      subst hdetail
      rw [receiptOperationDetailSchema, Schema.discriminatedUnion_of_sameJson (nodup_detailFields _)
        List.mem_cons_self hsame rfl]
      exact (readsDetail_lines v _).mpr ⟨hsame, rfl, hvalid⟩
    | artifactReadHeading requestedHeadingId returnedRange returnedByteSha256 =>
      subst hdetail
      rw [receiptOperationDetailSchema, Schema.discriminatedUnion_of_sameJson (nodup_detailFields _)
        List.mem_cons_self hsame rfl]
      exact (readsDetail_heading v _).mpr ⟨hsame, rfl, hvalid⟩
    | artifactSearchExact queryLength maxHits returnedHits =>
      subst hdetail
      rw [receiptOperationDetailSchema, Schema.discriminatedUnion_of_sameJson (nodup_detailFields _)
        List.mem_cons_self hsame rfl]
      exact (readsDetail_search v _).mpr ⟨hsame, rfl, hvalid⟩

/-- The properties of a result or an error. -/
def outcomeFields (outcome : ReceiptResultOrError) : List (Text × Value) :=
  fieldsOf (ReceiptResultOrError.toValue outcome)

theorem toValue_outcome (outcome : ReceiptResultOrError) :
    ReceiptResultOrError.toValue outcome = .object (outcomeFields outcome) := by
  cases outcome <;> rfl

theorem reads_result : Reads receiptResultSchema (fun outcome => .object (outcomeFields outcome))
    (fun outcome => outcome = .result) := by
  refine Schema.reads_strictObject (by decide) ?_ ?_
  · rintro _ rfl
    rfl
  · intro ps outcome
    cases outcome with
    | result =>
      simp only [Option.bind_eq_bind, Option.bind_eq_some_iff, Schema.literal_eq_some_iff,
        outcomeFields, fieldsOf, ReceiptResultOrError.toValue, property, List.forall_mem_cons,
        List.not_mem_nil, false_imp_iff, implies_true, and_true, exists_const]
    | error _ => simp only [Option.bind_eq_bind, Option.bind_eq_some_iff, Option.some.injEq,
        reduceCtorEq, and_false, exists_false]

theorem reads_error : Reads receiptErrorSchema (fun outcome => .object (outcomeFields outcome))
    (fun outcome => outcome ≠ .result) := by
  refine Schema.reads_strictObject (by decide) ?_ ?_
  · intro outcome h
    cases outcome with
    | result => exact absurd rfl h
    | error _ => rfl
  · intro ps outcome
    cases outcome with
    | result => simp only [Option.bind_eq_bind, Option.bind_eq_some_iff, Option.some.injEq,
        reduceCtorEq, and_false, exists_false, ne_eq, not_true_eq_false]
    | error errorClass =>
      simp only [Option.bind_eq_bind, Option.bind_eq_some_iff, Schema.literal_eq_some_iff,
        Option.some.injEq, ReceiptResultOrError.error.injEq, existsAndEq, reads_errorCode _ _,
        outcomeFields, fieldsOf, ReceiptResultOrError.toValue, property, List.forall_mem_cons,
        List.not_mem_nil, false_imp_iff, implies_true, and_true, exists_const, ne_eq, reduceCtorEq,
        not_false_eq_true]

theorem reads_resultOrError :
    Reads receiptResultOrErrorSchema ReceiptResultOrError.toValue (fun _ => True) := by
  intro v outcome
  rw [toValue_outcome, and_true]
  constructor
  · intro h
    obtain ⟨option, hoption, hread⟩ := Schema.exists_of_discriminatedUnion h
    simp only [List.mem_cons, List.not_mem_nil, or_false] at hoption
    rcases hoption with rfl | rfl
    · exact ((reads_result v outcome).mp hread).1
    · exact ((reads_error v outcome).mp hread).1
  · intro hsame
    have hnodup : ((outcomeFields outcome).map Prod.fst).Nodup := by
      cases outcome <;>
        simp only [outcomeFields, fieldsOf, ReceiptResultOrError.toValue, property, List.map_cons,
          List.map_nil] <;>
        decide
    cases outcome with
    | result =>
      rw [receiptResultOrErrorSchema, Schema.discriminatedUnion_of_sameJson hnodup
        List.mem_cons_self hsame rfl]
      exact (reads_result v _).mpr ⟨hsame, rfl⟩
    | error errorClass =>
      rw [receiptResultOrErrorSchema, Schema.discriminatedUnion_of_sameJson hnodup
        List.mem_cons_self hsame rfl]
      exact (reads_error v _).mpr ⟨hsame, by simp⟩

theorem reads_inspectorCapabilityRef : Reads inspectorCapabilityRefSchema
    (fun ref => .object [property "capability" (.string (text "artifact:inspect")),
      property "ref" (.string ref)])
    (fun ref => accepts authorizationIdentifierSchema ref = true) := by
  refine Schema.reads_strictObject (by decide) (fun _ _ => rfl) ?_
  intro ps ref
  simp only [Option.bind_eq_bind, Option.bind_eq_some_iff, Schema.literal_eq_some_iff,
    accepts_iff textual_authorizationIdentifier _ _, property, List.forall_mem_cons, List.not_mem_nil, false_imp_iff,
    implies_true, and_true, exists_const]
  grind

/-! Receipts. -/

theorem reads_analyzerProfile : Reads receiptAnalyzerProfileSchema Value.string
    (fun s => isAnalyzerProfileSupport s = true) := by
  intro v s
  rw [receiptAnalyzerProfileSchema, Schema.refine_eq_some, Schema.string_eq_some,
    Value.sameJson_string_iff]

/-- The schema reads the receipts that pass the conditions on their fields. -/
theorem reads_receipt : Reads artifactInspectionReceiptSchema ArtifactInspectionReceipt.toValue
    (fun receipt => Inspection.artifactInspectionReceiptSchema receipt = true) := by
  have hidentifier := accepts_iff textual_authorizationIdentifier
  have hartifactId := accepts_iff (textual_opaqueRef "art_" minArtifactIdLength maxArtifactIdLength)
  have hversionRef := accepts_iff (textual_opaqueRef "ov_" 20 256)
  have hdigest := accepts_iff textual_sha256Hex
  have hversion := accepts_iff textual_boundedVersionString
  have hcoordinate := accepts_iff (Schema.textual_string.refine (isLowerHex 40))
  have hdatetime := accepts_iff (Schema.textual_string.refine isoDatetime)
  refine Schema.reads_strictObject (by decide) (fun _ _ => rfl) ?_
  intro ps receipt
  simp only [property, List.forall_mem_cons, List.not_mem_nil, false_imp_iff, implies_true,
    and_true, Inspection.artifactInspectionReceiptSchema, Bool.and_eq_true, and_assoc]
  constructor
  · intro h
    obtain ⟨_, schema, h⟩ := Option.bind_eq_some_iff.mp h
    obtain ⟨_, session, h⟩ := Option.bind_eq_some_iff.mp h
    obtain ⟨_, approved, h⟩ := Option.bind_eq_some_iff.mp h
    obtain ⟨_, audience, h⟩ := hidentifier.bind_eq_some_iff.mp h
    obtain ⟨_, principal, h⟩ := hidentifier.bind_eq_some_iff.mp h
    obtain ⟨_, client, h⟩ := hidentifier.bind_eq_some_iff.mp h
    obtain ⟨_, capability, h⟩ := reads_inspectorCapabilityRef.bind_eq_some_iff.mp h
    obtain ⟨_, artifact, h⟩ := hartifactId.bind_eq_some_iff.mp h
    obtain ⟨_, object, h⟩ := hversionRef.bind_eq_some_iff.mp h
    obtain ⟨_, source, h⟩ := hdigest.bind_eq_some_iff.mp h
    obtain ⟨_, root, h⟩ := hdigest.bind_eq_some_iff.mp h
    obtain ⟨_, profile, h⟩ := reads_analyzerProfile.bind_eq_some_iff.mp h
    obtain ⟨_, profileVersion, h⟩ := hversion.bind_eq_some_iff.mp h
    obtain ⟨_, policy, h⟩ := hversion.bind_eq_some_iff.mp h
    obtain ⟨_, deployment, h⟩ := hcoordinate.bind_eq_some_iff.mp h
    obtain ⟨_, recorded, h⟩ := hdatetime.bind_eq_some_iff.mp h
    obtain ⟨_, detail, h⟩ := reads_operationDetail.bind_eq_some_iff.mp h
    obtain ⟨_, outcome, h⟩ := reads_resultOrError.bind_eq_some_iff.mp h
    cases h
    exact ⟨Schema.literal_eq_some_iff.mp schema, audience.1, principal.1,
      Schema.literal_eq_some_iff.mp session, client.1, Schema.literal_eq_some_iff.mp approved,
      capability.1, artifact.1, object.1, source.1, root.1, profile.1, profileVersion.1, policy.1,
      deployment.1, recorded.1, detail.1, outcome.1, audience.2, principal.2, client.2,
      capability.2, artifact.2, object.2, source.2, root.2, profile.2, profileVersion.2, policy.2,
      deployment.2, recorded.2, detail.2⟩
  · rintro ⟨schema, audience, principal, session, client, approved, capability, artifact, object,
      source, root, profile, profileVersion, policy, deployment, recorded, detail, outcome,
      audience', principal', client', capability', artifact', object', source', root', profile',
      profileVersion', policy', deployment', recorded', detail'⟩
    refine Option.bind_eq_some_iff.mpr ⟨(), Schema.literal_eq_some_iff.mpr schema, ?_⟩
    refine Option.bind_eq_some_iff.mpr ⟨(), Schema.literal_eq_some_iff.mpr session, ?_⟩
    refine Option.bind_eq_some_iff.mpr ⟨(), Schema.literal_eq_some_iff.mpr approved, ?_⟩
    refine hidentifier.bind_eq_some_iff.mpr ⟨_, ⟨audience, audience'⟩, ?_⟩
    refine hidentifier.bind_eq_some_iff.mpr ⟨_, ⟨principal, principal'⟩, ?_⟩
    refine hidentifier.bind_eq_some_iff.mpr ⟨_, ⟨client, client'⟩, ?_⟩
    refine reads_inspectorCapabilityRef.bind_eq_some_iff.mpr ⟨_, ⟨capability, capability'⟩, ?_⟩
    refine hartifactId.bind_eq_some_iff.mpr ⟨_, ⟨artifact, artifact'⟩, ?_⟩
    refine hversionRef.bind_eq_some_iff.mpr ⟨_, ⟨object, object'⟩, ?_⟩
    refine hdigest.bind_eq_some_iff.mpr ⟨_, ⟨source, source'⟩, ?_⟩
    refine hdigest.bind_eq_some_iff.mpr ⟨_, ⟨root, root'⟩, ?_⟩
    refine reads_analyzerProfile.bind_eq_some_iff.mpr ⟨_, ⟨profile, profile'⟩, ?_⟩
    refine hversion.bind_eq_some_iff.mpr ⟨_, ⟨profileVersion, profileVersion'⟩, ?_⟩
    refine hversion.bind_eq_some_iff.mpr ⟨_, ⟨policy, policy'⟩, ?_⟩
    refine hcoordinate.bind_eq_some_iff.mpr ⟨_, ⟨deployment, deployment'⟩, ?_⟩
    refine hdatetime.bind_eq_some_iff.mpr ⟨_, ⟨recorded, recorded'⟩, ?_⟩
    refine reads_operationDetail.bind_eq_some_iff.mpr ⟨_, ⟨detail, detail'⟩, ?_⟩
    refine reads_resultOrError.bind_eq_some_iff.mpr ⟨_, ⟨outcome, trivial⟩, ?_⟩
    rfl

end ReceiptJournal.Reading
