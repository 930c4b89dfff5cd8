import SupabaseUserMcp.Inspection.Schemas
import SupabaseUserMcp.Process.Program

/- `artifact-receipt-journal.ts`: the canonical bytes of a receipt, their digest,
   and an append that ends well only with an acknowledgement of that digest. A
   receipt is plain data without sharing, so what the graph check can reject is a
   number that is not finite, a value that JSON has no text for and a key
   `toJSON`. -/
namespace ReceiptJournal

open Js Inspection
open Process (Program)

/-! Receipts as objects. -/

def artifactInspectionReceiptSchemaVersion : Text := text "artifact-inspection-receipt/0.2"

section ToValue

def operationProperty (operation : ArtifactInspectionOperation) : Text × Value :=
  property "operation" (.string operation.name)

def ReceiptSearchHitDetail.toValue (hit : ReceiptSearchHitDetail) : Value :=
  .object [property "returnedRange" hit.returnedRange.toValue,
    property "returnedByteSha256" (.string hit.returnedByteSha256)]

def ReceiptOperationDetail.toValue : ReceiptOperationDetail → Value
  | .artifactStat => .object [operationProperty .artifactStat]
  | .artifactReadRange requestedRange returnedRange returnedByteSha256 =>
    .object [operationProperty .artifactReadRange,
      property "requestedRange" requestedRange.toValue,
      property "returnedRange" returnedRange.toValue,
      property "returnedByteSha256" (.string returnedByteSha256)]
  | .artifactReadLines requestedLineRange returnedRange returnedByteSha256 =>
    .object [operationProperty .artifactReadLines,
      property "requestedLineRange" (.object
        [property "startLine" (natValue requestedLineRange.startLine),
          property "count" (natValue requestedLineRange.count)]),
      property "returnedRange" returnedRange.toValue,
      property "returnedByteSha256" (.string returnedByteSha256)]
  | .artifactReadHeading requestedHeadingId returnedRange returnedByteSha256 =>
    .object [operationProperty .artifactReadHeading,
      property "requestedHeadingId" (.string requestedHeadingId),
      property "returnedRange" returnedRange.toValue,
      property "returnedByteSha256" (.string returnedByteSha256)]
  | .artifactSearchExact queryLength maxHits returnedHits =>
    .object [operationProperty .artifactSearchExact,
      property "queryLength" (natValue queryLength), property "maxHits" (natValue maxHits),
      property "returnedHits" (.array (returnedHits.map ReceiptSearchHitDetail.toValue))]

def ReceiptResultOrError.toValue : ReceiptResultOrError → Value
  | .result => .object [property "kind" (.string (text "result"))]
  | .error errorClass => .object [property "kind" (.string (text "error")),
      property "errorClass" (.string errorClass.name)]

/-- A receipt with the fields its schema fixes to one literal. -/
def ArtifactInspectionReceipt.toValue (receipt : ArtifactInspectionReceipt) : Value :=
  .object [property "receiptSchemaVersion" (.string artifactInspectionReceiptSchemaVersion),
    property "verifierAudience" (.string receipt.verifierAudience),
    property "principalRef" (.string receipt.principalRef),
    property "principalBinding" (.string (text "session_derived")),
    property "inspectorClientRef" (.string receipt.inspectorClientRef),
    property "inspectorClientBinding" (.string (text "approved")),
    property "inspectorCapabilityRef" (.object
      [property "capability" (.string (text "artifact:inspect")),
        property "ref" (.string receipt.inspectorCapabilityRef)]),
    property "artifactId" (.string receipt.artifactId),
    property "objectVersionRef" (.string receipt.objectVersionRef),
    property "sourceSha256" (.string receipt.sourceSha256),
    property "merkleRoot" (.string receipt.merkleRoot),
    property "analyzerProfileId" (.string receipt.analyzerProfileId),
    property "analyzerProfileVersion" (.string receipt.analyzerProfileVersion),
    property "policyVersion" (.string receipt.policyVersion),
    property "inspectorDeploymentGitCoordinate" (.string receipt.inspectorDeploymentGitCoordinate),
    property "recordedAt" (.string receipt.recordedAt),
    property "operationDetail" (ReceiptOperationDetail.toValue receipt.operationDetail),
    property "resultOrErrorClass" (ReceiptResultOrError.toValue receipt.resultOrErrorClass)]

end ToValue

/-! Canonical bytes. -/

mutual

/-- `assertCanonicalJsonGraph`. -/
def isCanonicalJsonGraph : Value → Bool
  | .null | .bool _ | .string _ => true
  | .number (.finite _) => true
  | .array items => areCanonicalItems items
  | .object properties => areCanonicalProperties properties
  | _ => false

def areCanonicalItems : List Value → Bool
  | [] => true
  | v :: rest => isCanonicalJsonGraph v && areCanonicalItems rest

def areCanonicalProperties : List (Text × Value) → Bool
  | [] => true
  | (key, v) :: rest => key != text "toJSON" && isCanonicalJsonGraph v && areCanonicalProperties rest

end

/-- The order of `toSorted()` on strings: by code units. -/
def textLe : Text → Text → Bool
  | [], _ => true
  | _ :: _, [] => false
  | a :: as, b :: bs => a < b || (a == b && textLe as bs)

/-- The JSON of an object, from the keys and the JSON of its properties. -/
def sortedObject (properties : List (Text × Text)) : Text :=
  [0x7B] ++ commaJoin ((properties.mergeSort fun p q => textLe p.1 q.1).map fun p =>
    quote p.1 ++ [0x3A] ++ p.2) ++ [0x7D]

section Canonical

variable (fractionText : ℚ → Text)

mutual

/-- Only of values that pass `isCanonicalJsonGraph`. -/
def canonicalJson : Value → Text
  | .array items => [0x5B] ++ commaJoin (canonicalItems items) ++ [0x5D]
  | .object properties => sortedObject (canonicalProperties properties)
  | v => stringify fractionText v

def canonicalItems : List Value → List Text
  | [] => []
  | v :: rest => canonicalJson v :: canonicalItems rest

def canonicalProperties : List (Text × Value) → List (Text × Text)
  | [] => []
  | (key, v) :: rest => (key, canonicalJson v) :: canonicalProperties rest

end

end Canonical

/-- `none` where it throws. -/
def canonicalArtifactInspectionReceiptBytes (platform : Platform)
    (receipt : ArtifactInspectionReceipt) : Option Bytes := do
  let value := ArtifactInspectionReceipt.toValue receipt
  guard (isCanonicalJsonGraph value)
  guard (artifactInspectionReceiptSchema receipt)
  some (encodeUtf8 (canonicalJson platform.fractionText value))

def artifactInspectionReceiptSha256 (platform : Platform) (receipt : ArtifactInspectionReceipt) :
    Option Text :=
  (canonicalArtifactInspectionReceiptBytes platform receipt).map platform.sha256Hex

/-! The journal. -/

def artifactReceiptJournalAckSchemaVersion : Text := text "artifact-receipt-journal-ack/0.1"

def lowercaseSha256Schema : Schema Text := Schema.string.refine (isLowerHex 64)

structure ArtifactReceiptJournalAcknowledgement where
  receiptSha256 : Text
  journalRef : Text
  deriving DecidableEq, Repr

def artifactReceiptJournalAcknowledgementSchema : Schema ArtifactReceiptJournalAcknowledgement :=
  Schema.strictObject [text "schemaVersion", text "receiptSha256", text "journalRef"] fun field => do
    let _ ← Schema.literal artifactReceiptJournalAckSchemaVersion (field (text "schemaVersion"))
    some ⟨← lowercaseSha256Schema (field (text "receiptSha256")),
      ← authorizationIdentifierSchema (field (text "journalRef"))⟩

/-- A call of `journal.append`. -/
structure Append where
  receipt : ArtifactInspectionReceipt
  expectedReceiptSha256 : Text
  deriving DecidableEq, Repr

/-- The journal fulfils with any value or rejects. -/
abbrev AppendReply (_ : Append) : Type := Except Unit Value

/-- What `appendArtifactInspectionReceipt` makes of the journal's reply. -/
def acknowledgementOf (expectedReceiptSha256 : Text) :
    Except Unit Value → Option ArtifactReceiptJournalAcknowledgement
  | .error _ => none
  | .ok rawAcknowledgement => do
    let acknowledgement ← artifactReceiptJournalAcknowledgementSchema rawAcknowledgement
    guard (acknowledgement.receiptSha256 = expectedReceiptSha256)
    some acknowledgement

/-- `none` where it rejects with an `ArtifactReceiptJournalError`. -/
def appendArtifactInspectionReceipt (platform : Platform) (receipt : ArtifactInspectionReceipt)
    (expectedReceiptSha256 : Text) :
    Program Append AppendReply (Option ArtifactReceiptJournalAcknowledgement) :=
  if !isCanonicalJsonGraph (ArtifactInspectionReceipt.toValue receipt) then .done none
  else if !artifactInspectionReceiptSchema receipt || !isLowerHex 64 expectedReceiptSha256 then
    .done none
  else if artifactInspectionReceiptSha256 platform receipt != some expectedReceiptSha256 then
    .done none
  else .ask ⟨receipt, expectedReceiptSha256⟩ fun reply =>
    .done (acknowledgementOf expectedReceiptSha256 reply)

end ReceiptJournal
