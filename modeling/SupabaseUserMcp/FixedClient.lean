import SupabaseUserMcp.ReadTools.Frame

/- `fixed-supabase-client.ts` and the tools that read through it: what the client
   makes of a response and what a tool makes of the client's answer. `JSON.parse`
   of a body comes as a field of the client. -/
namespace FixedClient

open Js ReadTools
open Inspection (property contentTrust)

inductive ClientErrorCode where
  | invalidCredential
  | invalidRequest
  | invalidCursor
  | timeout
  | networkFailure
  | malformedResponse
  | upstreamStatus
  | responseTooLarge
  deriving DecidableEq, Repr

/-- What a promise of the platform rejects with: an error of the client's own or another. -/
inductive Thrown where
  | client (code : ClientErrorCode)
  | other

/-- A response before its body is read. -/
structure Response where
  ok : Bool
  status : ℕ
  /-- `Number(headers.get('content-length'))`, where there is one. -/
  advertisedLength : Option Number
  hasBody : Bool

structure Client where
  maxResponseBytes : ℕ
  /-- `JSON.parse(body.toString('utf8'))`, `none` where it throws. -/
  parseBody : Bytes → Option Value

/-- Why a response is refused before its body is read. -/
def Client.refusal (client : Client) (response : Response) : Option ClientErrorCode :=
  if !response.ok then some (if response.status = 400 then .invalidCursor else .upstreamStatus)
  else match response.advertisedLength with
  | some length => if length.gt (client.maxResponseBytes : ℕ) then some .responseTooLarge else none
  | none => none

/-- The `catch` of `requestMemoryRpc`. -/
def requestError (aborted : Bool) : Thrown → ClientErrorCode
  | .client code => code
  | .other => if aborted then .timeout else .networkFailure

/-- `requestMemoryRpc` from the response on, where all of its body comes. -/
def Client.receive (client : Client) (response : Response) (body : Bytes) :
    Except ClientErrorCode Value :=
  match client.refusal response with
  | some code => .error code
  | none =>
    if client.maxResponseBytes < body.length then .error .responseTooLarge
    else match client.parseBody body with
    | some value => .ok value
    | none => .error .malformedResponse

/-! Payloads. -/

def allowedMemoryRowFields : List Text :=
  [text "id", text "title", text "content", text "createdAt", text "provenanceSummary"]

def hasAllowedKeys (record : List (Text × Value)) (allowed : List Text) : Bool :=
  record.length == allowed.length && record.all fun p => allowed.contains p.1

def hasRequiredStringFields (record : List (Text × Value)) (fields : List Text) : Bool :=
  hasAllowedKeys record fields && fields.all fun field =>
    match Value.property record field with
    | some (.string _) => true
    | _ => false

def parseGetRow : Value → Except ClientErrorCode Value
  | .object record =>
    if hasRequiredStringFields record allowedMemoryRowFields then
      .ok (.object (allowedMemoryRowFields.map fun field =>
        (field, (Value.property record field).getD .undefined)))
    else .error .malformedResponse
  | _ => .error .malformedResponse

def parseMemoryGetPayload : Value → Except ClientErrorCode (Option Value)
  | .object [(key, record)] =>
    if key ≠ text "record" then .error .malformedResponse
    else match record with
    | .null => .ok none
    | record => (parseGetRow record).map some
  | _ => .error .malformedResponse

/-- The rows of an envelope that holds rows and perhaps a cursor. -/
def envelopeRows (envelope : List (Text × Value)) : Except ClientErrorCode (List Value) :=
  if envelope.length < 1 || 2 < envelope.length ||
      !envelope.all fun p => [text "nextCursor", text "rows"].contains p.1 then
    .error .malformedResponse
  else match Value.property envelope (text "rows") with
  | some (.array rows) => .ok rows
  | _ => .error .malformedResponse

/-- `OPAQUE_CURSOR`. -/
def isOpaqueCursor (s : Text) : Bool :=
  20 ≤ s.length && s.length ≤ 1024 && Schema.prefixed (text "cur_") Inspection.isOpaqueUnit s

def envelopeCursor (envelope : List (Text × Value)) : Except ClientErrorCode (Option Text) :=
  match Value.property envelope (text "nextCursor") with
  | none | some .undefined => .ok none
  | some (.string s) => if isOpaqueCursor s then .ok (some s) else .error .invalidCursor
  | some _ => .error .invalidCursor

def parseMemoryListPayload : Value → Except ClientErrorCode (List Value × Option Text)
  | .object envelope => do
    let rows ← (← envelopeRows envelope).mapM parseGetRow
    return (rows, ← envelopeCursor envelope)
  | _ => .error .malformedResponse

/-- A row of a search: that of a record and its rank. -/
def parseSearchRow : Value → Except ClientErrorCode Value
  | .object record => do
    let allowed := allowedMemoryRowFields ++ [text "rank"]
    let rank := (Value.property record (text "rank")).getD .undefined
    throwIf (!hasAllowedKeys record allowed || (rankSchema rank).isNone) .malformedResponse
    match ← parseGetRow (.object (allowedMemoryRowFields.map fun field =>
      (field, (Value.property record field).getD .undefined))) with
    | .object row => return .object (row ++ [(text "rank", rank)])
    | row => return row
  | _ => .error .malformedResponse

def parseMemorySearchPayload (limit : ℕ) : Value → Except ClientErrorCode (List Value × Option Text)
  | .object envelope => do
    let candidates ← envelopeRows envelope
    throwIf (limit < candidates.length) .malformedResponse
    let rows ← candidates.mapM parseSearchRow
    return (rows, ← envelopeCursor envelope)
  | _ => .error .malformedResponse

/-! The reads. -/

/-- The tools that are a single read of the client. -/
inductive MemoryRead where
  | search
  | get
  | listRecent
  deriving DecidableEq, Repr

def MemoryRead.tool : MemoryRead → MemoryTool
  | search => .memorySearch
  | get => .memoryGet
  | listRecent => .memoryListRecent

/-- What the client returns: rows and perhaps a cursor, or a record if there is one. -/
abbrev Answer : MemoryRead → Type
  | .search | .listRecent => List Value × Option Text
  | .get => Option Value

/-- `input.limit`. -/
def limitOf : Value → ℕ
  | .object properties =>
    match Value.property properties (text "limit") with
    | some (.number n) => n.toNat
    | _ => 0
  | _ => 0

/-- `searchMemoryRows`, `getMemoryRow` and `listRecentMemoryRows` from the payload on. -/
def parsePayload (read : MemoryRead) (input payload : Value) :
    Except ClientErrorCode (Answer read) :=
  match read with
  | .search => parseMemorySearchPayload (limitOf input) payload
  | .get => parseMemoryGetPayload payload
  | .listRecent => do
    let (rows, nextCursor) ← parseMemoryListPayload payload
    throwIf (limitOf input < rows.length) .malformedResponse
    return (rows, nextCursor)

/-! The tools. -/

/-- `{ ...row, contentTrust: 'untrusted' }`. -/
def withContentTrust : Value → Value
  | .object row => .object (row ++ [contentTrust])
  | row => row

def rowsCandidate (rows : List Value) (nextCursor : Option Text) : Value :=
  .object ([property "ok" (.bool true), property "items" (.array (rows.map withContentTrust))] ++
    (nextCursor.map fun cursor => property "nextCursor" (.string cursor)).toList)

def recordCandidate (row : Value) : Value :=
  .object [property "ok" (.bool true), property "record" (withContentTrust row)]

/-- Newest first, and of one time by descending id. -/
def isOrderedPair (previous current : Value) : Bool :=
  match stringOf "createdAt" previous, stringOf "createdAt" current,
      stringOf "id" previous, stringOf "id" current with
  | some earlier, some later, some left, some right =>
    decide (later < earlier) || (earlier == later && decide (right ≤ left))
  | _, _, _, _ => false

def isOrdered (rows : List Value) : Bool := rows.zip rows.tail |>.all fun p => isOrderedPair p.1 p.2

/-- An output is what the schema makes of a candidate. -/
def validated (platform : Platform) (read : MemoryRead) (candidate : Value)
    (fallback : ReadToolErrorCode) : Value :=
  ((read.tool.descriptor platform).outputSchema candidate).getD (createReadToolError fallback)

/-- Why a candidate that is not valid is refused. -/
def refusedCandidate (platform : Platform) (candidate : Value) : ReadToolErrorCode :=
  if maxResponseBytes < readToolWireResponseByteLength platform .null candidate then
    .responseLimitExceeded
  else .internalError

/-- `executeRaw` from the client's answer on. -/
def respond (platform : Platform) : (read : MemoryRead) → Answer read → Value
  | .search, (rows, nextCursor) =>
    let candidate := rowsCandidate rows nextCursor
    if maxResponseBytes < readToolWireResponseByteLength platform .null candidate then
      createReadToolError .responseLimitExceeded
    else validated platform .search candidate .internalError
  | .listRecent, (rows, nextCursor) =>
    if !isOrdered rows then createReadToolError .internalError
    else
      let candidate := rowsCandidate rows nextCursor
      validated platform .listRecent candidate (refusedCandidate platform candidate)
  | .get, some row =>
    let candidate := recordCandidate row
    validated platform .get candidate (refusedCandidate platform candidate)
  -- `publicMemoryGetUnavailable('missing')`
  | .get, none => createReadToolError .resourceUnavailable

/-- `mapClientError`. -/
def mapClientError : ClientErrorCode → ReadToolErrorCode
  | .timeout => .deadlineExceeded
  | .responseTooLarge => .responseLimitExceeded
  | .invalidRequest | .invalidCursor => .invalidRequest
  | _ => .internalError

/-- `normalizeError`. -/
def normalizeError (code : ClientErrorCode) (aborted : Bool) : Value :=
  createReadToolError (if aborted then .deadlineExceeded else mapClientError code)

end FixedClient
