import SupabaseUserMcp.Process.Program
import SupabaseUserMcp.ReadTools.Frame

/- `defensive-retrieval.ts`: a search, perhaps one more under a normalized query, and
   the record of a single hit. Everything it returns is measured with the id of
   the request or is one of four short failures. -/
namespace DefensiveRetrieval

open Js ReadTools
open Inspection (property isErrorOutput responseHead responseTail stringify_jsonRpcResponse
  utf8Length_frame)
open Process (Ensures Program ensures_ask ensures_bind ensures_done)

/-- What the retrieval asks for: the state of its signal, the ungoverned tools of the
client, and whether its signal is aborted before the retrieval itself settles. -/
inductive Request where
  | aborted
  | search (input : Value)
  | get (input : Value)
  | cancelled

/-- A tool rejects or returns an output. -/
abbrev Reply : Request → Type
  | .aborted => Bool
  | .search _ => Except Unit Value
  | .get _ => Except Unit Value
  | .cancelled => Bool

abbrev Retrieval (α : Type) := Program Request Reply α

def request (q : Request) : Retrieval (Reply q) := Program.request q

inductive Outcome where
  | found
  | ambiguous
  | partialResult
  | noMatchWithinSearchedScope
  | error

def Outcome.name : Outcome → Text
  | found => text "found"
  | ambiguous => text "ambiguous"
  | partialResult => text "partial"
  | noMatchWithinSearchedScope => text "no-match-within-searched-scope"
  | error => text "error"

/-- The outputs of the fixed error. -/
def failure (code : ReadToolErrorCode) : Value :=
  .object [property "outcome" (.string Outcome.error.name),
    property "completeness" (.string (text "unknown")), property "lastSearchQuery" (.string []),
    property "result" (createReadToolError code)]

def outputOf (outcome : Outcome) (result : Value) (lastSearchQuery : Text) : Value :=
  .object [property "outcome" (.string outcome.name),
    property "completeness" (.string (text "unknown")), property "result" result,
    property "lastSearchQuery" (.string lastSearchQuery)]

/-- `context.requestId ?? null`. -/
def orNull : Value → Value
  | .undefined => .null
  | v => v

def finish (platform : Platform) (requestId : Value) (outcome : Outcome) (result : Value)
    (lastSearchQuery : Text) : Value :=
  let output := outputOf outcome result lastSearchQuery
  if readToolWireResponseByteLength platform (orNull requestId) output ≤ maxResponseBytes then output
  else failure .responseLimitExceeded

/-- `output.ok`. -/
def isOk : Value → Bool
  | .object properties =>
    match Value.property properties (text "ok") with
    | some (.bool b) => b
    | _ => false
  | _ => false

def normalizedQuery (query : Text) : Text := trim (collapseWhitespace false query)

/-- `{ ...input, query }`. -/
def withQuery (query : Text) : Value → Value
  | .object properties => .object (properties.map fun p =>
      if p.1 = text "query" then (p.1, .string query) else p)
  | v => v

/-- `output.record.id`. -/
def recordId : Value → Option Text
  | .object properties => (Value.property properties (text "record")).bind (stringOf "id")
  | _ => none

section Run

variable (platform : Platform) (requestId : Value)

/-- From the result of the last search. -/
def resolveCandidate (result : Value) (lastSearchQuery : Text) : Retrieval (Except Unit Value) :=
  if isDefined "nextCursor" result then
    return .ok (finish platform requestId .partialResult result lastSearchQuery)
  else match itemsOf "items" result with
  | [] => return .ok (finish platform requestId .noMatchWithinSearchedScope result lastSearchQuery)
  | [candidate] => do
    match ← request (.get (.object [property "id" (.string ((stringOf "id" candidate).getD []))])) with
    | .error _ => return .error ()
    | .ok exact =>
      if ← request .aborted then return .ok (failure .deadlineExceeded)
      else if isOk exact && recordId exact ≠ stringOf "id" candidate then
        return .ok (failure .internalError)
      else return .ok (finish platform requestId (if isOk exact then .found else .error) exact
        lastSearchQuery)
  | _ => return .ok (finish platform requestId .ambiguous result lastSearchQuery)

/-- `run`; where it throws it has no output. -/
def run (unsafeInput : Value) : Retrieval (Except Unit Value) := do
  if ← request .aborted then return .ok (failure .deadlineExceeded)
  else match memorySearchInputSchema platform unsafeInput with
  | none => return .ok (failure .invalidRequest)
  | some input =>
    let query := (stringOf "query" input).getD []
    match ← request (.search input) with
    | .error _ => return .error ()
    | .ok result =>
      if ← request .aborted then return .ok (failure .deadlineExceeded)
      else if !isOk result then return .ok (finish platform requestId .error result query)
      else
        let normalized := normalizedQuery query
        -- a continuation cursor is not read under another query
        if (itemsOf "items" result).isEmpty && !isDefined "nextCursor" result &&
            !isDefined "cursor" input && normalized ≠ query then
          match ← request (.search (withQuery normalized input)) with
          | .error _ => return .error ()
          | .ok result =>
            if ← request .aborted then return .ok (failure .deadlineExceeded)
            else if !isOk result then return .ok (finish platform requestId .error result normalized)
            else resolveCandidate platform requestId result normalized
        else resolveCandidate platform requestId result query

end Run

inductive InvocationError where
  | rangeError
  | typeError
  deriving DecidableEq, Repr

/-- The precondition on the id of the request. -/
def checkRequestId : Value → Except InvocationError Unit
  | .string s => if maxRequestIdBytes < utf8Length s then .error .rangeError else .ok ()
  | .undefined | .null | .number (.finite _) => .ok ()
  | _ => .error .typeError

/-- What a retrieval returns for an id it accepts: the failure of its deadline where the
race is lost, and otherwise what `run` makes of it. -/
def createDefensiveRetrieval (platform : Platform) (requestId unsafeInput : Value) :
    Retrieval (Except InvocationError Value) :=
  match checkRequestId requestId with
  | .error error => return .error error
  | .ok _ => do
    if ← request .cancelled then return .ok (failure .deadlineExceeded)
    else match ← run platform requestId unsafeInput with
    | .ok output => return .ok output
    | .error _ =>
      if ← request .aborted then return .ok (failure .deadlineExceeded)
      else return .ok (failure .internalError)

/-! Frames. -/

def failureJson (code : ReadToolErrorCode) : Text :=
  (stringify? (fun _ => []) (failure code)).getD []

theorem stringify?_failure (fractionText : ℚ → Text) (code : ReadToolErrorCode) :
    stringify? fractionText (failure code) = some (failureJson code) := by
  cases code <;> rfl

theorem utf8Length_failureResult_le (code : ReadToolErrorCode) :
    utf8Length responseHead +
      utf8Length (responseTail (mcpResultJson (failureJson code) false) ++ [0x0A]) ≤ 1000 := by
  have hall : ∀ code ∈ [ReadToolErrorCode.invalidRequest, .resourceUnavailable,
      .responseLimitExceeded, .deadlineExceeded, .internalError], utf8Length responseHead +
      utf8Length (responseTail (mcpResultJson (failureJson code) false) ++ [0x0A]) ≤ 1000 := by
    decide +kernel
  exact hall code (by cases code <;> decide)

theorem isErrorOutput_failure (code : ReadToolErrorCode) : isErrorOutput (failure code) = false := by
  cases code <;> rfl

/-- An accepted id has a short literal, where fractions have one. -/
theorem idJson_of_checkRequestId {platform : Platform} {requestId : Value}
    (hfraction : ∀ q, utf8Length (platform.fractionText q) ≤ 1024)
    (h : checkRequestId requestId = .ok ()) :
    ∃ idJson, stringify? platform.fractionText (orNull requestId) = some idJson ∧
      utf8Length idJson ≤ 6146 := by
  cases requestId with
  | string s =>
    simp only [checkRequestId] at h
    split at h
    · cases h
    · next hle =>
      have hquote := utf8Length_quote_le s
      simp only [maxRequestIdBytes] at hle
      exact ⟨_, rfl, by omega⟩
  | number x =>
    have hle := utf8Length_jsonNumber_le hfraction x
    exact ⟨_, rfl, by omega⟩
  | undefined => exact ⟨_, rfl, by decide⟩
  | null => exact ⟨_, rfl, by decide⟩
  | _ => cases h

section Bounds

variable {platform : Platform} {requestId : Value}

/-- The frame of an output is within the limit. -/
def Fits (platform : Platform) (requestId output : Value) : Prop :=
  readToolWireResponseByteLength platform (orNull requestId) output ≤ maxResponseBytes

/-- Every output of a retrieval that has one is within the limit. -/
def Returns {ε : Type} (platform : Platform) (requestId : Value)
    (retrieval : Retrieval (Except ε Value)) : Prop :=
  Ensures retrieval fun _ result => ∀ output, result = .ok output → Fits platform requestId output

theorem returns_ok {ε : Type} {output : Value} (h : Fits platform requestId output) :
    Returns (ε := ε) platform requestId (.done (.ok output)) := by
  refine ensures_done.mpr fun other heq => ?_
  cases heq
  exact h

theorem returns_error {ε : Type} (error : ε) :
    Returns platform requestId (.done (.error error)) := by
  refine ensures_done.mpr fun other heq => ?_
  cases heq

theorem returns_request {ε : Type} {q : Request} {next : Reply q → Retrieval (Except ε Value)}
    (h : ∀ reply, Returns platform requestId (next reply)) :
    Returns platform requestId (request q >>= next) :=
  ensures_ask.mpr fun reply => (h reply).mono fun _ _ hfits => hfits

theorem returns_ite {ε : Type} {c : Prop} [Decidable c] {p q : Retrieval (Except ε Value)}
    (hp : Returns platform requestId p) (hq : Returns platform requestId q) :
    Returns platform requestId (if c then p else q) := by
  split
  · exact hp
  · exact hq

theorem returns_bind {ε δ : Type} {p : Retrieval (Except δ Value)}
    {next : Except δ Value → Retrieval (Except ε Value)} (hp : Returns platform requestId p)
    (hok : ∀ output, Fits platform requestId output → Returns platform requestId (next (.ok output)))
    (herror : ∀ error, Returns platform requestId (next (.error error))) :
    Returns platform requestId (p >>= next) := by
  refine ensures_bind.mpr (hp.mono fun _ result hresult => ?_)
  cases result with
  | ok output => exact (hok output (hresult output rfl)).mono fun _ _ hfits => hfits
  | error error => exact (herror error).mono fun _ _ hfits => hfits

variable (hfailure : ∀ code, Fits platform requestId (failure code))

include hfailure

theorem fits_finish (outcome : Outcome) (result : Value) (lastSearchQuery : Text) :
    Fits platform requestId (finish platform requestId outcome result lastSearchQuery) := by
  rw [finish]
  split
  · assumption
  · exact hfailure _

theorem returns_finish {ε : Type} (outcome : Outcome) (result : Value) (lastSearchQuery : Text) :
    Returns (ε := ε) platform requestId
      (.done (.ok (finish platform requestId outcome result lastSearchQuery))) :=
  returns_ok (fits_finish hfailure outcome result lastSearchQuery)

theorem returns_resolveCandidate (result : Value) (lastSearchQuery : Text) :
    Returns platform requestId (resolveCandidate platform requestId result lastSearchQuery) := by
  rw [resolveCandidate]
  refine returns_ite (returns_finish hfailure _ _ _) ?_
  cases itemsOf "items" result with
  | nil => exact returns_finish hfailure _ _ _
  | cons candidate rest =>
    cases rest with
    | nil =>
      refine returns_request fun reply => ?_
      cases reply with
      | error _ => exact returns_error ()
      | ok exact =>
        refine returns_request fun aborted => returns_ite (returns_ok (hfailure _)) ?_
        exact returns_ite (returns_ok (hfailure _)) (returns_finish hfailure _ _ _)
    | cons _ _ => exact returns_finish hfailure _ _ _

theorem returns_run (unsafeInput : Value) :
    Returns platform requestId (run platform requestId unsafeInput) := by
  rw [run]
  refine returns_request fun aborted => returns_ite (returns_ok (hfailure _)) ?_
  cases memorySearchInputSchema platform unsafeInput with
  | none => exact returns_ok (hfailure _)
  | some input =>
    refine returns_request fun reply => ?_
    cases reply with
    | error _ => exact returns_error ()
    | ok result =>
      refine returns_request fun aborted => returns_ite (returns_ok (hfailure _)) ?_
      refine returns_ite (returns_finish hfailure _ _ _) (returns_ite ?_ ?_)
      · refine returns_request fun reply => ?_
        cases reply with
        | error _ => exact returns_error ()
        | ok result =>
          refine returns_request fun aborted => returns_ite (returns_ok (hfailure _)) ?_
          exact returns_ite (returns_finish hfailure _ _ _)
            (returns_resolveCandidate hfailure result _)
      · exact returns_resolveCandidate hfailure result _

end Bounds

/-- Every output for an accepted id is within the limit. -/
theorem returns_createDefensiveRetrieval {platform : Platform} {requestId : Value}
    (hfraction : ∀ q, utf8Length (platform.fractionText q) ≤ 1024) (unsafeInput : Value) :
    Returns platform requestId (createDefensiveRetrieval platform requestId unsafeInput) := by
  rw [createDefensiveRetrieval]
  cases hcheck : checkRequestId requestId with
  | error error => exact returns_error error
  | ok _ =>
    obtain ⟨idJson, hid, hlength⟩ := idJson_of_checkRequestId hfraction hcheck
    have hfailure : ∀ code, Fits platform requestId (failure code) := by
      intro code
      have hle := utf8Length_failureResult_le code
      rw [Fits, readToolWireResponseByteLength_eq (stringify?_failure _ code) hid,
        isErrorOutput_failure]
      simp only [maxResponseBytes]
      omega
    refine returns_request fun cancelled => returns_ite (returns_ok (hfailure _)) ?_
    refine returns_bind (returns_run hfailure unsafeInput) (fun output hfits => returns_ok hfits)
      fun error => ?_
    refine returns_request fun aborted => ?_
    exact returns_ite (returns_ok (hfailure _)) (returns_ok (hfailure _))

end DefensiveRetrieval
