import SupabaseUserMcp.DefensiveRetrieval
import SupabaseUserMcp.FixedClient

/- `memory-retrieve.ts`: the public output of a retrieval. The mapping goes by the outcome
   and checks again what the retrieval has checked. -/
namespace MemoryRetrieve

open Js ReadTools DefensiveRetrieval
open FixedClient (refusedCandidate)
open Inspection (property)

def retrievalContext (queryLastExecuted : Text) : Value :=
  .object [property "strategy" (.string (text "defensive_search_then_get_v1")),
    property "query_last_executed" (.string queryLastExecuted),
    property "scope_semantics" (.string (text "authorized_scope_only")),
    property "snapshot_semantics" (.string (text "no_server_snapshot_v1")),
    property "provenance_currentness" (.string (text "unknown"))]

/-- The public outputs that are no errors. -/
def publicOutput (outcome : String) (queryLastExecuted : Text) (result : Value) : Value :=
  .object [property "ok" (.bool true), property "outcome" (.string (text outcome)),
    property "completeness" (.string (text "unknown")),
    property "retrieval" (retrievalContext queryLastExecuted), property "result" result]

/-- `{ ok: true, items: [] }`. -/
def noItems : Value := .object [property "ok" (.bool true), property "items" (.array [])]

def finalizeMemoryRetrieveOutput (platform : Platform) (candidate : Value) : Value :=
  (memoryRetrieveOutputSchema platform candidate).getD
    (createReadToolError (refusedCandidate platform candidate))

/-- `internal.result`. -/
def resultOf : Value → Value
  | .object properties => (Value.property properties (text "result")).getD .undefined
  | _ => .undefined

/-- `key in output`. -/
def hasProperty (key : String) : Value → Bool
  | .object properties => (Value.property properties (text key)).isSome
  | _ => false

def mapDefensiveRetrievalToMemoryRetrieveOutput (platform : Platform) (internal : Value) : Value :=
  let result := resultOf internal
  let query := (stringOf "lastSearchQuery" internal).getD []
  let outcome := (stringOf "outcome" internal).getD []
  let finalize := finalizeMemoryRetrieveOutput platform
  let internalError := createReadToolError .internalError
  if outcome = text "error" then
    if !isOk result then finalize result else internalError
  else if outcome = text "found" then
    if !isOk result || !hasProperty "record" result then internalError
    else finalize (publicOutput "found" query result)
  else if outcome = text "no-match-within-searched-scope" then
    if !isOk result || !hasProperty "items" result then internalError
    else if 0 < (itemsOf "items" result).length || isDefined "nextCursor" result then internalError
    else finalize (publicOutput "scoped_no_match" query noItems)
  else if outcome = text "ambiguous" then
    if !isOk result || !hasProperty "items" result then internalError
    else if (itemsOf "items" result).length < 2 || isDefined "nextCursor" result then internalError
    else finalize (publicOutput "ambiguous" query result)
  else if outcome = text "partial" then
    if !isOk result || !hasProperty "items" result || !isDefined "nextCursor" result then
      internalError
    else finalize (publicOutput "partial" query result)
  else internalError

end MemoryRetrieve
