import SupabaseUserMcp.FixedClient
import SupabaseUserMcp.Governor.Accounting
import SupabaseUserMcp.ReadTools.Inputs

/- One call of a memory tool from its executor's `await` to its end. Three abort
   controllers hang on one another, the executor's, the tool's and the client's,
   each with a timer, and the upstream settles its promises as it likes. Between
   two steps anything may fire. -/
namespace MemoryCall

open Js ReadTools FixedClient Governor
open Process (execute execute_cons Reachable invariant_execute)

/-- A promise of the upstream settles: of `fetch`, of a read of the body, of its cancelling. -/
inductive Upstream where
  | fetched (result : Except Thrown Response)
  | read (result : Except Thrown (Option Bytes))
  | cancelled (result : Except Thrown Unit)

/-- Where the call is. -/
inductive Phase (read : MemoryRead) where
  | fetching
  /-- In `readBoundedBody`, with the bytes read so far. -/
  | reading (body : Bytes)
  | cancelling
  /-- The promise of `requestMemoryRpc` has settled. -/
  | requested (result : Except ClientErrorCode Value)
  /-- The promise of the client's method has settled. -/
  | answered (result : Except ClientErrorCode (Answer read))
  /-- The promise of the tool body has settled. -/
  | settled (output : Value)
  /-- The executor has returned. -/
  | returned (record : CallRecord)

/-- A call that was admitted, and the fixed client it goes to. -/
structure Governed (platform : Platform) where
  client : Client
  read : MemoryRead
  record : CallRecord
  input : Value
  tool_eq : record.call.tool = read.tool
  parsed : (read.tool.descriptor platform).inputSchema record.call.unsafeInput = some input
  running : record.status = .running false
  accounted : record.Accounted

/-- The signals that are aborted, the input of the client's request, what the upstream
did, and whether the executor's signal was aborted when the promise of the tool body
settled. -/
structure Execution (read : MemoryRead) where
  phase : Phase read
  executorAborted : Bool
  toolAborted : Bool
  clientAborted : Bool
  input : Value
  upstream : List Upstream
  fired : Bool

section Steps

variable {platform : Platform} (governed : Governed platform)

/-- What a schema makes of an input that came through it before. -/
def reparse (input : Value) : Option Value :=
  (governed.read.tool.descriptor platform).inputSchema input

/-- The tool body and the client's method up to their first `await`; the caller's signal
may be aborted already. -/
def start (aborted : Bool) : Execution governed.read :=
  match reparse governed governed.input with
  | none => ⟨.settled (createReadToolError .invalidRequest), aborted, aborted, aborted,
      governed.input, [], aborted⟩
  | some input =>
    match reparse governed input with
    | none => ⟨.answered (.error .invalidRequest), aborted, aborted, aborted, input, [], aborted⟩
    | some parsedInput => ⟨.fetching, aborted, aborted, aborted, parsedInput, [], aborted⟩

/-- `JSON.parse(body)`. -/
def parseBody (body : Bytes) : Except ClientErrorCode Value :=
  match governed.client.parseBody body with
  | some value => .ok value
  | none => .error .malformedResponse

/-- `requestMemoryRpc` goes on from a promise that has settled. -/
def proceed (aborted : Bool) : Phase governed.read → Upstream → Option (Phase governed.read)
  | .fetching, .fetched (.error thrown) => some (.requested (.error (requestError aborted thrown)))
  | .fetching, .fetched (.ok response) =>
    match governed.client.refusal response with
    | some code => some (.requested (.error code))
    | none => some (if response.hasBody then .reading [] else .requested (parseBody governed []))
  | .reading _, .read (.error thrown) => some (.requested (.error (requestError aborted thrown)))
  | .reading body, .read (.ok none) => some (.requested (parseBody governed body))
  | .reading body, .read (.ok (some chunk)) =>
    some (if governed.client.maxResponseBytes < body.length + chunk.length then .cancelling
      else .reading (body ++ chunk))
  | .cancelling, .cancelled (.error thrown) => some (.requested (.error (requestError aborted thrown)))
  | .cancelling, .cancelled (.ok _) => some (.requested (.error .responseTooLarge))
  | _, _ => none

/-- `executeRaw` from the client's promise on. -/
def settle (aborted : Bool) : Except ClientErrorCode (Answer governed.read) → Value
  | .ok answer => respond platform governed.read answer
  | .error code => normalizeError code aborted

inductive Label where
  /-- The deadline timer of the executor, or the caller's signal. -/
  | deadline
  | toolTimer
  | clientTimer
  | upstream (event : Upstream)
  /-- A promise of the program itself has settled and its `await` goes on. -/
  | resume
  /-- The executor goes on; the clock reading is that of its event. -/
  | finish (now : ℚ)

def step (s : Execution governed.read) : Label → Option (Execution governed.read)
  | .deadline => some { s with executorAborted := true, toolAborted := true, clientAborted := true }
  | .toolTimer => some { s with toolAborted := true, clientAborted := true }
  | .clientTimer => some { s with clientAborted := true }
  | .upstream event =>
    (proceed governed s.clientAborted s.phase event).map fun phase =>
      { s with phase := phase, upstream := s.upstream ++ [event] }
  | .resume =>
    match s.phase with
    | .requested result =>
      some { s with phase := .answered (result.bind (parsePayload governed.read s.input)) }
    | .answered result =>
      some { s with phase := .settled (settle governed s.toolAborted result), fired := s.executorAborted }
    | _ => none
  | .finish now =>
    match s.phase with
    | .settled output =>
      let record := governed.record.close platform s.executorAborted (.ok output) now
      some { s with phase := .returned record }
    | _ => none

end Steps

end MemoryCall
