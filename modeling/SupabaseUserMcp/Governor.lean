import SupabaseUserMcp.Js.Platform
import SupabaseUserMcp.Process.Machine
import SupabaseUserMcp.Process.SlidingWindow
import SupabaseUserMcp.ReadTools

/- `read-tool-governor.ts`: executors of the memory tools and the limiter they share.
   A state object of the limiter is a place in a list and the map holds its index,
   so that a call may hold on to a state the map has dropped. What an executor
   does up to its `await` and after it is one step each; in between others come in.
   An observer is told of an event last of all, so that what it does and whether it
   throws is another step's business. -/
namespace Governor

open Js ReadTools
open Inspection (isErrorOutput)
open Process.SlidingWindow (recent)

/-! Policies and calls. -/

/-- A policy an executor can be made with; the constructor throws for any other. -/
structure ReadToolGovernancePolicy where
  maxConcurrentExecutions : ℕ
  maxRequestsPerWindow : ℕ
  requestWindowMs : ℕ
  positive : 0 < maxConcurrentExecutions ∧ 0 < maxRequestsPerWindow ∧ 0 < requestWindowMs
  deriving DecidableEq

/-- `DEFAULT_RATE_LIMIT`. -/
def defaultRateLimit : ReadToolGovernancePolicy := ⟨4, 30, 60000, by decide⟩

/-- A call of an executor, with what its clock reads up to the `await`: for the
timestamp of its event, at its start, in `getLimiterState`, in `enforceWindow` and,
where it is denied, in its event. -/
structure Call where
  tool : MemoryTool
  policy : ReadToolGovernancePolicy
  unsafeInput : Value
  /-- `context.requestId ?? null`. -/
  requestId : Value
  principalId : Option Text
  clientId : Option Text
  timestampAt : ℚ
  startAt : ℚ
  touchAt : ℚ
  windowAt : ℚ
  denyAt : ℚ

def stableNow (now : ℚ) : ℤ := max 0 ⌊now⌋

def deriveLimiterScope (platform : Platform) (call : Call) : Text :=
  match call.principalId, call.clientId with
  | some principalId, _ => text "principal:" ++ principalId
  | none, some clientId => text "client:" ++ clientId
  | none, none => text "operation:" ++ (call.tool.descriptor platform).operation

/-! The limiter. -/

structure ReadToolLimiterState where
  active : ℕ
  requestTimestamps : List ℤ
  lastTouchedAt : ℤ
  deriving DecidableEq, Repr

def createDefaultState (now : ℤ) : ReadToolLimiterState := ⟨0, [], now⟩

def maxTrackedScopes : ℕ := 1024

/-- The state objects in the order of their creation, and the map from scopes to
them in the order of insertion. -/
structure Limiter where
  states : List ReadToolLimiterState
  limiterStates : List (Text × ℕ)
  deriving DecidableEq, Repr

namespace Limiter

def empty : Limiter := ⟨[], []⟩

/-- The state a reference refers to. -/
def deref (l : Limiter) (ref : ℕ) : ReadToolLimiterState := l.states.getD ref (createDefaultState 0)

def update (l : Limiter) (ref : ℕ) (f : ReadToolLimiterState → ReadToolLimiterState) : Limiter :=
  { l with states := l.states.modify ref f }

/-- `limiterStates.get(scope)`. -/
def get (l : Limiter) (scope : Text) : Option ℕ :=
  (l.limiterStates.find? fun entry => entry.1 == scope).map Prod.snd

/-- The inactive scope that was touched least recently. -/
def evictable (l : Limiter) : Option Text :=
  (((l.limiterStates.filter fun entry => (l.deref entry.2).active == 0).mergeSort fun left right =>
    (l.deref left.2).lastTouchedAt ≤ (l.deref right.2).lastTouchedAt).head?).map Prod.fst

/-- `limiterStates.delete(scope)`. -/
def delete (l : Limiter) (scope : Text) : Limiter :=
  { l with limiterStates := l.limiterStates.filter fun entry => entry.1 != scope }

/-- `limiterStates.set(scope, createDefaultState(now))` for a scope that is not in the map. -/
def insert (l : Limiter) (scope : Text) (now : ℤ) : Limiter :=
  ⟨l.states ++ [createDefaultState now], l.limiterStates ++ [(scope, l.states.length)]⟩

/-- Whether a state for the scope takes the place of another, and which. -/
def victim (l : Limiter) (scope : Text) : Option Text :=
  if (l.get scope).isNone && maxTrackedScopes ≤ l.limiterStates.length then l.evictable else none

end Limiter

def getLimiterState (l : Limiter) (scope : Text) (now : ℤ) : Limiter × Option ℕ :=
  match l.get scope with
  | some existing => (l.update existing fun state => { state with lastTouchedAt := now }, some existing)
  | none =>
    if maxTrackedScopes ≤ l.limiterStates.length then
      match l.evictable with
      | none => (l, none)
      | some evicted => ((l.delete evicted).insert scope now, some l.states.length)
    else (l.insert scope now, some l.states.length)

def enforceWindow (l : Limiter) (ref : ℕ) (now : ℤ) (policy : ReadToolGovernancePolicy) :
    Limiter × Bool :=
  let requestTimestamps := recent policy.requestWindowMs now (l.deref ref).requestTimestamps
  if policy.maxRequestsPerWindow ≤ requestTimestamps.length then
    (l.update ref fun state =>
      { state with lastTouchedAt := now, requestTimestamps := requestTimestamps }, false)
  else
    (l.update ref fun state =>
      { state with lastTouchedAt := now, requestTimestamps := requestTimestamps ++ [now] }, true)

def releaseConcurrency (l : Limiter) (ref : ℕ) : Limiter :=
  l.update ref fun state => if 0 < state.active then { state with active := state.active - 1 } else state

/-! Admission. -/

inductive Decision where
  | invalid
  /-- `getLimiterState` returned `undefined`. -/
  | untracked
  | windowDenied
  | concurrencyDenied
  | admitted (ref : ℕ)
  deriving DecidableEq, Repr

/-- From the validation of the input to the slot. -/
def judge (platform : Platform) (l : Limiter) (call : Call) : Limiter × Decision :=
  match (call.tool.descriptor platform).inputSchema call.unsafeInput with
  | none => (l, .invalid)
  | some _ =>
    match getLimiterState l (deriveLimiterScope platform call) (stableNow call.touchAt) with
    | (l, none) => (l, .untracked)
    | (l, some ref) =>
      match enforceWindow l ref (stableNow call.windowAt) call.policy with
      | (l, false) => (l, .windowDenied)
      | (l, true) =>
        if call.policy.maxConcurrentExecutions ≤ (l.deref ref).active then (l, .concurrencyDenied)
        else (l.update ref fun state => { state with active := state.active + 1 }, .admitted ref)

/-- The scope whose state the call drops from the map. -/
def evictedBy (platform : Platform) (l : Limiter) (call : Call) : Option Text :=
  if ((call.tool.descriptor platform).inputSchema call.unsafeInput).isSome then
    l.victim (deriveLimiterScope platform call)
  else none

/-! Outputs. -/

def rowsOf (properties : List (Text × Value)) : Option ℕ :=
  match Value.property properties (text "ok") with
  | some (.bool true) =>
    match Value.property properties (text "items"), Value.property properties (text "record") with
    | some (.array items), _ => some items.length
    | _, some .undefined | _, none => none
    | _, some .null => some 0
    | _, some _ => some 1
  | _ => none

def countRows : Value → ℕ
  | .object properties =>
    match rowsOf properties with
    | some rows => rows
    | none =>
      match Value.property properties (text "ok"), Value.property properties (text "outcome"),
          Value.property properties (text "result") with
      | some (.bool true), some (.string _), some (.object inner) => (rowsOf inner).getD 0
      | _, _, _ => 0
  | _ => 0

/-- `error.code` of a thrown value, where it is an object that has one. -/
def causeToFailureCode : Value → Option ReadToolErrorCode
  | .object properties =>
    match Value.property properties (text "code") with
    | some (.string code) =>
      if code = text "FIXED_CLIENT_TIMEOUT" ∨ code = text "DEADLINE_EXCEEDED" then
        some .deadlineExceeded
      else if code = text "FIXED_CLIENT_RESPONSE_TOO_LARGE" then some .responseLimitExceeded
      else if code = text "FIXED_CLIENT_INVALID_CREDENTIAL" ∨
          code = text "FIXED_CLIENT_INVALID_REQUEST" then some .invalidRequest
      else none
    | _ => none
  | _ => none

/-- `data.error.code` of an error output. -/
def errorCodeOf : Value → Option Value
  | .object properties =>
    match Value.property properties (text "ok"), Value.property properties (text "error") with
    | some (.bool false), some (.object error) => Value.property error (text "code")
    | _, _ => none
  | _ => none

inductive EventOutcome where
  | success
  | blocked
  deriving DecidableEq, Repr

/-- The variables that `emit` and the caller see at the end of an execution. -/
structure Conclusion where
  output : Value
  rowCount : ℕ
  outcome : EventOutcome
  denialClass : Option Value

def denialOf (code : ReadToolErrorCode) : Option Value := some (.string code.name)

/-- An execution that ends with an error of its own. -/
def blocked (rowCount : ℕ) (code : ReadToolErrorCode) : Conclusion :=
  ⟨createReadToolError code, rowCount, .blocked, denialOf code⟩

/-- What follows the `await`, from the settled promise of the tool body. -/
def conclude (platform : Platform) (descriptor : ReadToolDescriptor) (requestId : Value)
    (aborted : Bool) : Except Value Value → Conclusion
  | .ok result =>
    match descriptor.outputSchema result with
    | none => blocked 0 descriptor.errorMapping.unexpected
    | some data =>
      match errorCodeOf data with
      | some code => ⟨data, 0, .blocked, some code⟩
      | none =>
        let rowCount := countRows data
        if descriptor.maxRows < rowCount then blocked rowCount descriptor.errorMapping.responseLimit
        else if descriptor.maxResponseBytes < readToolWireResponseByteLength platform requestId data then
          blocked rowCount descriptor.errorMapping.responseLimit
        else ⟨data, rowCount, .success, none⟩
  | .error error =>
    blocked 0 <|
      if aborted then descriptor.errorMapping.timeout
      else match causeToFailureCode error with
      | some .invalidRequest => descriptor.errorMapping.validation
      | some .responseLimitExceeded => descriptor.errorMapping.responseLimit
      | _ => descriptor.errorMapping.unexpected

/-! Events. -/

structure ReadToolOperationalEvent where
  requestId : Value
  operation : Text
  scope : Text
  timestamp : Text
  durationMs : ℤ
  rowCount : ℕ
  outcome : EventOutcome
  denialClass : Option Value
  principalId : Option Text
  clientId : Option Text

def emit (platform : Platform) (call : Call) (conclusion : Conclusion) (now : ℚ) :
    ReadToolOperationalEvent where
  requestId := call.requestId
  operation := (call.tool.descriptor platform).operation
  scope := deriveLimiterScope platform call
  timestamp := toISOString (stableNow call.timestampAt)
  durationMs := max 0 (stableNow now - stableNow call.startAt)
  rowCount := conclusion.rowCount
  outcome := conclusion.outcome
  denialClass := conclusion.denialClass
  principalId := call.principalId
  clientId := call.clientId

/-! Runs of many calls. -/

inductive Status where
  /-- The tool body is awaited; whether the signal it was given is aborted. -/
  | running (aborted : Bool)
  | settled (output : Value)

/-- A call and what was decided of it. -/
structure Admission where
  id : ℕ
  call : Call
  decision : Decision
  evicted : Option Text

/-- What became of a call so far, and what the observer of the call was told. -/
structure CallRecord extends Admission where
  status : Status
  events : List ReadToolOperationalEvent
  released : ℕ

structure State where
  limiter : Limiter
  calls : List CallRecord

def initial : State := ⟨.empty, []⟩

/-- The code of a denial. -/
def denialCode (descriptor : ReadToolDescriptor) : Decision → Option ReadToolErrorCode
  | .invalid => some descriptor.errorMapping.validation
  | .untracked | .windowDenied | .concurrencyDenied => some descriptor.errorMapping.unavailable
  | .admitted _ => none

/-- The record of a call at its `await`, or at its end where it is denied. -/
def opened (platform : Platform) (id : ℕ) (call : Call) (decision : Decision)
    (evicted : Option Text) : CallRecord :=
  match denialCode (call.tool.descriptor platform) decision with
  | some code => ⟨⟨id, call, decision, evicted⟩, .settled (createReadToolError code),
      [emit platform call (blocked 0 code) call.denyAt], 0⟩
  | none => ⟨⟨id, call, decision, evicted⟩, .running false, [], 0⟩

inductive Label where
  | invoke (id : ℕ) (call : Call)
  /-- The deadline timer of the executor. -/
  | timer (id : ℕ)
  /-- The caller's signal. -/
  | abort (id : ℕ)
  /-- The promise of the tool body settles and the executor goes on; the clock reading
  is that of the event. -/
  | settle (id : ℕ) (result : Except Value Value) (now : ℚ)

def CallRecord.markAborted (record : CallRecord) : CallRecord :=
  match record.status with
  | .running _ => { record with status := .running true }
  | .settled _ => record

/-- A record after its execution. -/
def CallRecord.close (platform : Platform) (record : CallRecord) (aborted : Bool)
    (result : Except Value Value) (now : ℚ) : CallRecord :=
  let conclusion := conclude platform (record.call.tool.descriptor platform) record.call.requestId
    aborted result
  { record with
    status := .settled conclusion.output
    events := record.events ++ [emit platform record.call conclusion now]
    released := record.released + 1 }

/-- The record of a call is replaced. -/
def updateCall (id : ℕ) (f : CallRecord → CallRecord) (calls : List CallRecord) : List CallRecord :=
  calls.map fun record => if record.id = id then f record else record

def step (platform : Platform) (s : State) : Label → Option State
  | .invoke id call =>
    if s.calls.any fun record => record.id = id then none
    else
      let (limiter, decision) := judge platform s.limiter call
      some ⟨limiter, s.calls ++
        [opened platform id call decision (evictedBy platform s.limiter call)]⟩
  | .timer id | .abort id => some { s with calls := updateCall id CallRecord.markAborted s.calls }
  | .settle id result now =>
    match s.calls.find? fun record => record.id = id with
    | some record =>
      match record.status, record.decision with
      | .running aborted, .admitted ref =>
        some ⟨releaseConcurrency s.limiter ref,
          updateCall id (fun record => record.close platform aborted result now) s.calls⟩
      | _, _ => none
    | none => none

end Governor
