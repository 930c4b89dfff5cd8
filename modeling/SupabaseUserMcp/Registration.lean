import SupabaseUserMcp.Inspector
import SupabaseUserMcp.Process.Machine
import SupabaseUserMcp.ReceiptJournal

/- `artifact-mcp-registration.ts`: one registered call of an artifact operation.
   Four parties take turns: the operation with its dependencies, the journal, the
   deadline timer and the caller, who may abort. A step is what runs between two
   points where another of them can come in; a callback of an observer is such a
   point for an abort and for nothing else. Both observers are there, an absent
   one seeing nothing, and what they throw is dropped. -/
namespace Registration

open Js Inspection Inspector ReceiptJournal
open Process (Program)

/-! The context of a call. -/

/-- `createArtifactRequestCorrelationRef`. -/
def createArtifactRequestCorrelationRef (platform : Platform) (requestId : Value) : Text :=
  text "mcp_req:" ++
    platform.sha256Hex (encodeUtf8 (stringify platform.fractionText requestId))

def contextProperties (context : ArtifactInspectorTrustedContext) : List (Text × Value) :=
  [property "principalRef" (.string context.principalRef),
    property "inspectorClientRef" (.string context.inspectorClientRef),
    property "inspectorCapabilityRef" (.object
      [property "capability" (.string (text "artifact:inspect")),
        property "ref" (.string context.inspectorCapabilityRef)]),
    property "verifierAudience" (.string context.verifierAudience),
    property "policyVersion" (.string context.policyVersion),
    property "inspectorDeploymentGitCoordinate"
      (.string context.inspectorDeploymentGitCoordinate)]

/-- A context as the object the operation is handed. -/
def contextValue (context : ArtifactInspectorTrustedContext) : Value :=
  .object (contextProperties context ++ (context.requestCorrelationId.map fun id =>
    property "requestCorrelationId" (.string id)).toList)

/-- The arguments of `executeRegisteredArtifactOperation`, and the clock at its start. -/
structure RegisteredCall where
  platform : Platform
  operation : ArtifactInspectionOperation
  context : ArtifactInspectorTrustedContext
  input : Value
  startedAtMs : ℚ

/-- `inspect(inspector)`. -/
def RegisteredCall.inspection (call : RegisteredCall) : Inspection Settled :=
  inspect call.platform call.operation (contextValue call.context) call.input

/-! The state of a call. -/

/-- What the two observers see, by who emits it. -/
inductive Observation where
  | receipt (receipt : ArtifactInspectionReceipt)
  | inspectorEvent (event : ArtifactInspectorOperationalEvent)
  | registrationEvent (event : ArtifactInspectorOperationalEvent)
  deriving DecidableEq, Repr

inductive Phase where
  /-- The operation, as far as it has come. -/
  | inspecting (rest : Inspection Settled)
  /-- `gate.commit` at the journal, for an output of the operation. -/
  | committing (output : InspectionOutput)
      (rest : Program Append AppendReply (Option ArtifactReceiptJournalAcknowledgement))
  /-- The outcome is determined, with evidence still to forward before its promise
  settles. -/
  | settling (output : InspectionOutput) (pending : List Observation)
  | settled (output : InspectionOutput)

/-- The winner of `Promise.race`. -/
inductive Outcome where
  | output (output : InspectionOutput)
  | deadline
  deriving DecidableEq, Repr

/-- The flags of the source, and what the outside has seen. -/
structure State where
  phase : Phase
  exchanged : List (Process.Exchange Request Inspector.Reply)
  isOpen : Bool
  committed : Bool
  events : List ArtifactInspectorOperationalEvent
  receipts : List ArtifactInspectionReceipt
  journalFailure : Bool
  race : Option Outcome
  returned : Option InspectionOutput
  appended : List Append
  journalReplies : List (Except Unit Value)
  observed : List Observation

def initial (call : RegisteredCall) : State :=
  ⟨.inspecting call.inspection, [], true, false, [], [], false, none, none, [], [], []⟩

/-! The observer gate. -/

/-- The gated observers never throw; everything else is passed through. -/
def gatedReply (reply : ∀ q, Inspector.Reply q) : ∀ q, Inspector.Reply q
  | .performanceNow => reply .performanceNow
  | .now => reply .now
  | .resolveAuthorizedArtifact context artifactId =>
    reply (.resolveAuthorizedArtifact context artifactId)
  | .readVersionedRange context locator version offset length =>
    reply (.readVersionedRange context locator version offset length)
  | .emitOperationalEvent _ => .ok ()
  | .emitInspectionReceipt _ => .ok ()

/-- What a request leaves in the buffers. -/
def State.buffer (s : State) : Request → State
  | .emitOperationalEvent event =>
    if s.isOpen && !s.committed then { s with events := s.events ++ [event] } else s
  | .emitInspectionReceipt receipt =>
    if s.isOpen && !s.committed then { s with receipts := s.receipts ++ [receipt] } else s
  | _ => s

def State.evidence (s : State) : List Observation :=
  s.receipts.map .receipt ++ s.events.map .inspectorEvent

/-- The rest of `commit` once its receipt, if any, is acknowledged. -/
def State.forwardEvidence (s : State) (output : InspectionOutput) : State :=
  if s.isOpen then { s with committed := true, phase := .settling output s.evidence }
  else { s with phase := .settling output [] }

/-- A rejected `commit`. -/
def State.failJournal (s : State) : State :=
  { s with journalFailure := true, phase := .settling (.error .internalError) [] }

/-- `commit`, to its first `await`. -/
def State.commit (platform : Platform) (s : State) (output : InspectionOutput) : State :=
  if !s.isOpen || s.committed || s.receipts.length > 1 then s.failJournal
  else
    match s.receipts with
    | [] => s.forwardEvidence output
    | receipt :: _ =>
      match artifactInspectionReceiptSha256 platform receipt with
      | none => s.failJournal
      | some digest =>
        match appendArtifactInspectionReceipt platform receipt digest with
        | .done none => s.failJournal
        | .done (some _) => s.forwardEvidence output
        | .ask append next =>
          { s with phase := .committing output (.ask append next),
                   appended := s.appended ++ [append] }

/-! The end of a call. -/

def Outcome.toOutput : Outcome → InspectionOutput
  | .output own => own
  | .deadline => .error .deadlineExceeded

/-- An output is the fixed one exactly when it has its code, which determines its
message and that it is not retryable. -/
def isFixedDeadlineExceededOutput (output : InspectionOutput) : Bool :=
  match output with
  | .error code => code == .deadlineExceeded
  | _ => false

/-- The event of the registration itself. -/
def registrationEvent (call : RegisteredCall) (code : ArtifactInspectionErrorCode)
    (elapsedMs : ℚ) : ArtifactInspectorOperationalEvent :=
  ⟨call.operation, .error code, call.context.requestCorrelationId, elapsedMs, none⟩

def emitRegistrationDeadlineEvent (call : RegisteredCall) (now : ℚ) : Observation :=
  .registrationEvent (registrationEvent call .deadlineExceeded
    (min maxArtifactToolExecutionMs (max 0 (now - call.startedAtMs))))

def emitRegistrationInternalErrorEvent (call : RegisteredCall) (now : ℚ) : Observation :=
  .registrationEvent (registrationEvent call .internalError (max 0 (now - call.startedAtMs)))

/-- After the race: close the gate, emit the event of the registration, return. -/
def State.close (call : RegisteredCall) (s : State) (outcome : Outcome) (now : ℚ) : State :=
  let output := outcome.toOutput
  { s with
    isOpen := false, events := [], receipts := [], returned := some output
    observed := s.observed ++
      (if isFixedDeadlineExceededOutput output then [emitRegistrationDeadlineEvent call now]
      else if s.journalFailure then [emitRegistrationInternalErrorEvent call now]
      else []) }

/-! Steps. -/

/-- The requests that are awaited; the others return at once. -/
def isAwaited : Request → Bool
  | .resolveAuthorizedArtifact .. => true
  | .readVersionedRange .. => true
  | _ => false

/-- Between two turns of the event loop's microtasks. -/
def Phase.isBetween : Phase → Bool
  | .inspecting (.ask q _) => isAwaited q
  | .inspecting (.done _) => true
  | .committing .. => true
  | .settling _ pending => pending.isEmpty
  | .settled _ => true

/-- Waiting for a dependency or the journal: only then are no microtasks left and
may the timer fire. -/
def Phase.isWaiting : Phase → Bool
  | .inspecting (.ask q _) => isAwaited q
  | .committing _ (.ask ..) => true
  | _ => false

inductive Label where
  /-- What the dependencies would answer is given for every request. -/
  | inspect (reply : ∀ q, Inspector.Reply q)
  | commit
  | journal (reply : ∀ append, AppendReply append)
  | acknowledge
  | forward (reply : Except Unit Unit)
  | settle
  | timer
  | abort
  | close (now : ℚ)

/-- The first to come decides the race. -/
def State.decide (s : State) (outcome : Outcome) : State :=
  { s with race := s.race.or (some outcome) }

def step (call : RegisteredCall) (s : State) : Label → Option State
  | .inspect reply =>
    match s.phase with
    | .inspecting (.ask q next) =>
      some { s.buffer q with phase := .inspecting (next (gatedReply reply q)),
                             exchanged := s.exchanged ++ [⟨q, gatedReply reply q⟩] }
    | _ => none
  | .commit =>
    match s.phase with
    | .inspecting (.done (.ok output)) => some (s.commit call.platform output)
    | .inspecting (.done (.error _)) =>
      some { s with phase := .settling (.error .internalError) [] }
    | _ => none
  | .journal reply =>
    match s.phase with
    | .committing output (.ask append next) =>
      some { s with phase := .committing output (next (reply append)),
                    journalReplies := s.journalReplies ++ [reply append] }
    | _ => none
  | .acknowledge =>
    match s.phase with
    | .committing _ (.done none) => some s.failJournal
    | .committing output (.done (some _)) => some (s.forwardEvidence output)
    | _ => none
  | .forward _ =>
    match s.phase with
    | .settling output (observation :: pending) =>
      some { s with phase := .settling output pending, observed := s.observed ++ [observation] }
    | _ => none
  | .settle =>
    match s.phase with
    | .settling output [] => some { s.decide (.output output) with phase := .settled output }
    | _ => none
  | .timer => if s.phase.isWaiting then some (s.decide .deadline) else none
  | .abort => some (s.decide .deadline)
  | .close now =>
    match s.race, s.returned with
    | some outcome, none => if s.phase.isBetween then some (s.close call outcome now) else none
    | _, _ => none

end Registration
