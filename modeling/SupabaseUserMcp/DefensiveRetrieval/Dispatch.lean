import SupabaseUserMcp.DefensiveRetrieval
import SupabaseUserMcp.FixedClient
import SupabaseUserMcp.Process.Machine

/- One call of a retrieval against a client that answers as it likes and a signal
   that may abort at any point. The sequence `run` goes on in the background once
   the race is lost, so each of its awaits is a point where an abort may fall: at
   the client's promise, at the tool's, and at its own before the call returns.
   Between two awaits nothing else happens, and what `run` asks there of its
   signal is answered by the events so far. -/
namespace DefensiveRetrieval

open Js ReadTools
open FixedClient (MemoryRead ClientErrorCode respond normalizeError)
open Process (execute execute_cons invariant_execute)

/-- The ungoverned tools. -/
inductive Tool where
  | search
  | get
  deriving DecidableEq, Repr

def Tool.inputSchema (platform : Platform) : Tool → Schema Value
  | search => memorySearchInputSchema platform
  | get => memoryGetInputSchema

/-- A call of the client, with the input it gets. -/
structure Dispatch where
  tool : Tool
  input : Value

/-- What the client rejects with: an error with a code, another, or one whose code
cannot be read. -/
inductive Cause where
  | client (code : ClientErrorCode)
  | other
  | unreadable

/-- What the client's promise settles with. -/
inductive ClientReply where
  | searched (reply : Except Cause (List Value × Option Text))
  | got (reply : Except Cause (Option Value))

def ClientReply.tool : ClientReply → Tool
  | searched _ => .search
  | got _ => .get

inductive Event where
  /-- The signal of the retrieval is aborted, by its caller or its timer. -/
  | aborted
  | dispatched (call : Dispatch)
  /-- The promise of a tool has settled. -/
  | returned (output : Except Unit Value)
  /-- The promise of `run` has settled. -/
  | settled

/-- Where `run` is, and how it goes on from a tool. -/
inductive Phase where
  | pending (tool : Tool) (next : Except Unit Value → Retrieval (Except Unit Value))
  | answered (reply : ClientReply) (next : Except Unit Value → Retrieval (Except Unit Value))
  | returned (output : Except Unit Value) (next : Except Unit Value → Retrieval (Except Unit Value))
  | settled

structure Execution where
  phase : Phase
  toolAborted : Bool
  /-- What the race has settled with. -/
  raced : Option (Except Unit Value)
  result : Option Value
  log : List Event

def Event.isAborted : Event → Bool
  | .aborted => true
  | _ => false

/-- `controller.signal.aborted`. -/
def isAborted (log : List Event) : Bool := log.any Event.isAborted

/-- `executeRaw` from its `catch` on. -/
def caught (toolAborted : Bool) : Cause → Except Unit Value
  | .client code => .ok (normalizeError code toolAborted)
  | .other => .ok (createReadToolError (if toolAborted then .deadlineExceeded else .internalError))
  | .unreadable => if toolAborted then .ok (createReadToolError .deadlineExceeded) else .error ()

/-- `executeRaw` from the client's promise on. -/
def conclude (platform : Platform) (toolAborted : Bool) : ClientReply → Except Unit Value
  | .searched (.ok answer) => .ok (respond platform .search answer)
  | .got (.ok answer) => .ok (respond platform .get answer)
  | .searched (.error cause) | .got (.error cause) => caught toolAborted cause

section Steps

variable (platform : Platform)

/-- A tool up to its `await` of the client. -/
def callTool (s : Execution) (tool : Tool) (input : Value)
    (next : Except Unit Value → Retrieval (Except Unit Value)) : Execution :=
  match tool.inputSchema platform input with
  | none =>
    let output := .ok (createReadToolError .invalidRequest)
    { s with phase := .returned output next, log := s.log ++ [.returned output] }
  | some data => { s with
      phase := .pending tool next, toolAborted := isAborted s.log,
      log := s.log ++ [.dispatched ⟨tool, data⟩] }

/-- `run` up to its next `await`. -/
def advance (s : Execution) : Retrieval (Except Unit Value) → Execution
  | .done result =>
    { s with phase := .settled, raced := s.raced.or (some result), log := s.log ++ [.settled] }
  | .ask .aborted next => advance s (next (isAborted s.log))
  | .ask .cancelled next => advance s (next (isAborted s.log))
  | .ask (.search input) next => callTool platform s .search input next
  | .ask (.get input) next => callTool platform s .get input next

/-- A retrieval up to its first `await`; its caller's signal may be aborted already. -/
def start (requestId unsafeInput : Value) (aborted : Bool) : Except InvocationError Execution := do
  checkRequestId requestId
  let log := if aborted then [.aborted] else []
  let raced := if aborted then some (.ok (failure .deadlineExceeded)) else none
  return advance platform ⟨.settled, false, raced, none, log⟩ (run platform requestId unsafeInput)

inductive Label where
  /-- The caller aborts its signal, or the timer of the retrieval fires. -/
  | abort
  /-- The timer of the running tool. -/
  | toolTimer
  | client (reply : ClientReply)
  /-- A promise of the program itself has settled and its `await` goes on. -/
  | resume
  /-- The call returns what the race has settled with. -/
  | finish

def step (s : Execution) : Label → Option Execution
  | .abort =>
    -- the listeners and the timer go with the return, and an abort comes once
    if s.result.isSome || isAborted s.log then none
    else some { s with
      toolAborted := true, raced := s.raced.or (some (.ok (failure .deadlineExceeded))),
      log := s.log ++ [.aborted] }
  | .toolTimer => some { s with toolAborted := true }
  | .client reply =>
    match s.phase with
    | .pending tool next =>
      if reply.tool = tool then some { s with phase := .answered reply next } else none
    | _ => none
  | .resume =>
    match s.phase with
    | .answered reply next =>
      let output := conclude platform s.toolAborted reply
      some { s with phase := .returned output next, log := s.log ++ [.returned output] }
    | .returned output next => some (advance platform s (next output))
    | _ => none
  | .finish =>
    match s.raced, s.result with
    | some (.ok output), none => some { s with result := some output }
    | some (.error _), none => some { s with
        result := some (failure (if isAborted s.log then .deadlineExceeded else .internalError)) }
    | _, _ => none

end Steps

/-! What a sequence may dispatch. -/

/-- Aborts that fell between two events of the program. -/
def Aborts (events : List Event) : Prop := ∀ event ∈ events, event = .aborted

section Obeys

variable (platform : Platform) (allowed : List Event → Dispatch → Prop)

/-- A tool that is called after the events of a log dispatches what is allowed
there, and goes on as told whatever it returns and whenever the signal aborts. -/
def CallObeys (tool : Tool) (input : Value) (log : List Event)
    (next : Except Unit Value → List Event → Prop) : Prop :=
  (tool.inputSchema platform input = none → ∀ aborts, Aborts aborts →
    next (.ok (createReadToolError .invalidRequest))
      (log ++ .returned (.ok (createReadToolError .invalidRequest)) :: aborts)) ∧
  ∀ data, tool.inputSchema platform input = some data → allowed log ⟨tool, data⟩ ∧
    ∀ output before after, Aborts before → Aborts after →
      next output (log ++ .dispatched ⟨tool, data⟩ :: before ++ .returned output :: after)

/-- Whatever a sequence dispatches after the events of a log is allowed there. -/
def Obeys : Retrieval (Except Unit Value) → List Event → Prop
  | .done _, _ => True
  | .ask .aborted next, log => Obeys (next (isAborted log)) log
  | .ask .cancelled next, log => Obeys (next (isAborted log)) log
  | .ask (.search input) next, log =>
    CallObeys platform allowed .search input log fun output log => Obeys (next output) log
  | .ask (.get input) next, log =>
    CallObeys platform allowed .get input log fun output log => Obeys (next output) log

/-- Every dispatch of a log is allowed where it stands. -/
def AllAllowed (log : List Event) : Prop :=
  ∀ before call after, log = before ++ .dispatched call :: after → allowed before call

/-- What is left of the sequence obeys, wherever it is. -/
def PhaseObeys (log : List Event) : Phase → Prop
  | .pending _ next | .answered _ next => ∀ output before after, Aborts before → Aborts after →
    Obeys platform allowed (next output) (log ++ before ++ .returned output :: after)
  | .returned output next => ∀ after, Aborts after →
    Obeys platform allowed (next output) (log ++ after)
  | .settled => True

end Obeys

section Rules

variable {platform : Platform} {allowed : List Event → Dispatch → Prop}

theorem allAllowed_append {log : List Event} {event : Event} (h : AllAllowed allowed log)
    (hevent : ∀ call, event = .dispatched call → allowed log call) :
    AllAllowed allowed (log ++ [event]) := by
  intro before call after hsplit
  rcases List.eq_nil_or_concat after with rfl | ⟨init, last, rfl⟩
  · obtain ⟨rfl, hlast⟩ := List.append_inj' hsplit rfl
    exact hevent call (List.cons.inj hlast).1
  · rw [List.concat_eq_append, ← List.cons_append, ← List.append_assoc] at hsplit
    obtain ⟨hlog, -⟩ := List.append_inj' hsplit rfl
    exact h before call init hlog

theorem aborts_nil : Aborts [] := fun _ h => absurd h List.not_mem_nil

theorem aborts_cons {events : List Event} (h : Aborts events) : Aborts (.aborted :: events) := by
  intro event hevent
  rcases List.mem_cons.mp hevent with rfl | hevent
  · rfl
  · exact h event hevent

/-- The tool is called where it is allowed, and what is left obeys. -/
theorem callTool_obeys {s : Execution} {tool : Tool} {input : Value}
    {next : Except Unit Value → Retrieval (Except Unit Value)} (hlog : AllAllowed allowed s.log)
    (h : CallObeys platform allowed tool input s.log fun output log =>
      Obeys platform allowed (next output) log) :
    AllAllowed allowed (callTool platform s tool input next).log ∧
      PhaseObeys platform allowed (callTool platform s tool input next).log
        (callTool platform s tool input next).phase := by
  unfold callTool
  cases hdata : tool.inputSchema platform input with
  | none =>
    refine ⟨allAllowed_append hlog (fun call heq => by cases heq), fun after hafter => ?_⟩
    rw [List.append_assoc]
    exact h.1 hdata after hafter
  | some data =>
    obtain ⟨hallowed, hnext⟩ := h.2 data hdata
    refine ⟨allAllowed_append hlog (fun call heq => ?_), ?_⟩
    · cases heq
      exact hallowed
    · intro output before after hbefore hafter
      have := hnext output before after hbefore hafter
      simpa using this

/-- Up to the next await nothing is dispatched that is not allowed. -/
theorem advance_obeys : ∀ {p : Retrieval (Except Unit Value)} {s : Execution},
    AllAllowed allowed s.log → Obeys platform allowed p s.log →
    AllAllowed allowed (advance platform s p).log ∧
      PhaseObeys platform allowed (advance platform s p).log (advance platform s p).phase := by
  intro p
  induction p with
  | done result =>
    intro s hlog _
    exact ⟨allAllowed_append hlog (fun call heq => by cases heq), trivial⟩
  | ask request next ih =>
    intro s hlog h
    cases request with
    | aborted => exact ih _ hlog h
    | cancelled => exact ih _ hlog h
    | search input => exact callTool_obeys hlog h
    | get input => exact callTool_obeys hlog h

/-- An abort falls into the events a sequence was ready for. -/
theorem PhaseObeys.abort {log : List Event} {phase : Phase}
    (h : PhaseObeys platform allowed log phase) :
    PhaseObeys platform allowed (log ++ [.aborted]) phase := by
  cases phase with
  | pending tool next =>
    intro output before after hbefore hafter
    simpa using h output (.aborted :: before) after (aborts_cons hbefore) hafter
  | answered reply next =>
    intro output before after hbefore hafter
    simpa using h output (.aborted :: before) after (aborts_cons hbefore) hafter
  | returned output next =>
    intro after hafter
    simpa using h (.aborted :: after) (aborts_cons hafter)
  | settled => trivial

theorem step_obeys {s t : Execution} {label : Label}
    (h : AllAllowed allowed s.log ∧ PhaseObeys platform allowed s.log s.phase)
    (hstep : step platform s label = some t) :
    AllAllowed allowed t.log ∧ PhaseObeys platform allowed t.log t.phase := by
  obtain ⟨hlog, hphase⟩ := h
  cases label with
  | abort =>
    rw [step] at hstep
    split at hstep
    · cases hstep
    · cases hstep
      exact ⟨allAllowed_append hlog (fun call heq => by cases heq), hphase.abort⟩
  | toolTimer =>
    cases hstep
    exact ⟨hlog, hphase⟩
  | client reply =>
    rw [step] at hstep
    split at hstep
    · next tool next hpending =>
      rw [hpending] at hphase
      split at hstep
      · cases hstep
        exact ⟨hlog, hphase⟩
      · cases hstep
    · cases hstep
  | resume =>
    rw [step] at hstep
    split at hstep
    · next reply next hanswered =>
      rw [hanswered] at hphase
      cases hstep
      refine ⟨allAllowed_append hlog (fun call heq => by cases heq), fun after hafter => ?_⟩
      simpa using hphase _ [] after aborts_nil hafter
    · next output next hreturned =>
      rw [hreturned] at hphase
      cases hstep
      exact advance_obeys hlog (by simpa using hphase [] aborts_nil)
    · cases hstep
  | finish =>
    rw [step] at hstep
    split at hstep
    · cases hstep
      exact ⟨hlog, hphase⟩
    · cases hstep
      exact ⟨hlog, hphase⟩
    · cases hstep

/-- Over any steps, a retrieval whose sequence obeys dispatches only what is allowed. -/
theorem execute_obeys {requestId unsafeInput : Value} {aborted : Bool} {s₀ s : Execution}
    {labels : List Label}
    (hrun : Obeys platform allowed (run platform requestId unsafeInput)
      (if aborted then [.aborted] else []))
    (hstart : start platform requestId unsafeInput aborted = .ok s₀)
    (h : execute (step platform) s₀ labels = some s) : AllAllowed allowed s.log := by
  obtain ⟨-, -, hstart⟩ := bind_eq_ok.mp hstart
  cases hstart
  have hnone : AllAllowed allowed (if aborted then [Event.aborted] else []) := by
    intro before call after hsplit
    cases aborted with
    | false => simp at hsplit
    | true =>
      rw [if_pos rfl, List.singleton_eq_append_iff] at hsplit
      simp at hsplit
  exact (invariant_execute step_obeys (advance_obeys hnone hrun) h).1

end Rules

end DefensiveRetrieval
