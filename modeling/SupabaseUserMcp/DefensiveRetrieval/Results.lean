import SupabaseUserMcp.DefensiveRetrieval.Dispatch
import SupabaseUserMcp.ReadTools.Outputs

/- What a call returns, from what `run` returns. A client is known by the replies it may
   give to a dispatch. Whatever `run` makes of what the tools make of such replies is what
   the call returns, unless the race was lost or an error was thrown. -/
namespace DefensiveRetrieval

open Js ReadTools
open FixedClient (respond)
open Inspection (property)
open Process (Along Ensures Exchange execute invariant_along ensures_ask ensures_done)

/-! ## Clients -/

def Event.call? : Event → Option Dispatch
  | .dispatched call => some call
  | _ => none

/-- The call that a pending tool waits for. -/
def lastCall (log : List Event) : Option Dispatch := (log.filterMap Event.call?).getLast?

/-- The client replies to its calls as it may. -/
def Answered (answers : Dispatch → ClientReply → Prop) (s : Execution) : Label → Prop
  | .client reply => ∀ call ∈ lastCall s.log, answers call reply
  | _ => True

section Exchanges

variable (platform : Platform) (answers : Dispatch → ClientReply → Prop)

/-- What a tool may return for an input. -/
def MayReturn (tool : Tool) (input : Value) (output : Except Unit Value) : Prop :=
  (tool.inputSchema platform input = none ∧ output = .ok (createReadToolError .invalidRequest)) ∨
  ∃ data reply toolAborted, tool.inputSchema platform input = some data ∧ reply.tool = tool ∧
    answers ⟨tool, data⟩ reply ∧ output = conclude platform toolAborted reply

def MayExchange : Exchange Request Reply → Prop
  | ⟨.search input, output⟩ => MayReturn platform answers .search input output
  | ⟨.get input, output⟩ => MayReturn platform answers .get input output
  | ⟨.aborted, _⟩ | ⟨.cancelled, _⟩ => True

/-- Whatever the tools return, the result is one a property holds of. -/
def Yields (good : Except Unit Value → Prop) (p : Retrieval (Except Unit Value)) : Prop :=
  Ensures p fun trace result => (∀ x ∈ trace, MayExchange platform answers x) → good result

end Exchanges

section Rules

variable {platform : Platform} {answers : Dispatch → ClientReply → Prop}
  {good : Except Unit Value → Prop}

theorem yields_done {result : Except Unit Value} :
    Yields platform answers good (.done result) ↔ good result := by
  refine ensures_done.trans ⟨fun h => h fun x hx => absurd hx List.not_mem_nil, fun h _ => h⟩

/-- After a reply it may have got a program yields what it did before. -/
theorem Yields.reply {q : Request} {next : Reply q → Retrieval (Except Unit Value)}
    (h : Yields platform answers good (.ask q next)) {reply : Reply q}
    (hreply : MayExchange platform answers ⟨q, reply⟩) :
    Yields platform answers good (next reply) := by
  refine (ensures_ask.mp h reply).mono fun trace result hgood htrace => hgood fun x hx => ?_
  cases List.mem_cons.mp hx with
  | inl heq => rw [heq]; exact hreply
  | inr hx => exact htrace x hx

theorem yields_ask {q : Request} {next : Reply q → Retrieval (Except Unit Value)}
    (h : ∀ reply, MayExchange platform answers ⟨q, reply⟩ →
      Yields platform answers good (next reply)) :
    Yields platform answers good (.ask q next) := by
  refine ensures_ask.mpr fun reply trace result hrun htrace => ?_
  exact h reply (htrace _ List.mem_cons_self) trace result hrun fun x hx =>
    htrace x (List.mem_cons_of_mem _ hx)

end Rules

/-! ## Tools -/

section Tools

variable {platform : Platform} {answers : Dispatch → ClientReply → Prop}

theorem isOk_createReadToolError (code : ReadToolErrorCode) :
    isOk (createReadToolError code) = false := by
  cases code <;> rfl

theorem caught_cases {toolAborted : Bool} {cause : Cause} {output : Value}
    (h : caught toolAborted cause = .ok output) : ∃ code, output = createReadToolError code := by
  cases cause with
  | client code => exact ⟨_, (Except.ok.inj h).symm⟩
  | other => exact ⟨_, (Except.ok.inj h).symm⟩
  | unreadable =>
    rw [caught] at h
    split at h
    · exact ⟨_, (Except.ok.inj h).symm⟩
    · cases h

/-- What a schema makes of a candidate, or an error in its place. -/
theorem validated_cases {read : FixedClient.MemoryRead} {success : Schema Value} {candidate : Value}
    {fallback : ReadToolErrorCode} (hstable : Stable success)
    (hschema : (read.tool.descriptor platform).outputSchema = toolOutputSchema platform success) :
    success (FixedClient.validated platform read candidate fallback) =
        some (FixedClient.validated platform read candidate fallback) ∨
      ∃ code, FixedClient.validated platform read candidate fallback = createReadToolError code := by
  rw [FixedClient.validated, hschema]
  cases hdata : toolOutputSchema platform success candidate with
  | none => exact .inr ⟨fallback, rfl⟩
  | some data => exact (toolOutputSchema_eq_some hdata).imp (hstable _ _) id

def Tool.successSchema : Tool → Schema Value
  | .search => memorySearchSuccessSchema
  | .get => memoryGetSuccessSchema

/-- A tool returns a success of its own or one of the five errors. -/
theorem mayReturn_cases {tool : Tool} {input output : Value}
    (h : MayReturn platform answers tool input (.ok output)) :
    Tool.successSchema tool output = some output ∨ ∃ code, output = createReadToolError code := by
  obtain ⟨-, houtput⟩ | ⟨data, reply, toolAborted, -, htool, -, houtput⟩ := h
  · exact .inr ⟨_, Except.ok.inj houtput⟩
  · cases reply with
    | searched reply =>
      obtain rfl : Tool.search = tool := htool
      cases reply with
      | error cause => exact .inr (caught_cases houtput.symm)
      | ok answer =>
        rw [Except.ok.inj houtput]
        obtain ⟨rows, nextCursor⟩ := answer
        simp only [respond]
        split
        · exact .inr ⟨_, rfl⟩
        · exact validated_cases stable_memorySearchSuccessSchema rfl
    | got reply =>
      obtain rfl : Tool.get = tool := htool
      cases reply with
      | error cause => exact .inr (caught_cases houtput.symm)
      | ok answer =>
        rw [Except.ok.inj houtput]
        cases answer with
        | none => exact .inr ⟨_, rfl⟩
        | some row => exact validated_cases stable_memoryGetSuccessSchema rfl

theorem error_of_not_isOk {tool : Tool} {input output : Value}
    (h : MayReturn platform answers tool input (.ok output))
    (hok : isOk output = false) : ∃ code, output = createReadToolError code := by
  refine (mayReturn_cases h).resolve_left fun hsuccess => ?_
  have htrue : isOk output = true := by
    cases tool with
    | search =>
      obtain ⟨_, _, _, -, rfl⟩ := successSchema_cons_eq_some hsuccess
      rfl
    | get =>
      obtain ⟨_, _, _, -, rfl⟩ := successSchema_cons_eq_some hsuccess
      rfl
  rw [htrue] at hok
  cases hok

theorem success_of_isOk {tool : Tool} {input output : Value}
    (h : MayReturn platform answers tool input (.ok output))
    (hok : isOk output = true) : Tool.successSchema tool output = some output := by
  refine (mayReturn_cases h).resolve_right fun herror => ?_
  obtain ⟨code, rfl⟩ := herror
  rw [isOk_createReadToolError] at hok
  cases hok

end Tools

/-! ## The sequence -/

/-- The searches of a run, each with its query. -/
inductive Searches (platform : Platform) (unsafeInput : Value) : Value → Text → Prop
  | first {input : Value} : memorySearchInputSchema platform unsafeInput = some input →
    Searches platform unsafeInput input ((stringOf "query" input).getD [])
  | retry {input : Value} : memorySearchInputSchema platform unsafeInput = some input →
    isDefined "cursor" input = false → Searches platform unsafeInput
      (withQuery (normalizedQuery ((stringOf "query" input).getD [])) input)
      (normalizedQuery ((stringOf "query" input).getD []))

/-- A property holds of the fixed failures and of the errors of the tools. -/
structure Fails (P : Value → Prop) : Prop where
  failure : ∀ code, P (failure code)
  error : ∀ code query, P (outputOf .error (createReadToolError code) query)

/-- A property holds of what a run makes of the result of its last search. -/
structure Resolves (platform : Platform) (answers : Dispatch → ClientReply → Prop)
    (P : Value → Prop) (result : Value) (query : Text) : Prop where
  partialResult : isDefined "nextCursor" result = true → P (outputOf .partialResult result query)
  noMatch : isDefined "nextCursor" result = false → itemsOf "items" result = [] →
    P (outputOf .noMatchWithinSearchedScope result query)
  ambiguous : isDefined "nextCursor" result = false → 2 ≤ (itemsOf "items" result).length →
    P (outputOf .ambiguous result query)
  found : isDefined "nextCursor" result = false → ∀ candidate exact,
    itemsOf "items" result = [candidate] → MayReturn platform answers .get
      (.object [property "id" (.string ((stringOf "id" candidate).getD []))]) (.ok exact) →
    isOk exact = true → P (outputOf .found exact query)

/-- The output, where there is one, has a property. -/
def Holds (P : Value → Prop) (result : Except Unit Value) : Prop :=
  ∀ output, result = .ok output → P output

section Sequence

variable {platform : Platform} {answers : Dispatch → ClientReply → Prop} {P : Value → Prop}
  {requestId : Value}

theorem yields_output {output : Value} (h : P output) :
    Yields platform answers (Holds P) (.done (.ok output)) := by
  refine yields_done.mpr fun other heq => ?_
  rw [← Except.ok.inj heq]
  exact h

theorem yields_throw (e : Unit) : Yields platform answers (Holds P) (.done (.error e)) :=
  yields_done.mpr fun _ heq => nomatch heq

theorem yields_finish (hP : Fails P) {outcome : Outcome} {result : Value} {query : Text}
    (h : P (outputOf outcome result query)) : Yields platform answers (Holds P)
      (.done (.ok (finish platform requestId outcome result query))) := by
  refine yields_output ?_
  rw [finish]
  split
  · exact h
  · exact hP.failure _

/-- The question whether the signal is aborted, and the failure where it is. -/
theorem yields_unlessAborted (hP : Fails P) {next : Retrieval (Except Unit Value)}
    (h : Yields platform answers (Holds P) next) :
    Yields platform answers (Holds P) (DefensiveRetrieval.request .aborted >>= fun aborted =>
      if aborted then return .ok (failure .deadlineExceeded) else next) := by
  refine yields_ask fun aborted _ => ?_
  cases aborted with
  | true => exact yields_output (hP.failure _)
  | false => exact h

/-- From a tool's output on, with what follows a success. -/
theorem yields_returned (hP : Fails P) {tool : Tool} {input output : Value} {query : Text}
    {next : Retrieval (Except Unit Value)}
    (hreply : MayReturn platform answers tool input (.ok output))
    (h : isOk output = true → Yields platform answers (Holds P) next) :
    Yields platform answers (Holds P) (if !isOk output then
      return .ok (finish platform requestId .error output query) else next) := by
  cases hok : isOk output with
  | true => exact h hok
  | false =>
    obtain ⟨code, rfl⟩ := error_of_not_isOk hreply hok
    exact yields_finish hP (hP.error code query)

theorem yields_resolveCandidate (hP : Fails P) {result : Value} {query : Text}
    (h : Resolves platform answers P result query) :
    Yields platform answers (Holds P) (resolveCandidate platform requestId result query) := by
  rw [resolveCandidate]
  cases hcursor : isDefined "nextCursor" result with
  | true => exact yields_finish hP (h.partialResult hcursor)
  | false =>
    rw [if_neg Bool.false_ne_true]
    cases hitems : itemsOf "items" result with
    | nil => exact yields_finish hP (h.noMatch hcursor hitems)
    | cons candidate rest =>
      cases rest with
      | cons second rest =>
        refine yields_finish hP (h.ambiguous hcursor ?_)
        rw [hitems]
        exact Nat.le_add_left _ _
      | nil =>
        refine yields_ask fun reply hreply => ?_
        cases reply with
        | error _ => exact yields_throw ()
        | ok exact =>
          refine yields_unlessAborted hP ?_
          split
          · exact yields_output (hP.failure _)
          · cases hok : isOk exact with
            | true => exact yields_finish hP (h.found hcursor candidate exact hitems hreply hok)
            | false =>
              obtain ⟨code, rfl⟩ := error_of_not_isOk hreply hok
              exact yields_finish hP (hP.error code query)

/-- A run has a property that its failures have and what it makes of its last search. -/
theorem yields_run (hP : Fails P) (unsafeInput : Value)
    (h : ∀ input query result, Searches platform unsafeInput input query →
      MayReturn platform answers .search input (.ok result) → isOk result = true →
      Resolves platform answers P result query) :
    Yields platform answers (Holds P) (run platform requestId unsafeInput) := by
  rw [run]
  refine yields_unlessAborted hP ?_
  cases hinput : memorySearchInputSchema platform unsafeInput with
  | none => exact yields_output (hP.failure _)
  | some input =>
    refine yields_ask fun reply hreply => ?_
    cases reply with
    | error _ => exact yields_throw ()
    | ok result =>
      refine yields_unlessAborted hP (yields_returned hP hreply fun hok => ?_)
      dsimp only
      split
      · next hretry =>
        have hcursor : isDefined "cursor" input = false := by
          simp only [Bool.and_eq_true, Bool.not_eq_true'] at hretry
          exact hretry.1.2
        refine yields_ask fun reply hreply => ?_
        cases reply with
        | error _ => exact yields_throw ()
        | ok result =>
          refine yields_unlessAborted hP (yields_returned hP hreply fun hok => ?_)
          exact yields_resolveCandidate hP (h _ _ _ (.retry hinput hcursor) hreply hok)
      · exact yields_resolveCandidate hP (h _ _ _ (.first hinput) hreply hok)

end Sequence

/-! ## The machine -/

section Machine

variable {platform : Platform} {answers : Dispatch → ClientReply → Prop}
  {good : Except Unit Value → Prop}

variable (platform answers good) in
/-- What is left of the sequence yields what it should, wherever it is. -/
def PhaseYields (log : List Event) : Phase → Prop
  | .pending tool next => ∃ data, lastCall log = some ⟨tool, data⟩ ∧
      ∀ reply toolAborted, reply.tool = tool → answers ⟨tool, data⟩ reply →
        Yields platform answers good (next (conclude platform toolAborted reply))
  | .answered reply next => ∀ toolAborted,
      Yields platform answers good (next (conclude platform toolAborted reply))
  | .returned output next => Yields platform answers good (next output)
  | .settled => True

variable (platform answers good) in
/-- The sequence, the race and the call, each as far as it has got. -/
structure Yielding (s : Execution) : Prop where
  phase : PhaseYields platform answers good s.log s.phase
  raced : ∀ result, s.raced = some result → good result ∨ result = .ok (failure .deadlineExceeded)
  result : ∀ output, s.result = some output → good (.ok output) ∨
    output = failure .deadlineExceeded ∨ output = failure .internalError

theorem lastCall_append_of_none {log : List Event} {event : Event} (h : event.call? = none) :
    lastCall (log ++ [event]) = lastCall log := by
  rw [lastCall, List.filterMap_append, List.filterMap_cons_none h, List.filterMap_nil,
    List.append_nil, lastCall]

theorem lastCall_dispatched (log : List Event) (call : Dispatch) :
    lastCall (log ++ [.dispatched call]) = some call := by
  rw [lastCall, List.filterMap_append]
  exact List.getLast?_concat

theorem PhaseYields.aborted {log : List Event} {phase : Phase}
    (h : PhaseYields platform answers good log phase) :
    PhaseYields platform answers good (log ++ [.aborted]) phase := by
  cases phase with
  | pending tool next =>
    obtain ⟨data, hcall, hnext⟩ := h
    exact ⟨data, (lastCall_append_of_none rfl).trans hcall, hnext⟩
  | answered reply next => exact h
  | returned output next => exact h
  | settled => trivial

theorem yielding_callTool {s : Execution} {tool : Tool} {input : Value}
    {next : Except Unit Value → Retrieval (Except Unit Value)}
    (h : Yielding platform answers good s)
    (hnext : ∀ output, MayReturn platform answers tool input output →
      Yields platform answers good (next output)) :
    Yielding platform answers good (callTool platform s tool input next) := by
  unfold callTool
  cases hdata : tool.inputSchema platform input with
  | none => exact ⟨hnext _ (.inl ⟨hdata, rfl⟩), h.raced, h.result⟩
  | some data =>
    refine ⟨⟨data, lastCall_dispatched s.log _, ?_⟩, h.raced, h.result⟩
    intro reply toolAborted htool hanswers
    exact hnext _ (.inr ⟨data, reply, toolAborted, hdata, htool, hanswers, rfl⟩)

theorem yielding_advance : ∀ {p : Retrieval (Except Unit Value)} {s : Execution},
    Yielding platform answers good s → Yields platform answers good p →
    Yielding platform answers good (advance platform s p) := by
  intro p
  induction p with
  | done result =>
    intro s h hp
    refine ⟨trivial, fun other hother => ?_, h.result⟩
    have hor : s.raced.or (some result) = some other := hother
    cases hraced : s.raced with
    | none =>
      rw [hraced] at hor
      obtain rfl : result = other := Option.some.inj hor
      exact .inl (yields_done.mp hp)
    | some first =>
      rw [hraced] at hor
      obtain rfl : first = other := Option.some.inj hor
      exact h.raced first hraced
  | ask request next ih =>
    intro s h hp
    cases request with
    | aborted => exact ih _ h (hp.reply trivial)
    | cancelled => exact ih _ h (hp.reply trivial)
    | search input => exact yielding_callTool h fun output houtput => hp.reply houtput
    | get input => exact yielding_callTool h fun output houtput => hp.reply houtput

theorem yielding_step {s t : Execution} {label : Label} (h : Yielding platform answers good s)
    (hlabel : Answered answers s label) (hstep : step platform s label = some t) :
    Yielding platform answers good t := by
  have hphase := h.phase
  cases label with
  | abort =>
    rw [step] at hstep
    split at hstep
    · cases hstep
    · cases hstep
      refine ⟨hphase.aborted, fun result hresult => ?_, h.result⟩
      cases hraced : s.raced with
      | none =>
        rw [hraced] at hresult
        exact .inr (Option.some.inj hresult).symm
      | some first =>
        rw [hraced] at hresult
        exact h.raced result (hraced.trans hresult)
  | toolTimer =>
    cases hstep
    exact ⟨hphase, h.raced, h.result⟩
  | client reply =>
    rw [step] at hstep
    split at hstep
    · next tool next hpending =>
      rw [hpending] at hphase
      obtain ⟨data, hcall, hnext⟩ := hphase
      split at hstep
      · next htool =>
        cases hstep
        refine ⟨fun toolAborted => hnext reply toolAborted htool ?_, h.raced, h.result⟩
        exact hlabel _ hcall
      · cases hstep
    · cases hstep
  | resume =>
    rw [step] at hstep
    split at hstep
    · next reply next hanswered =>
      rw [hanswered] at hphase
      cases hstep
      exact ⟨hphase s.toolAborted, h.raced, h.result⟩
    · next output next hreturned =>
      rw [hreturned] at hphase
      cases hstep
      exact yielding_advance h hphase
    · cases hstep
  | finish =>
    rw [step] at hstep
    split at hstep
    · next output hraced _ =>
      cases hstep
      refine ⟨hphase, h.raced, fun other hother => ?_⟩
      obtain rfl : output = other := Option.some.inj hother
      exact (h.raced _ hraced).imp id fun heq => .inl (Except.ok.inj heq)
    · cases hstep
      refine ⟨hphase, h.raced, fun other hother => .inr ?_⟩
      obtain rfl := Option.some.inj hother
      split
      · exact .inl rfl
      · exact .inr rfl
    · cases hstep

/-- A call returns what its sequence does, or one of two failures. -/
theorem result_of_execute {requestId unsafeInput : Value} {aborted : Bool} {s₀ s : Execution}
    {labels : List Label} {output : Value}
    (hrun : Yields platform answers good (run platform requestId unsafeInput))
    (hstart : start platform requestId unsafeInput aborted = .ok s₀)
    (hclient : Along (step platform) (Answered answers) s₀ labels)
    (h : execute (step platform) s₀ labels = some s) (hresult : s.result = some output) :
    good (.ok output) ∨ output = failure .deadlineExceeded ∨ output = failure .internalError := by
  obtain ⟨-, -, hstart⟩ := bind_eq_ok.mp hstart
  cases hstart
  have hinitial : Yielding platform answers good
      ⟨.settled, false, if aborted then some (.ok (failure .deadlineExceeded)) else none, none,
        if aborted then [.aborted] else []⟩ := by
    refine ⟨trivial, fun result hraced => .inr ?_, fun output hnone => by cases hnone⟩
    cases aborted with
    | false => cases hraced
    | true => exact (Option.some.inj hraced).symm
  exact (invariant_along yielding_step (yielding_advance hinitial hrun) hclient h).result output
    hresult

end Machine

end DefensiveRetrieval
