import SupabaseUserMcp.MemoryCall

/- Whether a deadline decides. Where the client's request fails, the tool body sees
   its signal aborted and says so. Where the upstream answers in full, nothing looks
   at the signal, and the answer is returned after the deadline as before it. -/
namespace MemoryCall

open Js ReadTools FixedClient Governor
open Inspection (isErrorOutput)
open Process (execute execute_cons invariant_execute)

/-! What an upstream delivers. -/

/-- What is read of a body, from what was read before. -/
def deliveredBody (client : Client) : Bytes → List Upstream → Option Value
  | body, .read (.ok none) :: _ => client.parseBody body
  | body, .read (.ok (some chunk)) :: rest =>
    if client.maxResponseBytes < body.length + chunk.length then none
    else deliveredBody client (body ++ chunk) rest
  | _, _ => none

/-- The payload of a response that is accepted, read to its end and parsed. -/
def delivered (client : Client) : List Upstream → Option Value
  | .fetched (.ok response) :: rest =>
    match client.refusal response with
    | some _ => none
    | none => if response.hasBody then deliveredBody client [] rest else client.parseBody []
  | _ => none

section Runs

variable {platform : Platform} {governed : Governed platform}

/-- The answer an upstream gives to a request, if it gives one. -/
def answeredBy (governed : Governed platform) (upstream : List Upstream) :
    Option (Answer governed.read) :=
  (delivered governed.client upstream).bind fun value =>
    (parsePayload governed.read governed.input value).toOption

/-- What the tool body comes to. -/
def Concluded (governed : Governed platform) (upstream : List Upstream) (fired : Bool)
    (output : Value) : Prop :=
  ∃ result aborted, answeredBy governed upstream = result.toOption ∧
    (fired = true → aborted = true) ∧ output = settle governed aborted result

/-- How far a call is, by what the upstream did. -/
def Replays (governed : Governed platform) (upstream : List Upstream) (fired : Bool) :
    Phase governed.read → Prop
  | .fetching => upstream = []
  | .reading body => ∀ rest, delivered governed.client (upstream ++ rest) =
      deliveredBody governed.client body rest
  | .cancelling => ∀ rest, delivered governed.client (upstream ++ rest) = none
  | .requested result => delivered governed.client upstream = result.toOption
  | .answered result => answeredBy governed upstream = result.toOption
  | .settled output => Concluded governed upstream fired output
  | .returned record => ∃ output aborted now, Concluded governed upstream fired output ∧
      record = governed.record.close platform aborted (.ok output) now

structure Sound (governed : Governed platform) (s : Execution governed.read) : Prop where
  aborts : s.executorAborted = true → s.toolAborted = true
  input : s.input = governed.input
  replays : Replays governed s.upstream s.fired s.phase

theorem reparse_input (governed : Governed platform) :
    reparse governed governed.input = some governed.input := by
  have hstable : Stable (governed.read.tool.descriptor platform).inputSchema := by
    cases governed.read with
    | search => exact stable_memorySearchInputSchema platform
    | get => exact stable_memoryGetInputSchema
    | listRecent => exact stable_memoryListRecentInputSchema
  exact hstable _ _ governed.parsed

theorem sound_start (aborted : Bool) : Sound governed (start governed aborted) := by
  have hstart : start governed aborted =
      ⟨.fetching, aborted, aborted, aborted, governed.input, [], aborted⟩ := by
    simp only [start, reparse_input]
  rw [hstart]
  exact ⟨id, rfl, rfl⟩

theorem toOption_parseBody (body : Bytes) :
    (parseBody governed body).toOption = governed.client.parseBody body := by
  unfold parseBody
  split
  · next hbody => exact hbody.symm
  · next hbody => exact hbody.symm

/-- The upstream moves the request as far as it delivers. -/
theorem Replays.proceed {upstream : List Upstream} {fired aborted : Bool}
    {phase next : Phase governed.read} {event : Upstream} (h : Replays governed upstream fired phase)
    (hnext : proceed governed aborted phase event = some next) :
    Replays governed (upstream ++ [event]) fired next := by
  unfold MemoryCall.proceed at hnext
  split at hnext
  · cases hnext
    subst h
    rfl
  · next response =>
    subst h
    cases hrefusal : governed.client.refusal response with
    | some code =>
      rw [hrefusal] at hnext
      cases hnext
      simp only [Replays, List.nil_append, delivered, hrefusal]
      rfl
    | none =>
      rw [hrefusal] at hnext
      cases hnext
      by_cases hbody : response.hasBody = true
      · rw [if_pos hbody]
        intro rest
        simp only [List.nil_append, List.singleton_append, delivered, hrefusal, hbody, if_true]
      · rw [if_neg hbody]
        simp only [Replays, List.nil_append, delivered, hrefusal, if_neg hbody, toOption_parseBody]
  · cases hnext
    exact h [_]
  · cases hnext
    exact (h [_]).trans (toOption_parseBody _).symm
  · next body chunk =>
    cases hnext
    by_cases hlarge : governed.client.maxResponseBytes < body.length + chunk.length
    · rw [if_pos hlarge]
      intro rest
      rw [List.append_assoc, h, List.singleton_append, deliveredBody, if_pos hlarge]
    · rw [if_neg hlarge]
      intro rest
      rw [List.append_assoc, h, List.singleton_append, deliveredBody, if_neg hlarge]
  · cases hnext
    exact h [_]
  · cases hnext
    exact h [_]
  · cases hnext

theorem sound_step {s t : Execution governed.read} {label : Label} (h : Sound governed s)
    (hstep : step governed s label = some t) : Sound governed t := by
  cases label with
  | deadline =>
    cases hstep
    exact ⟨fun _ => rfl, h.input, h.replays⟩
  | toolTimer =>
    cases hstep
    exact ⟨fun _ => rfl, h.input, h.replays⟩
  | clientTimer =>
    cases hstep
    exact ⟨h.aborts, h.input, h.replays⟩
  | upstream event =>
    obtain ⟨phase, hphase, rfl⟩ := Option.map_eq_some_iff.mp hstep
    exact ⟨h.aborts, h.input, h.replays.proceed hphase⟩
  | resume =>
    have hreplays := h.replays
    rw [step] at hstep
    cases hphase : s.phase with
    | requested result =>
      rw [hphase] at hstep hreplays
      cases hstep
      refine ⟨h.aborts, h.input, ?_⟩
      change answeredBy governed s.upstream = _
      rw [answeredBy, show delivered governed.client s.upstream = _ from hreplays, h.input]
      cases result <;> rfl
    | answered result =>
      rw [hphase] at hstep hreplays
      cases hstep
      exact ⟨h.aborts, h.input, result, s.toolAborted, hreplays, h.aborts, rfl⟩
    | _ =>
      rw [hphase] at hstep
      cases hstep
  | finish now =>
    have hreplays := h.replays
    rw [step] at hstep
    cases hphase : s.phase with
    | settled output =>
      rw [hphase] at hstep hreplays
      cases hstep
      exact ⟨h.aborts, h.input, output, s.executorAborted, now, hreplays, rfl⟩
    | _ =>
      rw [hphase] at hstep
      cases hstep

end Runs

/-! What an executor makes of a settled tool body. -/

section Conclusions

variable {platform : Platform}

/-- An error schema takes only values that say they are errors. -/
theorem isErrorOutput_of_readToolErrorOutputSchema {v w : Value}
    (h : readToolErrorOutputSchema v = some w) : isErrorOutput v = true := by
  obtain ⟨properties, parts, rfl, hparts, -⟩ := shape_eq_some h
  rw [List.mapM_cons] at hparts
  obtain ⟨part, hpart, -⟩ := Option.bind_eq_some_iff.mp hparts
  unfold Field.parse at hpart
  split at hpart
  · cases hpart
  · next v hv =>
    obtain ⟨w, hw, -⟩ := Option.map_eq_some_iff.mp hpart
    obtain ⟨u, hflag, -⟩ := Schema.map_eq_some.mp (show literalFlag false v = some w from hw)
    cases v with
    | bool b =>
      cases b with
      | false =>
        change Value.property properties (text "ok") = _ at hv
        simp only [isErrorOutput, hv]
      | true => cases hflag
    | _ => cases hflag

/-- A schema that a tool's success goes through, and no error does. -/
structure IsSuccessSchema (success : Schema Value) : Prop where
  saysOk : SaysOk success
  refuses : ∀ code, success (createReadToolError code) = none

/-- An output that is no error is none after it is parsed. -/
theorem isErrorOutput_toolOutputSchema {success : Schema Value} (h : IsSuccessSchema success)
    {v w : Value} (hv : isErrorOutput v = false) (hw : toolOutputSchema platform success v = some w) :
    isErrorOutput w = false := by
  obtain ⟨hunion, -⟩ := Schema.refine_eq_some.mp hw
  rw [Schema.union] at hunion
  cases hsuccess : success v with
  | some data =>
    rw [hsuccess] at hunion
    cases hunion
    exact h.saysOk v _ hsuccess
  | none =>
    rw [hsuccess] at hunion
    rw [isErrorOutput_of_readToolErrorOutputSchema hunion] at hv
    cases hv

/-- An error is parsed to itself. -/
theorem toolOutputSchema_error {success : Schema Value} (h : IsSuccessSchema success)
    (code : ReadToolErrorCode) :
    toolOutputSchema platform success (createReadToolError code) = some (createReadToolError code) := by
  refine Schema.refine_of ?_ ?_
  · rw [Schema.union, h.refuses code]
    cases code <;> rfl
  · have hnull : stringify? platform.fractionText .null = some (text "null") := rfl
    have hbytes := readToolWireResponseByteLength_error_le hnull code
    have hfour : utf8Length (text "null") = 4 := by decide
    refine decide_eq_true (hbytes.trans ?_)
    rw [hfour]
    decide

theorem exists_successSchema (platform : Platform) (read : MemoryRead) :
    ∃ success, IsSuccessSchema success ∧
    (read.tool.descriptor platform).outputSchema = toolOutputSchema platform success := by
  cases read with
  | search => exact ⟨_, ⟨saysOk_success _, fun code => by cases code <;> rfl⟩, rfl⟩
  | get => exact ⟨_, ⟨saysOk_success _, fun code => by cases code <;> rfl⟩, rfl⟩
  | listRecent => exact ⟨_, ⟨saysOk_success _, fun code => by cases code <;> rfl⟩, rfl⟩

theorem createReadToolError_inj {code other : ReadToolErrorCode}
    (h : createReadToolError code = createReadToolError other) : code = other := by
  have hcode := congrArg errorCodeOf h
  rw [errorCodeOf_createReadToolError, errorCodeOf_createReadToolError] at hcode
  have hnames : ∀ a b : ReadToolErrorCode, a.name = b.name → a = b := by
    intro a b
    cases a <;> cases b <;> decide
  injection hcode with hvalue
  injection hvalue with hname
  exact hnames code other hname

/-- An error that a tool body returns is passed on. -/
theorem conclude_error (platform : Platform) (read : MemoryRead) (requestId : Value) (aborted : Bool)
    (code : ReadToolErrorCode) :
    conclude platform (read.tool.descriptor platform) requestId aborted
      (.ok (createReadToolError code)) = blocked 0 code := by
  obtain ⟨success, hsuccess, hschema⟩ := exists_successSchema platform read
  simp only [conclude, hschema, toolOutputSchema_error hsuccess, errorCodeOf_createReadToolError]
  rfl

/-- Of an output that is no error an executor makes no deadline. -/
theorem conclude_ne_deadline {read : MemoryRead} {v : Value} (hv : isErrorOutput v = false)
    (requestId : Value) (aborted : Bool) :
    (conclude platform (read.tool.descriptor platform) requestId aborted (.ok v)).output ≠
      createReadToolError .deadlineExceeded := by
  obtain ⟨success, hsuccess, hschema⟩ := exists_successSchema platform read
  have hlimit : ∀ rows, (blocked rows (read.tool.descriptor platform).errorMapping.responseLimit).output
      ≠ createReadToolError .deadlineExceeded := by
    intro rows heq
    have hcode := createReadToolError_inj heq
    cases read <;> cases hcode
  have hunexpected : (blocked 0 (read.tool.descriptor platform).errorMapping.unexpected).output ≠
      createReadToolError .deadlineExceeded := by
    intro heq
    have hcode := createReadToolError_inj heq
    cases read <;> cases hcode
  rw [conclude, hschema]
  cases hdata : toolOutputSchema platform success v with
  | none => exact hunexpected
  | some data =>
    have herror := isErrorOutput_toolOutputSchema hsuccess hv hdata
    dsimp only
    cases hcode : errorCodeOf data with
    | some code =>
      rw [isErrorOutput_of_errorCodeOf hcode] at herror
      cases herror
    | none =>
      dsimp only
      split
      · exact hlimit _
      · split
        · exact hlimit _
        · rintro rfl
          rw [isErrorOutput_createReadToolError] at herror
          cases herror

/-- An answer becomes an output or an error, but not that of a deadline. -/
theorem respond_cases (platform : Platform) (read : MemoryRead) (answer : Answer read) :
    isErrorOutput (respond platform read answer) = false ∨
      ∃ code, code ≠ .deadlineExceeded ∧ respond platform read answer = createReadToolError code := by
  have hvalidated : ∀ candidate fallback, isErrorOutput candidate = false →
      fallback ≠ ReadToolErrorCode.deadlineExceeded →
      isErrorOutput (validated platform read candidate fallback) = false ∨
        ∃ code, code ≠ .deadlineExceeded ∧
          validated platform read candidate fallback = createReadToolError code := by
    intro candidate fallback hcandidate hfallback
    obtain ⟨success, hsuccess, hschema⟩ := exists_successSchema platform read
    rw [validated, hschema]
    cases hdata : toolOutputSchema platform success candidate with
    | none => exact .inr ⟨fallback, hfallback, rfl⟩
    | some data => exact .inl (isErrorOutput_toolOutputSchema hsuccess hcandidate hdata)
  have hrefused : ∀ candidate,
      refusedCandidate platform candidate ≠ ReadToolErrorCode.deadlineExceeded := by
    intro candidate
    rw [refusedCandidate]
    split
    · decide
    · decide
  cases read with
  | search =>
    rw [respond]
    split
    · exact .inr ⟨_, by decide, rfl⟩
    · exact hvalidated _ _ rfl (by decide)
  | listRecent =>
    rw [respond]
    split
    · exact .inr ⟨_, by decide, rfl⟩
    · exact hvalidated _ _ rfl (hrefused _)
  | get =>
    cases answer with
    | none => exact .inr ⟨_, by decide, rfl⟩
    | some row => exact hvalidated _ _ rfl (hrefused _)

end Conclusions

/-! Deadlines. -/

section Deadlines

variable {platform : Platform} {governed : Governed platform}

/-- A call whose signal was aborted in time returned that and reported it, and none that
was returned a success. -/
def Decisive (fired : Bool) (record : CallRecord) : Prop :=
  (fired = true → record.status = .settled (createReadToolError .deadlineExceeded) ∧
    ∃ event, record.events = [event] ∧ event.outcome = .blocked ∧
      event.denialClass = denialOf .deadlineExceeded) ∧
  ∀ event ∈ record.events, event.outcome = .success → fired = false

theorem events_eq_nil (governed : Governed platform) : governed.record.events = [] := by
  have haccounted := governed.accounted
  rw [CallRecord.Accounted, governed.running] at haccounted
  exact haccounted.2.2

/-- What an upstream answers in full is returned, whatever was aborted meanwhile. -/
theorem not_decisive (governed : Governed platform) (aborted : Bool) {labels : List Label}
    {s : Execution governed.read} {record : CallRecord}
    (h : execute (step governed) (start governed aborted) labels = some s)
    (hreturned : s.phase = .returned record) (hf : s.fired = true)
    (hsome : answeredBy governed s.upstream ≠ none) : ¬ Decisive s.fired record := by
  have hreplays := (invariant_execute sound_step (sound_start aborted) h).replays
  rw [hreturned] at hreplays
  obtain ⟨output, signal, now, ⟨result, toolAborted, hanswered, hfired, rfl⟩, rfl⟩ := hreplays
  cases result with
  | error code => exact absurd hanswered hsome
  | ok answer =>
    intro hdecisive
    have hstatus := (hdecisive.1 hf).1
    simp only [CallRecord.close, settle, governed.tool_eq, Status.settled.injEq] at hstatus
    rcases respond_cases platform governed.read answer with hok | ⟨code, hcode, herror⟩
    · exact absurd hstatus (conclude_ne_deadline hok _ _)
    · rw [herror, conclude_error] at hstatus
      exact absurd (createReadToolError_inj hstatus) hcode

/-- **A deadline is decisive just where the upstream does not answer in full.** -/
theorem deadline_decisive_iff (governed : Governed platform) (aborted : Bool) {labels : List Label}
    {s : Execution governed.read} {record : CallRecord}
    (h : execute (step governed) (start governed aborted) labels = some s)
    (hreturned : s.phase = .returned record) :
    Decisive s.fired record ↔ (s.fired = true → answeredBy governed s.upstream = none) := by
  constructor
  · intro hdecisive hf
    by_contra hsome
    exact not_decisive governed aborted h hreturned hf hsome hdecisive
  intro hnone
  have hreplays := (invariant_execute sound_step (sound_start aborted) h).replays
  rw [hreturned] at hreplays
  obtain ⟨output, signal, now, ⟨result, toolAborted, hanswered, hfired, rfl⟩, rfl⟩ := hreplays
  cases result with
  | error code =>
    have hevents := events_eq_nil governed
    refine ⟨fun hf => ?_, fun event hevent hsuccess => ?_⟩
    · have hconclude := conclude_error platform governed.read
        governed.record.call.requestId signal .deadlineExceeded
      simp only [CallRecord.close, settle, normalizeError, hfired hf, if_true, governed.tool_eq,
        hconclude, hevents]
      exact ⟨rfl, _, rfl, rfl, rfl⟩
    · simp only [CallRecord.close, settle, normalizeError, governed.tool_eq, conclude_error, hevents,
        List.nil_append, List.mem_singleton] at hevent
      rw [hevent] at hsuccess
      cases hsuccess
  | ok answer =>
    have hunfired : s.fired = false := by
      refine Bool.eq_false_iff.mpr fun hf => ?_
      rw [hnone hf] at hanswered
      cases hanswered
    exact ⟨fun hf => absurd (hunfired.symm.trans hf) Bool.false_ne_true, fun _ _ _ => hunfired⟩

end Deadlines

/-- A call of `memory_list_recent` to a client that can read one body. -/
def recentCall : Governed asciiPlatform where
  client := {
    maxResponseBytes := 262144
    parseBody := fun body =>
      if body = [0x7B, 0x22, 0x72, 0x6F, 0x77, 0x73, 0x22, 0x3A, 0x5B, 0x5D, 0x7D] then
        some (.object [(text "rows", .array [])])
      else none }
  read := .listRecent
  record := opened asciiPlatform 0
    (Governor.recentCall defaultRateLimit (text "a") 0) (.admitted 0) none
  input := .object [(text "limit", Inspection.natValue 25)]
  tool_eq := rfl
  parsed := rfl
  running := rfl
  accounted := accounted_opened 0 _ (.admitted 0) none

/-- The upstream rejects when it is aborted. -/
theorem deadline_decisive_iff_rejected : ∃ s record,
    execute (step recentCall) (start recentCall false)
      [.deadline, .upstream (.fetched (.error .other)), .resume, .resume, .finish 0] = some s ∧
    s.phase = .returned record ∧ s.fired = true ∧ Decisive s.fired record := by
  obtain ⟨s, record, hrun, hphase, hfired, hupstream⟩ : ∃ s record,
      execute (step recentCall) (start recentCall false)
        [.deadline, .upstream (.fetched (.error .other)), .resume, .resume, .finish 0] = some s ∧
      s.phase = .returned record ∧ s.fired = true ∧ s.upstream = [.fetched (.error .other)] :=
    ⟨_, _, rfl, rfl, rfl, rfl⟩
  refine ⟨s, record, hrun, hphase, hfired,
    (deadline_decisive_iff recentCall false hrun hphase).mpr fun _ => ?_⟩
  rw [hupstream]
  rfl

/-- The upstream answers although it is aborted, and the answer is returned. -/
theorem deadline_undecided : ∃ s record,
    execute (step recentCall) (start recentCall false)
      [.deadline, .upstream (.fetched (.ok ⟨true, 200, none, true⟩)),
        .upstream (.read (.ok (some [0x7B, 0x22, 0x72, 0x6F, 0x77, 0x73, 0x22, 0x3A, 0x5B, 0x5D,
          0x7D]))),
        .upstream (.read (.ok none)), .resume, .resume, .finish 0] = some s ∧
    s.phase = .returned record ∧ s.fired = true ∧ ¬ Decisive s.fired record := by
  obtain ⟨s, record, hrun, hphase, hfired, hanswered⟩ : ∃ s record,
      execute (step recentCall) (start recentCall false)
        [.deadline, .upstream (.fetched (.ok ⟨true, 200, none, true⟩)),
          .upstream (.read (.ok (some [0x7B, 0x22, 0x72, 0x6F, 0x77, 0x73, 0x22, 0x3A, 0x5B, 0x5D,
            0x7D]))),
          .upstream (.read (.ok none)), .resume, .resume, .finish 0] = some s ∧
      s.phase = .returned record ∧ s.fired = true ∧ (answeredBy recentCall s.upstream).isSome :=
    ⟨_, _, rfl, rfl, rfl, rfl⟩
  have hsome := Option.isSome_iff_ne_none.mp hanswered
  exact ⟨s, record, hrun, hphase, hfired,
    not_decisive recentCall false hrun hphase hfired hsome⟩

end MemoryCall
