import SupabaseUserMcp.Inspector.Operations

/- The opening checks and the law of receipts and events. An operation that does
   not get past the opening checks is refused without a receipt; one that does
   runs its body on the record the registry answered, and every receipt speaks of
   that record. The law is a statement about every run: about whatever the
   dependencies answer and whichever observers throw. -/
namespace Inspector

open Js Inspection ChunkManifest
open Process (Ensures Program Runs ensures_ask ensures_done)

/-! What a success rests on, by operation. -/

/-- What a successful output of an operation rests on. -/
structure Founded (platform : Platform) (operation : ArtifactInspectionOperation)
    (rawInput : Value) (d : DeclaredManifest) (reads : List Bytes) (output : InspectionOutput) :
    Prop where
  within : WithinLimit platform output
  ofOperation : outputOperation output = some operation
  range : operation = .artifactReadRange → ∃ input, artifactReadRangeInputSchema rawInput =
    some input ∧ ∃ buffer ∈ reads, RangeRead platform d input buffer output
  source : operation ≠ .artifactStat → operation ≠ .artifactReadRange →
    ∃ source ∈ reads, SourceRead platform d operation source output

theorem RangeRead.founded {platform : Platform} {rawInput : Value} {d : DeclaredManifest}
    {reads : List Bytes} {output : InspectionOutput} {input : ArtifactReadRangeInput}
    (hinput : artifactReadRangeInputSchema rawInput = some input)
    (h : ∃ buffer ∈ reads, RangeRead platform d input buffer output) :
    Founded platform .artifactReadRange rawInput d reads output := by
  obtain ⟨buffer, hbuffer, hread⟩ := h
  obtain ⟨data, integrity, rfl, -⟩ := hread.returned
  exact ⟨hread.within, rfl, fun _ => ⟨input, hinput, buffer, hbuffer, hread⟩,
    fun _ hne => absurd rfl hne⟩

theorem SourceRead.founded {platform : Platform} {operation : ArtifactInspectionOperation}
    {rawInput : Value} {d : DeclaredManifest} {reads : List Bytes} {output : InspectionOutput}
    (hrange : operation ≠ .artifactReadRange)
    (h : ∃ source ∈ reads, SourceRead platform d operation source output) :
    Founded platform operation rawInput d reads output := by
  obtain ⟨source, hsource, hread⟩ := h
  exact ⟨hread.within, hread.ofOperation, fun h => absurd h hrange,
    fun _ _ => ⟨source, hsource, hread⟩⟩

/-! The opening checks. -/

/-- The ends of an operation that has no receipt. -/
structure Refused (operation : ArtifactInspectionOperation) (trace : Trace) (settled : Settled) :
    Prop where
  receipt : receipts trace = []
  ended : ∃ code event, settled = .ok (.error code) ∧ events trace = [event] ∧
    event.operation = operation ∧ event.resultClass = .error code ∧ code ≠ .deadlineExceeded

/-- What an operation that gets past the opening checks has learned from them. -/
structure Opened (platform : Platform) (context : Value) (options : ReceiptOptions)
    (trace : Trace) : Prop where
  validated : validateRuntimeContext context = some options.context
  clock : ∃ time, clockReadings trace = [.date (some time)] ∧ options.recordedAt = toISOString time
  resolution : ∃ reply, resolutions trace = [(options.artifactId, reply)] ∧
    Answers platform options.artifactId options.recordedAt options.record reply

/-- How an operation may end. -/
inductive Inspected (platform : Platform) (operation : ArtifactInspectionOperation)
    (context : Value) (artifactId : Option Text)
    (found : DeclaredManifest → List Bytes → InspectionOutput → Prop) (trace : Trace)
    (settled : Settled) : Prop where
  | refused (h : Refused operation trace settled)
  | concluded {call : Call} {options : ReceiptOptions}
      (requested : artifactId = some options.artifactId) (called : call.operation = operation)
      (opened : Opened platform context options trace)
      (h : Concluded platform call options (fun output => ∃ manifest,
        ∃ hres : Resolved platform options.artifactId options.recordedAt options.record manifest,
          found hres.valid.declared (bytesRead trace) output) trace settled)

section Opening

variable {platform : Platform} {operation : ArtifactInspectionOperation} {context : Value}
  {found : DeclaredManifest → List Bytes → InspectionOutput → Prop}

/-- A conclusion on the record that the registry answered, after the three
exchanges of the opening. -/
theorem Concluded.inspected {artifactId : Option Text} {call : Call} {options : ReceiptOptions}
    {success : InspectionOutput → Prop} {trace : Trace} {settled : Settled} {startedAtMs : ℚ}
    {time : ℤ} {reply : Except Unit Value}
    (h : Concluded platform call options success trace settled) (hquiet : Quiet trace)
    (hrequested : artifactId = some options.artifactId) (hcalled : call.operation = operation)
    (hvalidated : validateRuntimeContext context = some options.context)
    (hrecorded : options.recordedAt = toISOString time)
    (hanswers : Answers platform options.artifactId options.recordedAt options.record reply)
    (himp : ∀ output, success output → ∃ manifest,
      ∃ hres : Resolved platform options.artifactId options.recordedAt options.record manifest,
        found hres.valid.declared (bytesRead trace) output) :
    Inspected platform operation context artifactId found
      (⟨.performanceNow, startedAtMs⟩ :: ⟨.now, .date (some time)⟩ ::
        ⟨.resolveAuthorizedArtifact options.context options.artifactId, reply⟩ :: trace) settled := by
  refine .concluded hrequested hcalled ⟨hvalidated, ⟨time, ?_, hrecorded⟩, reply, ?_, hanswers⟩ ?_
  · simp [clockReadings_cons, clockOf, hquiet.2]
  · simp [resolutions_cons, resolutionOf, hquiet.1]
  · exact ((h.cons rfl rfl himp).cons rfl rfl fun _ h => h).cons rfl rfl fun _ h => h

/-- The opening checks before a body that concludes, where an internal error of
resolution with no record is refused. -/
theorem ensures_openInspection {Input : Type} {input : Option Input} {artifactId : Input → Text}
    {byteCounts : Input → Option ByteCounts}
    {onInternalError : Call → ArtifactInspectorTrustedContext → Text → Input →
      Option AuthorizedArtifactRecord → Inspection Settled}
    {body : Call → ReceiptOptions → Input → ArtifactChunkManifest → Inspection Settled}
    (hnone : ∀ call runtimeContext nowIso i, ∃ counts,
      onInternalError call runtimeContext nowIso i none = refuse call .internalError counts)
    (hcorrupt : ∀ call runtimeContext nowIso i record, call.operation = operation →
      Concludes platform call ⟨runtimeContext, record, artifactId i, nowIso⟩ (fun _ _ => False)
        (onInternalError call runtimeContext nowIso i (some record)))
    (hbody : ∀ call options i, input = some i → call.operation = operation →
      ∀ hvalid : ValidRecord options.record,
        Concludes platform call options (found hvalid.declared)
          (body call options i (hvalid.declared.manifest platform.sha256))) :
    Ensures (openInspection platform operation context input artifactId byteCounts onInternalError
      body) (Inspected platform operation context (input.map artifactId) found) := by
  simp only [openInspection, request, Program.request_bind, ensures_ask]
  intro startedAtMs
  cases input with
  | none =>
    exact ensures_emit.mpr fun now reply => ensures_done.mpr
      (.refused ⟨rfl, _, _, rfl, rfl, rfl, rfl, by decide⟩)
  | some i =>
    cases hcontext : validateRuntimeContext context with
    | none =>
      exact ensures_emit.mpr fun now reply => ensures_done.mpr
        (.refused ⟨rfl, _, _, rfl, rfl, rfl, rfl, by decide⟩)
    | some runtimeContext =>
      simp only [readClockIso, request, Program.request_bind, Program.ask_bind, ensures_ask]
      intro reading
      split
      · next time => 
        simp only [Program.pure_eq, Program.done_bind, resolveArtifact, request,
          Program.request_bind, Program.ask_bind, ensures_ask]
        intro reply
        cases houtcome : resolveOutcome platform (artifactId i) (toISOString time) reply with
        | unavailable =>
          exact ensures_emit.mpr fun now reply => ensures_done.mpr
            (.refused ⟨rfl, _, _, rfl, rfl, rfl, rfl, by decide⟩)
        | internalError corrupt =>
          cases corrupt with
          | none =>
            obtain ⟨counts, hrefuse⟩ := hnone ⟨operation, startedAtMs, some runtimeContext⟩
              runtimeContext (toISOString time) i
            simp only [hrefuse]
            exact ensures_emit.mpr fun now reply => ensures_done.mpr
              (.refused ⟨rfl, _, _, rfl, rfl, rfl, rfl, by decide⟩)
          | some record =>
            refine Ensures.mono (hcorrupt _ runtimeContext (toISOString time) i record rfl)
              fun trace settled h => ?_
            exact h.1.inspected h.2 rfl rfl hcontext rfl (answers_of_resolveOutcome (.inl houtcome))
              fun _ hfalse => hfalse.elim
        | ok record manifest =>
          have hres := resolved_of_resolveOutcome houtcome
          have hconcludes := hbody ⟨operation, startedAtMs, some runtimeContext⟩
            ⟨runtimeContext, record, artifactId i, toISOString time⟩ i rfl rfl hres.valid
          simp only [hres.rebuilt]
          refine Ensures.mono hconcludes fun trace settled h => ?_
          exact h.1.inspected h.2 rfl rfl hcontext rfl
            (answers_of_resolveOutcome (.inr ⟨manifest, houtcome⟩))
            fun output hfound => ⟨manifest, hres, hfound⟩
      · exact ensures_emit.mpr fun now reply => ensures_done.mpr
          (.refused ⟨rfl, _, _, rfl, rfl, rfl, rfl, by decide⟩)

end Opening

/-! Every operation. -/

/-- The artifact a valid request asks for. -/
def requestedArtifactId (rawInput : Value) : ArtifactInspectionOperation → Option Text
  | .artifactStat => (artifactStatInputSchema rawInput).map ArtifactStatInput.artifactId
  | .artifactReadRange =>
    (artifactReadRangeInputSchema rawInput).map ArtifactReadRangeInput.artifactId
  | .artifactReadLines =>
    (artifactReadLinesInputSchema rawInput).map ArtifactReadLinesInput.artifactId
  | .artifactReadHeading =>
    (artifactReadHeadingInputSchema rawInput).map ArtifactReadHeadingInput.artifactId
  | .artifactSearchExact => (encodedSearchInput rawInput).map fun input => input.input.artifactId

section Inspect

variable (platform : Platform) (operation : ArtifactInspectionOperation) (context rawInput : Value)

theorem ensures_inspect : Ensures (inspect platform operation context rawInput)
    (Inspected platform operation context (requestedArtifactId rawInput operation)
      (Founded platform operation rawInput)) := by
  cases operation with
  | artifactStat =>
    refine ensures_openInspection (fun _ _ _ _ => ⟨_, rfl⟩)
      (fun _ _ _ _ _ _ => concludes_refuse (by decide) _) fun call options i _ hop hvalid => ?_
    exact (concludes_artifactStatBody hop i _).mono fun reads output h =>
      ⟨h.1, h.2, nofun, fun hne => absurd rfl hne⟩
  | artifactReadRange =>
    refine ensures_openInspection (fun _ _ _ _ => ⟨_, rfl⟩)
      (fun _ _ _ _ _ _ => concludes_refuse (by decide) _) fun call options i hi hop hvalid => ?_
    exact (concludes_artifactReadRangeBody hvalid hop (artifactReadRangeInputSchema_eq_some hi).1).mono
      fun reads output h => RangeRead.founded hi h
  | artifactReadLines =>
    refine ensures_openInspection (fun _ _ _ _ => ⟨_, rfl⟩)
      (fun _ _ _ _ _ _ => concludes_refuse (by decide) _) fun call options i hi hop hvalid => ?_
    obtain ⟨⟨hstart, -⟩, hcount, -⟩ := artifactReadLinesInputSchema_eq_some hi
    exact (concludes_artifactReadLinesBody hvalid hop hstart hcount).mono
      fun reads output h => SourceRead.founded nofun (hop ▸ h)
  | artifactReadHeading =>
    refine ensures_openInspection (fun _ _ _ _ => ⟨_, rfl⟩)
      (fun _ _ _ _ _ _ => concludes_refuse (by decide) _) fun call options i _ hop hvalid => ?_
    exact (concludes_artifactReadHeadingBody hvalid hop i).mono
      fun reads output h => SourceRead.founded nofun (hop ▸ h)
  | artifactSearchExact =>
    refine ensures_openInspection (fun _ _ _ _ => ⟨_, rfl⟩)
      (fun _ _ _ i _ hop => concludes_failSearch hop i (by decide)) fun call options i hi hop hvalid => ?_
    exact (concludes_artifactSearchExactBody hvalid hop
      (decodeUtf8_of_encodedSearchInput hi)).mono
      fun reads output h => SourceRead.founded nofun (hop ▸ h)

/-- The operations have no deadline of their own. -/
theorem inspect_ne_deadlineExceeded {trace : Trace}
    (hrun : Runs (inspect platform operation context rawInput) trace
      (.ok (.error .deadlineExceeded))) : False := by
  cases ensures_inspect platform operation context rawInput trace _ hrun with
  | refused h =>
    obtain ⟨-, code, event, hsettled, -, -, -, hknown⟩ := h
    cases hsettled
    exact hknown rfl
  | concluded _ _ _ h =>
    cases h with
    | refused _ _ _ _ hknown => exact hknown rfl
    | failed _ _ _ _ _ _ _ hknown => exact hknown rfl
    | succeeded _ _ _ _ _ _ _ hok => cases hok

/-- Every receipt that is emitted passes its schema. -/
theorem inspect_receipt_valid : Ensures (inspect platform operation context rawInput)
    fun trace _ => ∀ receipt ∈ receipts trace, artifactInspectionReceiptSchema receipt = true := by
  refine Ensures.mono (ensures_inspect platform operation context rawInput)
    fun trace settled h receipt hmem => ?_
  cases h with
  | refused h =>
    rw [h.receipt] at hmem
    cases hmem
  | concluded _ _ _ h =>
    cases h with
    | refused hreceipts =>
      rw [hreceipts] at hmem
      cases hmem
    | failed hreceipts hvalid | succeeded hreceipts hvalid =>
      rw [hreceipts] at hmem
      obtain rfl := List.mem_singleton.mp hmem
      exact hvalid

end Inspect

/-! The law. -/

/-- A receipt of a valid request and context, on the record that the registry
answered to it at a valid time. -/
structure Grounded (platform : Platform) (operation : ArtifactInspectionOperation)
    (context rawInput : Value) (trace : Trace) (receipt : ArtifactInspectionReceipt) : Prop where
  ofOperation : receiptOperation receipt.operationDetail = operation
  requested : requestedArtifactId rawInput operation = some receipt.artifactId
  validated : (validateRuntimeContext context).isSome = true
  clock : ∃ time, clockReadings trace = [.date (some time)] ∧ receipt.recordedAt = toISOString time
  resolved : ∃ record reply, resolutions trace = [(receipt.artifactId, reply)] ∧
    Answers platform receipt.artifactId receipt.recordedAt record reply ∧
    receipt.artifactId = record.artifactId ∧
    receipt.objectVersionRef = record.objectVersionRef ∧
    receipt.sourceSha256 = record.sourceSha256 ∧ receipt.merkleRoot = record.merkleRoot

/-- The law of receipts and events: one event, which agrees with the output; at
most one receipt, which is a result receipt with the output's evidence exactly
for a success and otherwise one of the output's error with the placeholder. -/
structure Disciplined (platform : Platform) (operation : ArtifactInspectionOperation)
    (context rawInput : Value) (trace : Trace) (output : InspectionOutput) : Prop where
  event : ∃ event, events trace = [event] ∧ event.operation = operation ∧
    event.resultClass = resultClassOf output
  once : (receipts trace).length ≤ 1
  result : output.ok = true ↔ ∃ receipt ∈ receipts trace, receipt.resultOrErrorClass = .result
  evidence : ∀ receipt ∈ receipts trace, receipt.resultOrErrorClass = .result →
    receiptEvidence receipt.operationDetail = outputEvidence output
  placeholder : ∀ receipt ∈ receipts trace, ∀ code, receipt.resultOrErrorClass = .error code →
    output = .error code ∧
      receiptEvidence receipt.operationDetail = placeholderEvidence platform operation
  grounded : ∀ receipt ∈ receipts trace,
    Grounded platform operation context rawInput trace receipt

theorem ok_error (code : ArtifactInspectionErrorCode) : (InspectionOutput.error code).ok = false :=
  rfl

section Law

variable {platform : Platform} {operation : ArtifactInspectionOperation} {context rawInput : Value}
  {trace : Trace}

theorem Refused.disciplined {settled : Settled} (h : Refused operation trace settled) :
    ∃ output, settled = .ok output ∧
      Disciplined platform operation context rawInput trace output := by
  obtain ⟨hreceipts, code, event, rfl, hevents, hoperation, hclass, -⟩ := h
  refine ⟨_, rfl, ⟨event, hevents, hoperation, hclass⟩, ?_, ?_, ?_, ?_, ?_⟩
  all_goals simp [hreceipts, ok_error]

/-- The receipt of an opened operation is about the record it was opened on. -/
theorem Opened.grounded {options : ReceiptOptions} (h : Opened platform context options trace)
    (hrequested : requestedArtifactId rawInput operation = some options.artifactId)
    {detail : ReceiptOperationDetail} (hdetail : receiptOperation detail = operation)
    (errorClass : Option ArtifactInspectionErrorCode) :
    Grounded platform operation context rawInput trace
      (buildReceiptBase options errorClass detail) := by
  obtain ⟨reply, hresolutions, hanswers⟩ := h.resolution
  obtain ⟨rawRecord, rfl, hvalidated, hunexpired⟩ := hanswers
  have hid := (validateAuthorizedArtifactRecord_eq_some hvalidated).1
  exact ⟨hdetail, hrequested, by rw [h.validated]; rfl, h.clock, options.record, _, hresolutions,
    ⟨rawRecord, rfl, hvalidated, hunexpired⟩, hid.symm, rfl, rfl, rfl⟩

theorem Concluded.disciplined {call : Call} {options : ReceiptOptions}
    {success : InspectionOutput → Prop} {settled : Settled}
    (h : Concluded platform call options success trace settled)
    (hopened : Opened platform context options trace)
    (hrequested : requestedArtifactId rawInput call.operation = some options.artifactId) :
    ∃ output, settled = .ok output ∧
      Disciplined platform call.operation context rawInput trace output := by
  cases h with
  | refused hreceipts hevents hoperation hclass hknown =>
    exact Refused.disciplined ⟨hreceipts, _, _, rfl, hevents, hoperation, hclass, hknown⟩
  | @failed code event detail hreceipts _ hdetailed hplaceholder hevents hoperation hclass _ =>
    refine ⟨_, rfl, ⟨event, hevents, hoperation, hclass⟩, ?_, ?_, ?_, ?_, ?_⟩
    · simp [hreceipts]
    · simp [hreceipts, ok_error, buildReceiptBase, receiptResultOrError]
    · simp [hreceipts, buildReceiptBase, receiptResultOrError]
    · intro receipt hmem errorCode hcode
      obtain rfl := List.mem_singleton.mp (hreceipts ▸ hmem)
      obtain rfl : code = errorCode := by
        simpa [buildReceiptBase, receiptResultOrError] using hcode
      exact ⟨rfl, hplaceholder⟩
    · intro receipt hmem
      obtain rfl := List.mem_singleton.mp (hreceipts ▸ hmem)
      exact hopened.grounded hrequested hdetailed _
  | @succeeded output event detail hreceipts _ hdetailed hevidence hevents hoperation hclass hok =>
    refine ⟨_, rfl, ⟨event, hevents, hoperation, hclass.trans ?_⟩, ?_, ?_, ?_, ?_, ?_⟩
    · exact (resultClassOf_of_ok hok).symm
    · simp [hreceipts]
    · simp [hreceipts, hok, buildReceiptBase, receiptResultOrError]
    · intro receipt hmem _
      obtain rfl := List.mem_singleton.mp (hreceipts ▸ hmem)
      exact hevidence
    · simp [hreceipts, buildReceiptBase, receiptResultOrError]
    · intro receipt hmem
      obtain rfl := List.mem_singleton.mp (hreceipts ▸ hmem)
      exact hopened.grounded hrequested hdetailed _

end Law

/-- Whatever the dependencies answer and whatever the observers throw, every
operation resolves on every input, and its receipts and its event keep the law. -/
theorem inspect_disciplined (platform : Platform) (operation : ArtifactInspectionOperation)
    (context rawInput : Value) :
    Ensures (inspect platform operation context rawInput) fun trace settled =>
      ∃ output, settled = .ok output ∧
        Disciplined platform operation context rawInput trace output := by
  refine Ensures.mono (ensures_inspect platform operation context rawInput) fun trace settled h => ?_
  cases h with
  | refused h => exact h.disciplined
  | concluded hrequested hcalled hopened h =>
    subst hcalled
    exact h.disciplined hopened hrequested

end Inspector
