import SupabaseUserMcp.Inspector.Authenticity
import SupabaseUserMcp.Registration.Completion

/- What a call shows of its evidence, and when. The receipt is acknowledged
   before the operation's own output is returned, and a journal that fails keeps
   everything back. One event goes with the output as long as no abort comes in
   while evidence goes out. -/
namespace Registration

open Js Inspection Inspector ReceiptJournal
open Process (Runs execute execute_append execute_cons Along along_or_exists Reachable
  invariant_execute invariant_along)

/-! Acknowledgement. -/

/-- What may be returned, and what it rests on. -/
inductive Returned (call : RegisteredCall) (s : State) : InspectionOutput → Prop
  | deadline (decided : s.race = some .deadline) : Returned call s (.error .deadlineExceeded)
  | journalFailed (failure : s.journalFailure = true) : Returned call s (.error .internalError)
  | own {output : InspectionOutput} (run : Runs call.inspection s.exchanged (.ok output))
      (receipted : output.ok = true → Inspector.receipts s.exchanged ≠ [])
      (acknowledged : Acknowledged call.platform s) (failure : s.journalFailure = false) :
      Returned call s output

/-- The journal failed, or was asked and has not given a valid acknowledgement. -/
def Unacknowledged (s : State) : Prop :=
  s.journalFailure = true ∨ ∃ append ∈ s.appended, ∀ reply ∈ s.journalReplies,
    acknowledgementOf append.expectedReceiptSha256 reply = none

/-- The acknowledgement law, at one point of a call. -/
structure AcknowledgedFirst (call : RegisteredCall) (s : State) : Prop where
  returned : ∀ output, s.returned = some output → Returned call s output
  failed : Unacknowledged s → forwarded s.observed = [] ∧ ∀ output, s.returned = some output →
    output = .error .internalError ∨ output = .error .deadlineExceeded
  once : s.appended.length ≤ 1
  late : s.returned ≠ none → ∀ labels t, execute (step call) s labels = some t →
    t.appended = s.appended

section Acknowledgement

variable {call : RegisteredCall} {s t : State}

theorem Acknowledged.not_unacknowledged {platform : Platform} (h : Acknowledged platform s)
    (hfailure : s.journalFailure = false) : ¬ Unacknowledged s := by
  rintro (hfailed | ⟨append, happend, hreplies⟩)
  · rw [hfailure] at hfailed
    cases hfailed
  · cases h with
    | unreceipted receipts appended =>
      rw [appended] at happend
      cases happend
    | acknowledged receipts digested appended replied valid matching =>
      obtain rfl := List.mem_singleton.mp (appended ▸ happend)
      have hnone := hreplies _ (replied ▸ List.mem_singleton.mpr rfl)
      simp [acknowledgementOf, valid, matching] at hnone

theorem Acknowledged.once {platform : Platform} (h : Acknowledged platform s) :
    s.appended.length ≤ 1 := by
  cases h with
  | unreceipted receipts appended => simp [appended]
  | acknowledged receipts digested appended => simp [appended]

theorem Concluding.once {output : InspectionOutput} {pending : List Observation}
    (h : Concluding call s output pending) : s.appended.length ≤ 1 := by
  cases h with
  | own _ acknowledged => exact acknowledged.once
  | late _ _ once => exact once
  | rejected _ once => exact once

theorem Concluding.silent {output : InspectionOutput} {pending : List Observation}
    (h : Concluding call s output pending) (hfailed : Unacknowledged s) :
    forwarded s.observed = [] := by
  cases h with
  | own _ acknowledged _ failure => exact absurd hfailed (acknowledged.not_unacknowledged failure)
  | late _ withheld => exact withheld.silent
  | rejected withheld => exact withheld.silent

theorem Progress.once {phase : Phase} (h : Progress call s phase) : s.appended.length ≤ 1 := by
  cases h with
  | inspecting _ _ _ appended => simp [appended]
  | committing _ _ _ _ _ appended => simp [appended]
  | settling concluding => exact concluding.once
  | settled concluding => exact concluding.once

theorem Progress.silent {phase : Phase} (h : Progress call s phase) (hfailed : Unacknowledged s) :
    forwarded s.observed = [] := by
  cases h with
  | inspecting _ _ withheld => exact withheld.silent
  | committing _ _ _ _ withheld => exact withheld.silent
  | settling concluding => exact concluding.silent hfailed
  | settled concluding => exact concluding.silent hfailed

/-- An own output that decided the race has its evidence acknowledged, or stands
for a failure of the journal. -/
theorem Invariant.settled (h : Invariant call s) {output : InspectionOutput}
    (hrace : s.race = some (.output output)) :
    (s.journalFailure = true ∧ output = .error .internalError ∧ Withheld s) ∨
      (s.journalFailure = false ∧ Runs call.inspection s.exchanged (.ok output) ∧
        Acknowledged call.platform s ∧ forwarded s.observed = evidenceOf s.exchanged) := by
  obtain ⟨hphase, hcommitted⟩ := h.decided.own output hrace
  have hprogress := h.progress
  rw [hphase] at hprogress
  cases hprogress with
  | settled concluding =>
    cases concluding with
    | own run acknowledged committed failure evidence =>
      exact .inr ⟨failure, run, acknowledged, by rwa [List.append_nil] at evidence⟩
    | late closed withheld once failure =>
      rcases hcommitted with hcommitted | hfailed
      · rw [withheld.committed] at hcommitted
        cases hcommitted
      · rw [failure] at hfailed
        cases hfailed
    | rejected withheld once failure => exact .inl ⟨failure, rfl, withheld⟩

theorem Invariant.returned (h : Invariant call s) {output : InspectionOutput}
    (hreturned : s.returned = some output) : Returned call s output := by
  obtain ⟨-, ⟨outcome, hrace, rfl⟩, -⟩ := h.decided.returned output hreturned
  cases outcome with
  | deadline => exact .deadline hrace
  | output own =>
    rcases h.settled hrace with ⟨hfailure, rfl, -⟩ | ⟨hfailure, hrun, hacknowledged, -⟩
    · exact .journalFailed hfailure
    · refine .own hrun (fun hok => ?_) hacknowledged hfailure
      obtain ⟨output, houtput, hlaw⟩ := inspect_disciplined _ _ _ _ _ _ hrun
      cases houtput
      obtain ⟨receipt, hmem, -⟩ := hlaw.result.mp hok
      exact List.ne_nil_of_mem hmem

/-- A closed gate starts no append. -/
theorem step_appended {label : Label} (hclosed : s.isOpen = false)
    (hstep : step call s label = some t) : t.isOpen = false ∧ t.appended = s.appended := by
  cases label with
  | inspect reply =>
    simp only [step] at hstep
    split at hstep
    · next q next hphase =>
      cases hstep
      rw [s.buffer_eq q]
      exact ⟨hclosed, rfl⟩
    · cases hstep
  | commit =>
    simp only [step] at hstep
    split at hstep
    · next output hphase =>
      cases hstep
      simp only [State.commit, hclosed, Bool.not_false, Bool.true_or, if_true]
      exact ⟨hclosed, rfl⟩
    · cases hstep
      exact ⟨hclosed, rfl⟩
    · cases hstep
  | acknowledge =>
    simp only [step] at hstep
    split at hstep
    · cases hstep
      exact ⟨hclosed, rfl⟩
    · cases hstep
      simp only [State.forwardEvidence, hclosed, Bool.false_eq_true, if_false]
      exact ⟨trivial, trivial⟩
    · cases hstep
  | journal _ | forward _ | settle =>
    simp only [step] at hstep
    split at hstep
    · cases hstep
      exact ⟨hclosed, rfl⟩
    · cases hstep
  | timer =>
    simp only [step] at hstep
    split at hstep
    · cases hstep
      exact ⟨hclosed, rfl⟩
    · cases hstep
  | abort =>
    cases hstep
    exact ⟨hclosed, rfl⟩
  | close now =>
    simp only [step] at hstep
    split at hstep
    · split at hstep
      · cases hstep
        exact ⟨rfl, rfl⟩
      · cases hstep
    · cases hstep

end Acknowledgement

/-- Acknowledge before return, for every interleaving of the operation, the
journal, the timer and the caller. -/
theorem acknowledge_before_return {call : RegisteredCall} {labels : List Label} {s : State}
    (h : execute (step call) (initial call) labels = some s) : AcknowledgedFirst call s := by
  have hinvariant := invariant_of_reachable ⟨labels, h⟩
  refine ⟨fun output => hinvariant.returned, fun hfailed =>
    ⟨hinvariant.progress.silent hfailed, fun output hreturned => ?_⟩,
    hinvariant.progress.once, fun hreturned labels t ht => ?_⟩
  · cases hinvariant.returned hreturned with
    | deadline => exact .inr rfl
    | journalFailed => exact .inl rfl
    | own _ _ acknowledged failure => exact absurd hfailed (acknowledged.not_unacknowledged failure)
  · obtain ⟨output, houtput⟩ := Option.ne_none_iff_exists'.mp hreturned
    have hclosed := (hinvariant.decided.returned output houtput).1
    refine (invariant_execute (I := fun u => u.isOpen = false ∧ u.appended = s.appended) ?_
      ⟨hclosed, rfl⟩ ht).2
    intro u label v hu hstep
    obtain ⟨hv, happended⟩ := step_appended hu.1 hstep
    exact ⟨hv, happended.trans hu.2⟩

/-- A success has its receipt appended and acknowledged. -/
theorem Returned.acknowledged_of_ok {call : RegisteredCall} {s : State} {output : InspectionOutput}
    (h : Returned call s output) (hok : output.ok = true) :
    ∃ receipt digest reply acknowledgement, s.appended = [⟨receipt, digest⟩] ∧
      s.journalReplies = [.ok reply] ∧
      artifactReceiptJournalAcknowledgementSchema reply = some acknowledgement ∧
      acknowledgement.receiptSha256 = digest := by
  cases h with
  | deadline => cases hok
  | journalFailed => cases hok
  | own run receipted acknowledged failure =>
    cases acknowledged with
    | unreceipted receipts => exact absurd receipts (receipted hok)
    | acknowledged receipts digested appended replied valid matching =>
      exact ⟨_, _, _, _, appended, replied, valid, matching⟩

/-! A call with a journal entry: a byte of an artifact is read. -/

theorem gatedReply_answer (platform : Platform) (hosted : HostedSource) :
    gatedReply (hosted.answer platform) = hosted.answer platform := by
  funext q
  cases q <;> rfl

def oneByteCall : RegisteredCall where
  platform := asciiPlatform
  operation := .artifactReadRange
  context := trustedContext
  input := HostedSource.rangeInput 0 1
  startedAtMs := 0

theorem acknowledge_before_return_oneByte : ∃ labels s receipt digest reply acknowledgement,
    execute (step oneByteCall) (initial oneByteCall) labels = some s ∧
    s.returned = some (oneByte.rangeOutput asciiPlatform 0 1 (text "a")) ∧
    s.appended = [⟨receipt, digest⟩] ∧ s.journalReplies = [.ok reply] ∧
    artifactReceiptJournalAcknowledgementSchema reply = some acknowledgement ∧
    acknowledgement.receiptSha256 = digest := by
  have hrun : (oneByteCall.inspection.run (gatedReply (oneByte.answer asciiPlatform))).2 =
      .ok (oneByte.rangeOutput asciiPlatform 0 1 (text "a")) := by
    rw [gatedReply_answer]
    exact run_oneByte
  obtain ⟨s, ⟨labels, hexecute⟩, hreturned⟩ := exists_returned (oneByte.answer asciiPlatform) hrun
  obtain ⟨receipt, digest, reply, acknowledgement, h⟩ :=
    ((acknowledge_before_return hexecute).returned _ hreturned).acknowledged_of_ok rfl
  exact ⟨labels, s, receipt, digest, reply, acknowledgement, hexecute, hreturned, h⟩

/-! A call with no journal entry: the artifact is not there. -/

def missingArtifact : ∀ q, Inspector.Reply q
  | .performanceNow => 0
  | .now => .date (some 0)
  | .resolveAuthorizedArtifact _ _ => .ok .null
  | .readVersionedRange .. => .error ()
  | .emitOperationalEvent _ => .ok ()
  | .emitInspectionReceipt _ => .ok ()

def missingArtifactCall : RegisteredCall where
  platform := asciiPlatform
  operation := .artifactStat
  context := trustedContext
  input := .object [property "artifactId" (.string HostedSource.artifactId)]
  startedAtMs := 0

def missingArtifactForwarded : List Label :=
  List.replicate 5 (.inspect missingArtifact) ++ [.commit, .forward (.ok ())]

def missingArtifactEvent : ArtifactInspectorOperationalEvent :=
  ⟨.artifactStat, .error .resourceUnavailable, none, 0, none⟩

theorem execute_missingArtifact : (execute (step missingArtifactCall) (initial missingArtifactCall)
    (missingArtifactForwarded ++ [.settle, .close 0])).map
      (fun s => (s.returned, s.observed)) =
    some (some (.error .resourceUnavailable), [.inspectorEvent missingArtifactEvent]) := by
  decide +kernel

/-! The terminal event. -/

def terminalEventOf : Observation → Option ArtifactInspectorOperationalEvent
  | .receipt _ => none
  | .inspectorEvent event => some event
  | .registrationEvent event => some event

/-- One terminal event, which goes with the output. -/
structure OneTerminalEvent (call : RegisteredCall) (s : State) (output : InspectionOutput) :
    Prop where
  event : ∃ event, s.observed.filterMap terminalEventOf = [event] ∧
    event.operation = call.operation ∧ event.resultClass = resultClassOf output
  deadline : output = .error .deadlineExceeded → forwarded s.observed = []
  failed : s.journalFailure = true → output = .error .internalError →
    ∃ event, s.observed = [.registrationEvent event]
  own : output ≠ .error .deadlineExceeded → s.journalFailure = false →
    Runs call.inspection s.exchanged (.ok output) ∧ s.observed = evidenceOf s.exchanged

/-- The step makes an open gate forward its evidence. -/
def forwardsEvidence (s : State) : Label → Bool
  | .commit =>
    match s.phase with
    | .inspecting (.done (.ok _)) => s.isOpen && !s.committed && s.receipts.isEmpty
    | _ => false
  | .acknowledge =>
    match s.phase with
    | .committing _ (.done (some _)) => s.isOpen
    | _ => false
  | _ => false

/-- No abort comes in between the forwarding of evidence and the end of the race,
and no evidence is forwarded once the race is decided. -/
structure Timely (s : State) (label : Label) : Prop where
  abort : label = .abort → ¬ (s.committed = true ∧ s.race = none)
  forwarding : forwardsEvidence s label = true → s.race = none

/-- Evidence went out of a call that ends at its deadline. -/
def Crossed (s : State) : Prop := s.committed = true ∧ s.race = some .deadline

section Events

variable {call : RegisteredCall} {s t : State}

theorem eq_registered {observed : List Observation} (h : forwarded observed = []) :
    observed = registered observed := by
  refine (List.filter_eq_self.mpr fun observation hmem => ?_).symm
  rw [forwarded, List.filter_eq_nil_iff] at h
  simpa using h observation hmem

theorem eq_forwarded {observed : List Observation} (h : registered observed = []) :
    observed = forwarded observed := by
  refine (List.filter_eq_self.mpr fun observation hmem => ?_).symm
  rw [registered, List.filter_eq_nil_iff] at h
  simpa using h observation hmem

theorem terminalEvents_evidenceOf (trace : Trace) :
    (evidenceOf trace).filterMap terminalEventOf = Inspector.events trace := by
  rw [evidenceOf, List.filterMap_append, List.filterMap_map, List.filterMap_map]
  have hreceipts : terminalEventOf ∘ Observation.receipt = fun _ => none := rfl
  have hevents : terminalEventOf ∘ Observation.inspectorEvent = some := rfl
  rw [hreceipts, hevents, List.filterMap_some]
  simp

theorem isFixedDeadlineExceededOutput_iff {output : InspectionOutput} :
    isFixedDeadlineExceededOutput output = true ↔ output = .error .deadlineExceeded := by
  cases output <;> simp [isFixedDeadlineExceededOutput]

theorem Progress.silent_of_uncommitted {phase : Phase} (h : Progress call s phase)
    (hcommitted : s.committed = false) : forwarded s.observed = [] := by
  have hconcluding : ∀ {output pending}, Concluding call s output pending →
      forwarded s.observed = [] := by
    intro output pending h
    cases h with
    | own _ _ committed =>
      rw [hcommitted] at committed
      cases committed
    | late _ withheld => exact withheld.silent
    | rejected withheld => exact withheld.silent
  cases h with
  | inspecting _ _ withheld => exact withheld.silent
  | committing _ _ _ _ withheld => exact withheld.silent
  | settling concluding => exact hconcluding concluding
  | settled concluding => exact hconcluding concluding

/-- A committed gate that has nothing left to forward has forwarded the event of
the operation. -/
theorem Concluding.spoken {output : InspectionOutput} (h : Concluding call s output [])
    (hcommitted : s.committed = true) : forwarded s.observed ≠ [] := by
  cases h with
  | own run _ _ _ evidence =>
    obtain ⟨own, -, hlaw⟩ := inspect_disciplined _ _ _ _ _ _ run
    obtain ⟨event, hevents, -⟩ := hlaw.event
    rw [List.append_nil] at evidence
    rw [evidence, evidenceOf, hevents]
    simp
  | late _ withheld | rejected withheld =>
    rw [withheld.committed] at hcommitted
    cases hcommitted

theorem Invariant.spoken (h : Invariant call s) {output : InspectionOutput}
    (hreturned : s.returned = some output) (hcommitted : s.committed = true) :
    forwarded s.observed ≠ [] := by
  obtain ⟨-, -, hpending⟩ := h.decided.returned output hreturned
  have hprogress := h.progress
  generalize hphase : s.phase = phase at hprogress
  cases hprogress with
  | inspecting _ _ withheld | committing _ _ _ _ withheld =>
    rw [withheld.committed] at hcommitted
    cases hcommitted
  | settling concluding =>
    cases hpending _ _ hphase
    exact concluding.spoken hcommitted
  | settled concluding => exact concluding.spoken hcommitted

/-- A returned call has its one event unless evidence went out of it before its deadline won. -/
theorem Invariant.oneTerminalEvent_iff (h : Invariant call s) {output : InspectionOutput}
    (hreturned : s.returned = some output) :
    OneTerminalEvent call s output ↔ ¬ Crossed s := by
  obtain ⟨-, ⟨outcome, hrace, rfl⟩, -⟩ := h.decided.returned output hreturned
  constructor
  · rintro hone ⟨hcommitted, hdeadline⟩
    rw [hrace] at hdeadline
    cases hdeadline
    exact h.spoken hreturned hcommitted (hone.deadline rfl)
  · intro hcrossed
    cases outcome with
    | deadline =>
      have hcommitted : s.committed = false := by
        simpa [Crossed, hrace] using hcrossed
      have hsilent := h.progress.silent_of_uncommitted hcommitted
      obtain ⟨elapsedMs, hregistered⟩ := h.decided.deadline _ hreturned rfl
      have hobserved := (eq_registered hsilent).trans hregistered
      exact ⟨⟨_, by rw [hobserved]; rfl, rfl, rfl⟩, fun _ => hsilent, nofun,
        fun hne => absurd rfl hne⟩
    | output own =>
      rcases h.settled hrace with ⟨hfailure, rfl, hwithheld⟩ | ⟨hfailure, hrun, -, hevidence⟩
      · obtain ⟨elapsedMs, hregistered⟩ := h.decided.failed _ hreturned rfl hfailure
        have hobserved := (eq_registered hwithheld.silent).trans hregistered
        refine ⟨⟨_, by rw [hobserved]; rfl, rfl, rfl⟩, nofun, fun _ _ => ⟨_, hobserved⟩, ?_⟩
        intro _ hok
        rw [hfailure] at hok
        cases hok
      · have hne : own ≠ .error .deadlineExceeded := by
          rintro rfl
          exact inspect_ne_deadlineExceeded _ _ _ _ hrun
        have hfixed : isFixedDeadlineExceededOutput own = false := by
          rw [← Bool.not_eq_true, isFixedDeadlineExceededOutput_iff]
          exact hne
        have hregistered := h.decided.unfailed _ hreturned hfixed hfailure
        have hobserved := (eq_forwarded hregistered).trans hevidence
        obtain ⟨output, houtput, hlaw⟩ := inspect_disciplined _ _ _ _ _ _ hrun
        cases houtput
        obtain ⟨event, hevents, hoperation, hclass⟩ := hlaw.event
        refine ⟨⟨event, ?_, hoperation, hclass⟩, fun heq => absurd heq hne, ?_,
          fun _ _ => ⟨hrun, hobserved⟩⟩
        · rw [hobserved, terminalEvents_evidenceOf, hevents]
        · intro hfailed
          rw [hfailure] at hfailed
          cases hfailed

/-- What a step does to the gate's commitment and to the race. -/
inductive RaceStep (s : State) (label : Label) (t : State) : Prop
  | same (quiet : forwardsEvidence s label = false) (calm : label ≠ .abort)
      (committed : t.committed = s.committed) (race : t.race = s.race)
  | forwards (forwarding : forwardsEvidence s label = true) (calm : label ≠ .abort)
      (pending : s.phase.isPending = true)
      (committed : t.committed = true) (race : t.race = s.race)
  | aborts (abort : label = .abort) (committed : t.committed = s.committed)
      (race : t.race = s.race.or (some .deadline))
  | expires (quiet : forwardsEvidence s label = false) (calm : label ≠ .abort)
      (waiting : s.phase.isWaiting = true) (committed : t.committed = s.committed)
      (race : t.race = s.race.or (some .deadline))
  | settles {output : InspectionOutput} (quiet : forwardsEvidence s label = false)
      (calm : label ≠ .abort) (committed : t.committed = s.committed)
      (race : t.race = s.race.or (some (.output output)))

theorem raceStep_of_step {label : Label} (hstep : step call s label = some t) :
    RaceStep s label t := by
  cases label with
  | inspect reply =>
    simp only [step] at hstep
    split at hstep
    · next q next hphase =>
      cases hstep
      rw [s.buffer_eq q]
      exact .same rfl (by simp) rfl rfl
    · cases hstep
  | commit =>
    simp only [step] at hstep
    split at hstep
    · next output hphase =>
      cases hstep
      have hpending : s.phase.isPending = true := by rw [hphase]; rfl
      cases hforwards : forwardsEvidence s .commit with
      | true =>
        simp only [forwardsEvidence, hphase, Bool.and_eq_true, Bool.not_eq_true',
          List.isEmpty_iff] at hforwards
        obtain ⟨⟨hopen, hcommitted⟩, hreceipts⟩ := hforwards
        refine .forwards (by simp [forwardsEvidence, hphase, hopen, hcommitted, hreceipts]) (by simp) hpending ?_ ?_
        all_goals simp [State.commit, State.forwardEvidence, hopen, hcommitted, hreceipts]
      | false =>
        have hcommits := s.commit_cases call.platform output
        generalize s.commit call.platform output = t at hcommits ⊢
        cases hcommits with
        | fails | appends => exact .same hforwards (by simp) rfl rfl
        | forwards isOpen committed receipts =>
          simp [forwardsEvidence, hphase, isOpen, committed, receipts] at hforwards
    · next hphase =>
      cases hstep
      exact .same (by simp [forwardsEvidence, hphase]) (by simp) rfl rfl
    · cases hstep
  | acknowledge =>
    simp only [step] at hstep
    split at hstep
    · next hphase =>
      cases hstep
      exact .same (by simp [forwardsEvidence, hphase]) (by simp) rfl rfl
    · next hphase =>
      cases hstep
      cases hopen : s.isOpen with
      | true =>
        refine .forwards (by simp [forwardsEvidence, hphase, hopen]) (by simp) (by rw [hphase]; rfl) ?_ ?_
        all_goals simp [State.forwardEvidence, hopen]
      | false =>
        refine .same (by simp [forwardsEvidence, hphase, hopen]) (by simp) ?_ ?_
        all_goals simp [State.forwardEvidence, hopen]
    · cases hstep
  | journal _ | forward _ =>
    simp only [step] at hstep
    split at hstep
    · cases hstep
      exact .same rfl (by simp) rfl rfl
    · cases hstep
  | settle =>
    simp only [step] at hstep
    split at hstep
    · cases hstep
      exact .settles rfl (by simp) rfl rfl
    · cases hstep
  | timer =>
    simp only [step] at hstep
    split at hstep
    · next hwaiting =>
      cases hstep
      exact .expires rfl (by simp) hwaiting rfl rfl
    · cases hstep
  | abort =>
    cases hstep
    exact .aborts rfl rfl rfl
  | close now =>
    simp only [step] at hstep
    split at hstep
    · split at hstep
      · cases hstep
        exact .same rfl (by simp) rfl rfl
      · cases hstep
    · cases hstep

theorem Progress.not_waiting {phase : Phase} (h : Progress call s phase)
    (hcommitted : s.committed = true) : phase.isWaiting = false := by
  cases h with
  | inspecting _ _ withheld | committing _ _ _ _ withheld =>
    rw [withheld.committed] at hcommitted
    cases hcommitted
  | settling | settled => rfl

/-- A timely step lets nothing cross. -/
theorem Invariant.not_crossed_step (h : Invariant call s) {label : Label}
    (hcrossed : ¬ Crossed s) (htimely : Timely s label) (hstep : step call s label = some t) :
    ¬ Crossed t := by
  rintro ⟨hcommitted, hdeadline⟩
  cases raceStep_of_step hstep with
  | same _ _ committed race =>
    exact hcrossed ⟨committed ▸ hcommitted, race ▸ hdeadline⟩
  | forwards forwarding _ _ _ race =>
    rw [race, htimely.forwarding forwarding] at hdeadline
    cases hdeadline
  | aborts abort committed race =>
    rw [race] at hdeadline
    rw [committed] at hcommitted
    cases hrace : s.race with
    | none => exact htimely.abort abort ⟨hcommitted, hrace⟩
    | some outcome =>
      rw [hrace] at hdeadline
      exact hcrossed ⟨hcommitted, hrace.trans hdeadline⟩
  | expires _ _ waiting committed race =>
    rw [committed] at hcommitted
    rw [h.progress.not_waiting hcommitted] at waiting
    cases waiting
  | settles _ _ committed race =>
    rw [race] at hdeadline
    rw [committed] at hcommitted
    cases hrace : s.race with
    | none => simp [hrace] at hdeadline
    | some outcome =>
      rw [hrace] at hdeadline
      exact hcrossed ⟨hcommitted, hrace.trans hdeadline⟩

/-- What has crossed stays so. -/
theorem Crossed.step (h : Crossed s) {label : Label} (hstep : step call s label = some t) :
    Crossed t := by
  obtain ⟨hcommitted, hdeadline⟩ := h
  cases raceStep_of_step hstep with
  | same _ _ committed race => exact ⟨committed.trans hcommitted, race.trans hdeadline⟩
  | forwards _ _ _ committed race => exact ⟨committed, race.trans hdeadline⟩
  | aborts _ committed race | expires _ _ _ committed race | settles _ _ committed race =>
    exact ⟨committed.trans hcommitted, by rw [race, hdeadline]; rfl⟩

/-- A step that is not timely lets evidence cross. -/
theorem Invariant.crossed_step (h : Invariant call s) {label : Label} (htimely : ¬ Timely s label)
    (hstep : step call s label = some t) : Crossed t := by
  have hquiet : forwardsEvidence s label = false → label ≠ .abort → False :=
    fun quiet calm => htimely ⟨fun heq => absurd heq calm, fun hforwards => by simp [quiet] at hforwards⟩
  cases raceStep_of_step hstep with
  | same quiet calm | expires quiet calm | settles quiet calm => exact (hquiet quiet calm).elim
  | forwards _ calm pending committed race =>
    refine ⟨committed, race.trans ?_⟩
    refine (h.decided.race_eq pending).resolve_left fun hnone => htimely ?_
    exact ⟨fun heq => absurd heq calm, fun _ => hnone⟩
  | aborts abort committed race =>
    subst abort
    have hopen : s.committed = true ∧ s.race = none := by
      by_contra hnot
      exact htimely ⟨fun _ => hnot, nofun⟩
    exact ⟨committed.trans hopen.1, by rw [race, hopen.2]; rfl⟩

end Events

/-- A call that returns has one terminal event, in agreement with its output,
exactly when all its steps were timely. -/
theorem oneTerminalEvent_iff_timely {call : RegisteredCall} {labels : List Label} {s : State}
    {output : InspectionOutput} (h : execute (step call) (initial call) labels = some s)
    (hreturned : s.returned = some output) :
    OneTerminalEvent call s output ↔ Along (step call) Timely (initial call) labels := by
  rw [(invariant_of_reachable ⟨labels, h⟩).oneTerminalEvent_iff hreturned]
  constructor
  · intro hcrossed
    rcases along_or_exists h with halong |
      ⟨first, label, rest, u, v, -, hfirst, htimely, hstep, hrest⟩
    · exact halong
    · have hv := (invariant_of_reachable ⟨first, hfirst⟩).crossed_step htimely hstep
      exact absurd (invariant_execute (I := Crossed) (fun hu => hu.step) hv hrest) hcrossed
  · intro halong
    refine (invariant_along (I := fun u => Invariant call u ∧ ¬ Crossed u) ?_
      ⟨invariant_initial call, ?_⟩ halong h).2
    · intro u label v hu htimely hstep
      exact ⟨invariant_step hu.1 hstep, hu.1.not_crossed_step hu.2 htimely hstep⟩
    · rintro ⟨hcommitted, -⟩
      cases hcommitted

theorem oneTerminalEvent_iff_timely_missingArtifact : ∃ s,
    s.returned = some (.error .resourceUnavailable) ∧
      OneTerminalEvent missingArtifactCall s (.error .resourceUnavailable) ∧
      Along (step missingArtifactCall) Timely (initial missingArtifactCall)
        (missingArtifactForwarded ++ [.settle, .close 0]) := by
  obtain ⟨s, hexecute, hs⟩ := Option.map_eq_some_iff.mp execute_missingArtifact
  have hreturned := congrArg Prod.fst hs
  have hobserved := congrArg Prod.snd hs
  have hone : OneTerminalEvent missingArtifactCall s (.error .resourceUnavailable) := by
    refine ((invariant_of_reachable ⟨_, hexecute⟩).oneTerminalEvent_iff hreturned).mpr ?_
    rintro ⟨-, hdeadline⟩
    obtain ⟨-, ⟨outcome, hrace, houtput⟩, -⟩ :=
      (invariant_of_reachable ⟨_, hexecute⟩).decided.returned _ hreturned
    rw [hdeadline] at hrace
    cases hrace
    cases houtput
  exact ⟨s, hreturned, hone, (oneTerminalEvent_iff_timely hexecute hreturned).mp hone⟩

/-- An abort raised by the event observer while the call has yet to settle: the
caller is told of the deadline and the observer of both outcomes. -/
theorem twoTerminalEvents_missingArtifact : ¬ ∀ (call : RegisteredCall) (labels : List Label)
    (s : State) (output : InspectionOutput),
    execute (step call) (initial call) labels = some s → s.returned = some output →
      OneTerminalEvent call s output := by
  intro hall
  have hrun : (execute (step missingArtifactCall) (initial missingArtifactCall)
      (missingArtifactForwarded ++ [.abort, .settle, .close 0])).map
        (fun s => (s.returned, (s.observed.filterMap terminalEventOf).length)) =
      some (some (.error .deadlineExceeded), 2) := by
    decide +kernel
  obtain ⟨s, hexecute, hs⟩ := Option.map_eq_some_iff.mp hrun
  obtain ⟨event, hevents, -⟩ := (hall _ _ s _ hexecute (congrArg Prod.fst hs)).event
  have htwo := congrArg Prod.snd hs
  simp [hevents] at htwo

end Registration
