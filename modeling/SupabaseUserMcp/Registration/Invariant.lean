import SupabaseUserMcp.Inspector.Discipline
import SupabaseUserMcp.Registration

/- What holds of a registered call at every point. The phase says how far the
   operation has come and which of its evidence is buffered, acknowledged or
   forwarded; the race says whose outcome is returned. Each part of the invariant
   is preserved by every step. -/
namespace Registration

open Js Inspection Inspector ReceiptJournal
open Process (Program Runs runs_ask execute Reachable invariant_reachable)

/-! What has been forwarded. -/

/-- What an observer was forwarded from the operation. -/
def Observation.isForwarded : Observation → Bool
  | .registrationEvent _ => false
  | _ => true

def forwarded (observed : List Observation) : List Observation :=
  observed.filter Observation.isForwarded

/-- What the registration itself emitted. -/
def registered (observed : List Observation) : List Observation :=
  observed.filter fun observation => !observation.isForwarded

@[simp] theorem forwarded_append (a b : List Observation) :
    forwarded (a ++ b) = forwarded a ++ forwarded b := by
  simp [forwarded]

@[simp] theorem registered_append (a b : List Observation) :
    registered (a ++ b) = registered a ++ registered b := by
  simp [registered]

theorem forwarded_of_isForwarded {observation : Observation}
    (h : observation.isForwarded = true) : forwarded [observation] = [observation] := by
  simp [forwarded, h]

theorem registered_of_isForwarded {observation : Observation}
    (h : observation.isForwarded = true) : registered [observation] = [] := by
  simp [registered, h]

/-- The evidence of a run of the operation. -/
def evidenceOf (trace : Trace) : List Observation :=
  (Inspector.receipts trace).map .receipt ++ (Inspector.events trace).map .inspectorEvent

theorem isForwarded_of_mem_evidenceOf {trace : Trace} {observation : Observation}
    (h : observation ∈ evidenceOf trace) : observation.isForwarded = true := by
  rcases List.mem_append.mp h with h | h <;> obtain ⟨x, -, rfl⟩ := List.mem_map.mp h <;> rfl

/-! The operation. -/

/-- The operation has made the exchanges of a trace and has the rest to do. -/
def Remaining (call : RegisteredCall) (rest : Inspection Settled) (trace : Trace) : Prop :=
  ∀ tail settled, Runs rest tail settled → Runs call.inspection (trace ++ tail) settled

/-- While it is open and not committed the gate holds back the evidence of the operation. -/
def Buffered (s : State) : Prop :=
  s.isOpen = true →
    s.receipts = Inspector.receipts s.exchanged ∧ s.events = Inspector.events s.exchanged

/-- Nothing of the operation has been forwarded. -/
structure Withheld (s : State) : Prop where
  committed : s.committed = false
  silent : forwarded s.observed = []

/-- The journal acknowledged the receipt of the operation, if it has one. -/
inductive Acknowledged (platform : Platform) (s : State) : Prop
  | unreceipted (receipts : Inspector.receipts s.exchanged = []) (appended : s.appended = [])
  | acknowledged {receipt : ArtifactInspectionReceipt} {digest : Text} {rawAcknowledgement : Value}
      {acknowledgement : ArtifactReceiptJournalAcknowledgement}
      (receipts : Inspector.receipts s.exchanged = [receipt])
      (digested : artifactInspectionReceiptSha256 platform receipt = some digest)
      (appended : s.appended = [⟨receipt, digest⟩])
      (replied : s.journalReplies = [.ok rawAcknowledgement])
      (valid : artifactReceiptJournalAcknowledgementSchema rawAcknowledgement = some acknowledgement)
      (matching : acknowledgement.receiptSha256 = digest)

/-- How far the append of a receipt has come. -/
inductive Appending (receipt : ArtifactInspectionReceipt) (digest : Text) :
    List (Except Unit Value) → Program Append AppendReply
      (Option ArtifactReceiptJournalAcknowledgement) → Prop
  | started : Appending receipt digest []
      (.ask ⟨receipt, digest⟩ fun reply => .done (acknowledgementOf digest reply))
  | replied (reply : Except Unit Value) :
      Appending receipt digest [reply] (.done (acknowledgementOf digest reply))

/-- How an operation whose outcome is determined got there: with its own output
and all evidence forwarded or about to be, too late for the gate, or rejected by the journal. -/
inductive Concluding (call : RegisteredCall) (s : State) :
    InspectionOutput → List Observation → Prop
  | own {output : InspectionOutput} {pending : List Observation}
      (run : Runs call.inspection s.exchanged (.ok output))
      (acknowledged : Acknowledged call.platform s) (committed : s.committed = true)
      (failure : s.journalFailure = false)
      (evidence : forwarded s.observed ++ pending = evidenceOf s.exchanged) :
      Concluding call s output pending
  | late {output : InspectionOutput} (closed : s.isOpen = false) (withheld : Withheld s)
      (once : s.appended.length ≤ 1) (failure : s.journalFailure = false) :
      Concluding call s output []
  | rejected (withheld : Withheld s) (once : s.appended.length ≤ 1)
      (failure : s.journalFailure = true) : Concluding call s (.error .internalError) []

/-- How far a call has come, by its phase. -/
inductive Progress (call : RegisteredCall) (s : State) : Phase → Prop
  | inspecting {rest : Inspection Settled}
      (remaining : Remaining call rest s.exchanged) (buffered : Buffered s)
      (withheld : Withheld s) (appended : s.appended = []) (replies : s.journalReplies = [])
      (failure : s.journalFailure = false) : Progress call s (.inspecting rest)
  | committing {output : InspectionOutput}
      {rest : Program Append AppendReply (Option ArtifactReceiptJournalAcknowledgement)}
      {receipt : ArtifactInspectionReceipt} {digest : Text}
      (run : Runs call.inspection s.exchanged (.ok output)) (buffered : Buffered s)
      (receipts : Inspector.receipts s.exchanged = [receipt])
      (digested : artifactInspectionReceiptSha256 call.platform receipt = some digest)
      (withheld : Withheld s) (appended : s.appended = [⟨receipt, digest⟩])
      (appending : Appending receipt digest s.journalReplies rest)
      (failure : s.journalFailure = false) : Progress call s (.committing output rest)
  | settling {output : InspectionOutput} {pending : List Observation}
      (concluding : Concluding call s output pending) : Progress call s (.settling output pending)
  | settled {output : InspectionOutput} (concluding : Concluding call s output [])
      (decided : s.race ≠ none) : Progress call s (.settled output)

/-! The race. -/

/-- Whose outcome is returned, and what the registration adds to the evidence. -/
structure Decided (call : RegisteredCall) (s : State) : Prop where
  own : ∀ output, s.race = some (.output output) →
    s.phase = .settled output ∧ (s.committed = true ∨ s.journalFailure = true)
  running : s.returned = none → s.isOpen = true ∧ registered s.observed = []
  returned : ∀ output, s.returned = some output → s.isOpen = false ∧
    (∃ outcome, s.race = some outcome ∧ output = outcome.toOutput) ∧
    ∀ output pending, s.phase = .settling output pending → pending = []
  deadline : ∀ output, s.returned = some output → isFixedDeadlineExceededOutput output = true →
    ∃ elapsedMs, registered s.observed =
      [.registrationEvent (registrationEvent call .deadlineExceeded elapsedMs)]
  failed : ∀ output, s.returned = some output → isFixedDeadlineExceededOutput output = false →
    s.journalFailure = true → ∃ elapsedMs, registered s.observed =
      [.registrationEvent (registrationEvent call .internalError elapsedMs)]
  unfailed : ∀ output, s.returned = some output → isFixedDeadlineExceededOutput output = false →
    s.journalFailure = false → registered s.observed = []

structure Invariant (call : RegisteredCall) (s : State) : Prop where
  progress : Progress call s s.phase
  decided : Decided call s

/-! Steps that change nothing of what a call has come to. -/

/-- A state has what another has, but may be closed. -/
structure Carries (s t : State) : Prop where
  exchanged : t.exchanged = s.exchanged
  isOpen : t.isOpen = true → s.isOpen = true ∧ t.receipts = s.receipts ∧ t.events = s.events
  committed : t.committed = s.committed
  journalFailure : t.journalFailure = s.journalFailure
  appended : t.appended = s.appended
  journalReplies : t.journalReplies = s.journalReplies
  observed : forwarded t.observed = forwarded s.observed
  race : s.race ≠ none → t.race ≠ none

section Carry

variable {call : RegisteredCall} {s t : State}

theorem Withheld.carry (h : Withheld s) (hst : Carries s t) : Withheld t :=
  ⟨hst.committed.trans h.committed, hst.observed.trans h.silent⟩

theorem Buffered.carry (h : Buffered s) (hst : Carries s t) : Buffered t := by
  intro hopen
  obtain ⟨hs, hreceipts, hevents⟩ := hst.isOpen hopen
  rw [hreceipts, hevents, hst.exchanged]
  exact h hs

theorem Acknowledged.carry {platform : Platform} (h : Acknowledged platform s)
    (hexchanged : t.exchanged = s.exchanged) (happended : t.appended = s.appended)
    (hreplies : t.journalReplies = s.journalReplies) : Acknowledged platform t := by
  cases h with
  | unreceipted receipts appended =>
    exact .unreceipted (hexchanged ▸ receipts) (happended.trans appended)
  | acknowledged receipts digested appended replied valid matching =>
    exact .acknowledged (hexchanged ▸ receipts) digested (happended.trans appended)
      (hreplies.trans replied) valid matching

theorem Concluding.carry {output : InspectionOutput} {pending : List Observation}
    (h : Concluding call s output pending) (hst : Carries s t) :
    Concluding call t output pending := by
  cases h with
  | own run acknowledged committed failure evidence =>
    exact .own (hst.exchanged ▸ run)
      (acknowledged.carry hst.exchanged hst.appended hst.journalReplies)
      (hst.committed.trans committed) (hst.journalFailure.trans failure)
      (by rw [hst.observed, hst.exchanged, evidence])
  | late closed withheld once failure =>
    refine .late ?_ (withheld.carry hst) (by rw [hst.appended]; exact once)
      (hst.journalFailure.trans failure)
    by_contra hopen
    rw [(hst.isOpen (by simpa using hopen)).1] at closed
    cases closed
  | rejected withheld once failure =>
    exact .rejected (withheld.carry hst) (by rw [hst.appended]; exact once)
      (hst.journalFailure.trans failure)

theorem Progress.carry {phase : Phase} (h : Progress call s phase) (hst : Carries s t) :
    Progress call t phase := by
  cases h with
  | inspecting remaining buffered withheld appended replies failure =>
    exact .inspecting (hst.exchanged ▸ remaining) (buffered.carry hst) (withheld.carry hst)
      (hst.appended.trans appended) (hst.journalReplies.trans replies)
      (hst.journalFailure.trans failure)
  | committing run buffered receipts digested withheld appended appending failure =>
    exact .committing (hst.exchanged ▸ run) (buffered.carry hst) (hst.exchanged ▸ receipts) digested
      (withheld.carry hst) (hst.appended.trans appended) (by rw [hst.journalReplies]; exact appending)
      (hst.journalFailure.trans failure)
  | settling concluding => exact .settling (concluding.carry hst)
  | settled concluding decided => exact .settled (concluding.carry hst) (hst.race decided)

end Carry

/-! The race, step by step. -/

/-- The promise of the operation is still to settle. -/
def Phase.isPending : Phase → Bool
  | .settled _ => false
  | _ => true

section Race

variable {call : RegisteredCall} {s t : State}

theorem Decided.race_eq (h : Decided call s) (hpending : s.phase.isPending = true) :
    s.race = none ∨ s.race = some .deadline := by
  cases hrace : s.race with
  | none => exact .inl rfl
  | some outcome =>
    cases outcome with
    | deadline => exact .inr rfl
    | output output =>
      rw [(h.own output hrace).1] at hpending
      cases hpending

/-- A call that returned before its operation settled returned at its deadline. -/
theorem Decided.returned_eq (h : Decided call s) (hpending : s.phase.isPending = true)
    {output : InspectionOutput} (hreturned : s.returned = some output) :
    s.race = some .deadline ∧ output = .error .deadlineExceeded := by
  obtain ⟨-, ⟨outcome, hrace, rfl⟩, -⟩ := h.returned output hreturned
  rcases h.race_eq hpending with hnone | hdeadline
  · rw [hrace] at hnone
    cases hnone
  · rw [hrace] at hdeadline
    cases hdeadline
    exact ⟨hrace, rfl⟩

/-- The operation takes a step short of settling. -/
theorem Decided.advance (h : Decided call s) (hpending : s.phase.isPending = true)
    (hrace : t.race = s.race) (hreturned : t.returned = s.returned) (hopen : t.isOpen = s.isOpen)
    (hobserved : registered t.observed = registered s.observed)
    (hsettling : s.isOpen = false → ∀ output pending, t.phase = .settling output pending →
      pending = []) : Decided call t := by
  have hfixed : ∀ output, t.returned = some output →
      isFixedDeadlineExceededOutput output = true := by
    intro output h'
    have heq := (h.returned_eq hpending (hreturned.symm.trans h')).2
    rw [heq]
    rfl
  refine ⟨?_, ?_, ?_, ?_, ?_, ?_⟩
  · intro output h'
    rcases h.race_eq hpending with hnone | hdeadline
    · rw [hrace, hnone] at h'
      cases h'
    · rw [hrace, hdeadline] at h'
      cases h'
  · intro h'
    rw [hopen, hobserved]
    exact h.running (hreturned ▸ h')
  · intro output h'
    obtain ⟨hclosed, houtcome, -⟩ := h.returned output (hreturned ▸ h')
    exact ⟨hopen.trans hclosed, hrace ▸ houtcome, hsettling hclosed⟩
  · intro output h' houtput
    rw [hobserved]
    exact h.deadline output (hreturned ▸ h') houtput
  · intro output h' houtput
    rw [hfixed output h'] at houtput
    cases houtput
  · intro output h' houtput
    rw [hfixed output h'] at houtput
    cases houtput

/-- The deadline comes first or comes to nothing. -/
theorem Decided.decide (h : Decided call s) : Decided call (s.decide .deadline) := by
  cases hrace : s.race with
  | none =>
    have hreturned : s.returned = none := by
      by_contra hne
      obtain ⟨output, houtput⟩ := Option.ne_none_iff_exists'.mp hne
      obtain ⟨-, ⟨outcome, houtcome, -⟩, -⟩ := h.returned output houtput
      rw [hrace] at houtcome
      cases houtcome
    have hnot : ∀ output, (s.decide .deadline).returned ≠ some output := by
      intro output h'
      rw [State.decide, hreturned] at h'
      cases h'
    refine ⟨?_, fun _ => h.running hreturned, fun output h' => absurd h' (hnot output),
      fun output h' => absurd h' (hnot output), fun output h' => absurd h' (hnot output),
      fun output h' => absurd h' (hnot output)⟩
    intro output h'
    simp [State.decide, hrace] at h'
  | some outcome =>
    have hsame : s.decide .deadline = s := by
      cases s
      simp_all [State.decide]
    rw [hsame]
    exact h

/-- The operation's own output decides an open race. -/
theorem Decided.settle (h : Decided call s) {output : InspectionOutput}
    (hphase : s.phase = .settling output [])
    (hown : s.isOpen = true → s.committed = true ∨ s.journalFailure = true) :
    Decided call { s.decide (.output output) with phase := .settled output } := by
  have hpending : s.phase.isPending = true := by rw [hphase]; rfl
  rcases h.race_eq hpending with hnone | hdeadline
  · have hreturned : s.returned = none := by
      by_contra hne
      obtain ⟨output, houtput⟩ := Option.ne_none_iff_exists'.mp hne
      rw [(h.returned_eq hpending houtput).1] at hnone
      cases hnone
    have hnot : ∀ other, s.returned ≠ some other := by simp [hreturned]
    refine ⟨?_, fun _ => h.running hreturned, fun other h' => absurd h' (hnot other),
      fun other h' => absurd h' (hnot other), fun other h' => absurd h' (hnot other),
      fun other h' => absurd h' (hnot other)⟩
    intro other h'
    have hother : output = other := by simpa [State.decide, hnone] using h'
    subst hother
    exact ⟨rfl, hown (h.running hreturned).1⟩
  · refine h.advance hpending ?_ rfl rfl rfl nofun
    simp [State.decide, hdeadline]

theorem Decided.close (h : Decided call s) {outcome : Outcome} {now : ℚ}
    (hrace : s.race = some outcome) (hreturned : s.returned = none)
    (hbetween : s.phase.isBetween = true) : Decided call (s.close call outcome now) := by
  have hsilent := (h.running hreturned).2
  have heq : ∀ output, (s.close call outcome now).returned = some output →
      output = outcome.toOutput := fun output h' => (Option.some.inj h').symm
  refine ⟨h.own, nofun, ?_, ?_, ?_, ?_⟩
  · intro output h'
    refine ⟨rfl, ⟨outcome, hrace, heq output h'⟩, ?_⟩
    intro other pending hphase
    change s.phase = _ at hphase
    rw [hphase] at hbetween
    exact List.isEmpty_iff.mp hbetween
  · intro output h' hfixed
    rw [heq output h'] at hfixed
    simp only [State.close, hfixed, if_true, registered_append, hsilent, List.nil_append]
    exact ⟨_, rfl⟩
  · intro output h' hfixed hfailure
    rw [heq output h'] at hfixed
    change s.journalFailure = true at hfailure
    simp only [State.close, hfixed, hfailure, if_true, registered_append, hsilent,
      List.nil_append]
    exact ⟨_, rfl⟩
  · intro output h' hfixed hfailure
    rw [heq output h'] at hfixed
    change s.journalFailure = false at hfailure
    simp [State.close, hfixed, hfailure, hsilent]

end Race

/-! The operation, step by step. -/

section Steps

variable {call : RegisteredCall} {s : State}

theorem State.buffer_eq (s : State) (q : Request) : s.buffer q =
    { s with events := (s.buffer q).events, receipts := (s.buffer q).receipts } := by
  cases q <;> simp only [State.buffer] <;> split <;> rfl

/-- An open gate that is not committed holds back what it is handed. -/
theorem State.buffer_open (hopen : s.isOpen = true) (hcommitted : s.committed = false)
    (q : Request) (reply : Inspector.Reply q) :
    (s.buffer q).receipts = s.receipts ++ (receiptOf ⟨q, reply⟩).toList ∧
      (s.buffer q).events = s.events ++ (eventOf ⟨q, reply⟩).toList := by
  cases q <;> simp [State.buffer, receiptOf, eventOf, hopen, hcommitted]

theorem receipts_append (first rest : Trace) :
    Inspector.receipts (first ++ rest) = Inspector.receipts first ++ Inspector.receipts rest :=
  List.filterMap_append

theorem events_append (first rest : Trace) :
    Inspector.events (first ++ rest) = Inspector.events first ++ Inspector.events rest :=
  List.filterMap_append

theorem Buffered.buffer (h : Buffered s) (hcommitted : s.committed = false) (q : Request)
    (reply : Inspector.Reply q) (phase : Phase) :
    Buffered { s.buffer q with
      phase := phase, exchanged := s.exchanged ++ [⟨q, reply⟩] } := by
  intro hbuffer
  have hopen : s.isOpen = true := by
    rw [s.buffer_eq q] at hbuffer
    exact hbuffer
  obtain ⟨hreceipts, hevents⟩ := h hopen
  obtain ⟨hreceipts', hevents'⟩ := State.buffer_open hopen hcommitted q reply
  simp only [receipts_append, events_append, receipts_cons, events_cons]
  simp [hreceipts', hevents', hreceipts, hevents, Inspector.receipts, Inspector.events]

theorem Remaining.ask {q : Request} {next : Inspector.Reply q → Inspection Settled} {trace : Trace}
    (h : Remaining call (.ask q next) trace) (reply : Inspector.Reply q) :
    Remaining call (next reply) (trace ++ [⟨q, reply⟩]) := by
  intro tail settled hrun
  have hlonger := h (⟨q, reply⟩ :: tail) settled (.ask hrun)
  rwa [List.append_assoc]

theorem Remaining.done {settled : Settled} {trace : Trace}
    (h : Remaining call (.done settled) trace) : Runs call.inspection trace settled := by
  have hrun := h [] settled (.done settled)
  rwa [List.append_nil] at hrun

/-- A run of the operation resolves. -/
theorem Remaining.not_error {trace : Trace} {e : Thrown}
    (h : Remaining call (.done (.error e)) trace) : False := by
  obtain ⟨output, houtput, -⟩ := inspect_disciplined _ _ _ _ _ _ h.done
  cases houtput

theorem Invariant.inspect {q : Request} {next : Inspector.Reply q → Inspection Settled}
    (h : Invariant call s) (hphase : s.phase = .inspecting (.ask q next))
    (reply : Inspector.Reply q) :
    Invariant call { s.buffer q with
      phase := .inspecting (next reply), exchanged := s.exchanged ++ [⟨q, reply⟩] } := by
  have hpending : s.phase.isPending = true := by rw [hphase]; rfl
  have hprogress := h.progress
  rw [hphase] at hprogress
  cases hprogress with
  | inspecting remaining buffered withheld appended replies failure =>
    have hbuffered := buffered.buffer withheld.committed q reply (.inspecting (next reply))
    rw [s.buffer_eq q] at hbuffered ⊢
    exact ⟨.inspecting (remaining.ask reply) hbuffered
      ⟨withheld.committed, withheld.silent⟩ appended replies failure,
      h.decided.advance hpending rfl rfl rfl rfl nofun⟩

/-- A commit that fails before anything is forwarded. -/
theorem Invariant.failJournal (h : Invariant call s) (hpending : s.phase.isPending = true)
    (hwithheld : Withheld s) (honce : s.appended.length ≤ 1) :
    Invariant call s.failJournal := by
  refine ⟨.settling (.rejected ⟨hwithheld.committed, hwithheld.silent⟩ honce rfl),
    h.decided.advance hpending rfl rfl rfl rfl ?_⟩
  rintro - output pending ⟨rfl, rfl⟩
  rfl

/-- Evidence whose receipt, if any, is acknowledged goes out where the gate is open. -/
theorem Invariant.forwardEvidence {output : InspectionOutput} (h : Invariant call s)
    (hpending : s.phase.isPending = true) (hwithheld : Withheld s)
    (honce : s.appended.length ≤ 1) (hfailure : s.journalFailure = false)
    (hbuffered : Buffered s) (hrun : Runs call.inspection s.exchanged (.ok output))
    (hacknowledged : Acknowledged call.platform s) :
    Invariant call (s.forwardEvidence output) := by
  by_cases hopen : s.isOpen = true
  · obtain ⟨hreceipts, hevents⟩ := hbuffered hopen
    simp only [State.forwardEvidence, hopen, if_true]
    refine ⟨.settling (.own hrun (hacknowledged.carry rfl rfl rfl) rfl hfailure ?_),
      h.decided.advance hpending rfl rfl hopen.symm rfl fun hclosed => ?_⟩
    · change forwarded s.observed ++ s.evidence = _
      rw [hwithheld.silent, State.evidence, hreceipts, hevents]
      rfl
    · rw [hopen] at hclosed
      cases hclosed
  · have hclosed : s.isOpen = false := by simpa using hopen
    simp only [State.forwardEvidence, hclosed, Bool.false_eq_true, if_false]
    refine ⟨.settling (.late rfl ⟨hwithheld.committed, hwithheld.silent⟩ honce hfailure),
      h.decided.advance hpending rfl rfl hclosed.symm rfl ?_⟩
    rintro - other pending ⟨rfl, rfl⟩
    rfl

/-- The journal is asked at most once. -/
theorem appendArtifactInspectionReceipt_cases (platform : Platform)
    (receipt : ArtifactInspectionReceipt) (digest : Text) :
    appendArtifactInspectionReceipt platform receipt digest = .done none ∨
      appendArtifactInspectionReceipt platform receipt digest =
        .ask ⟨receipt, digest⟩ fun reply => .done (acknowledgementOf digest reply) := by
  unfold appendArtifactInspectionReceipt
  split
  · exact .inl rfl
  · split
    · exact .inl rfl
    · split
      · exact .inl rfl
      · exact .inr rfl

/-- What `commit` comes to at its first `await`. -/
inductive Commits (platform : Platform) (s : State) (output : InspectionOutput) : State → Prop
  | fails : Commits platform s output s.failJournal
  | forwards (isOpen : s.isOpen = true) (committed : s.committed = false)
      (receipts : s.receipts = []) : Commits platform s output (s.forwardEvidence output)
  | appends {receipt : ArtifactInspectionReceipt} {digest : Text} (isOpen : s.isOpen = true)
      (receipts : s.receipts = [receipt])
      (digested : artifactInspectionReceiptSha256 platform receipt = some digest) :
      Commits platform s output
        { s with
          phase := .committing output
            (.ask ⟨receipt, digest⟩ fun reply => .done (acknowledgementOf digest reply))
          appended := s.appended ++ [⟨receipt, digest⟩] }

theorem State.commit_cases (platform : Platform) (s : State) (output : InspectionOutput) :
    Commits platform s output (s.commit platform output) := by
  unfold State.commit
  split
  · exact .fails
  · next hgate =>
    simp only [Bool.or_eq_true, Bool.not_eq_true', decide_eq_true_eq, not_or, Bool.not_eq_true,
      Bool.not_eq_false, not_lt] at hgate
    obtain ⟨⟨hopen, hcommitted⟩, hlength⟩ := hgate
    split
    · next hreceipts => exact .forwards hopen hcommitted hreceipts
    · next receipt rest hreceipts =>
      obtain rfl : rest = [] := by
        rw [hreceipts] at hlength
        simpa using hlength
      cases hdigest : artifactInspectionReceiptSha256 platform receipt with
      | none => exact .fails
      | some digest =>
        rcases appendArtifactInspectionReceipt_cases platform receipt digest with happend | happend
        · simp only [happend]
          exact .fails
        · simp only [happend]
          exact .appends hopen hreceipts hdigest

theorem Invariant.commit {output : InspectionOutput} (h : Invariant call s)
    (hphase : s.phase = .inspecting (.done (.ok output))) :
    Invariant call (s.commit call.platform output) := by
  have hpending : s.phase.isPending = true := by rw [hphase]; rfl
  have hprogress := h.progress
  rw [hphase] at hprogress
  cases hprogress with
  | inspecting remaining buffered withheld appended replies failure =>
    have honce : s.appended.length ≤ 1 := by simp [appended]
    have hcommits := s.commit_cases call.platform output
    generalize s.commit call.platform output = t at hcommits ⊢
    cases hcommits with
    | fails => exact h.failJournal hpending withheld honce
    | forwards isOpen _ receipts =>
      refine h.forwardEvidence hpending withheld honce failure buffered remaining.done
        (.unreceipted ?_ appended)
      rw [← (buffered isOpen).1, receipts]
    | @appends receipt digest isOpen receipts digested =>
      refine ⟨.committing remaining.done (fun hopen => buffered hopen) ?_ digested
        ⟨withheld.committed, withheld.silent⟩ ?_ ?_ failure,
        h.decided.advance hpending rfl rfl rfl rfl nofun⟩
      · rw [← (buffered isOpen).1, receipts]
      · simp [appended]
      · change Appending receipt digest s.journalReplies _
        rw [replies]
        exact .started

/-- The journal's acknowledgement, valid and of the receipt's digest. -/
theorem acknowledgementOf_eq_some {digest : Text} {reply : Except Unit Value}
    {acknowledgement : ArtifactReceiptJournalAcknowledgement}
    (h : acknowledgementOf digest reply = some acknowledgement) :
    ∃ rawAcknowledgement, reply = .ok rawAcknowledgement ∧
      artifactReceiptJournalAcknowledgementSchema rawAcknowledgement = some acknowledgement ∧
      acknowledgement.receiptSha256 = digest := by
  cases reply with
  | error e => cases h
  | ok rawAcknowledgement =>
    simp only [acknowledgementOf, Option.bind_eq_bind, Option.bind_eq_some_iff] at h
    obtain ⟨parsed, hparsed, h⟩ := h
    by_cases hdigest : parsed.receiptSha256 = digest
    · simp only [hdigest, guard_true, Option.pure_def, Option.some.injEq] at h
      obtain ⟨-, -, rfl⟩ := h
      exact ⟨rawAcknowledgement, rfl, hparsed, hdigest⟩
    · simp [hdigest, guard] at h

theorem Invariant.journal {output : InspectionOutput} {append : Append}
    {next : AppendReply append →
      Program Append AppendReply (Option ArtifactReceiptJournalAcknowledgement)}
    (h : Invariant call s) (hphase : s.phase = .committing output (.ask append next))
    (reply : AppendReply append) :
    Invariant call { s with phase := .committing output (next reply),
                            journalReplies := s.journalReplies ++ [reply] } := by
  have hpending : s.phase.isPending = true := by rw [hphase]; rfl
  have hprogress := h.progress
  rw [hphase] at hprogress
  cases hprogress with
  | committing run buffered receipts digested withheld appended appending failure =>
    refine ⟨.committing run (fun hopen => buffered hopen) receipts digested
      ⟨withheld.committed, withheld.silent⟩ appended ?_ failure,
      h.decided.advance hpending rfl rfl rfl rfl nofun⟩
    change Appending _ _ (s.journalReplies ++ [reply]) _
    generalize s.journalReplies = replies at appending ⊢
    cases appending
    exact .replied reply

theorem Invariant.acknowledge {output : InspectionOutput}
    {acknowledgement : Option ArtifactReceiptJournalAcknowledgement} (h : Invariant call s)
    (hphase : s.phase = .committing output (.done acknowledgement)) :
    Invariant call
      (if acknowledgement.isSome then s.forwardEvidence output else s.failJournal) := by
  have hpending : s.phase.isPending = true := by rw [hphase]; rfl
  have hprogress := h.progress
  rw [hphase] at hprogress
  cases hprogress with
  | @committing _ _ receipt digest run buffered receipts digested withheld appended appending
      failure =>
    have honce : s.appended.length ≤ 1 := by simp [appended]
    cases acknowledgement with
    | none => exact h.failJournal hpending withheld honce
    | some acknowledgement =>
      refine h.forwardEvidence hpending withheld honce failure buffered run ?_
      generalize hreplies : s.journalReplies = replies at appending
      generalize hrest : Program.done (some acknowledgement) = rest at appending
      cases appending with
      | started => cases hrest
      | replied reply =>
        simp only [Program.done.injEq] at hrest
        obtain ⟨rawAcknowledgement, rfl, hvalid, hmatching⟩ := acknowledgementOf_eq_some hrest.symm
        exact .acknowledged receipts digested appended hreplies hvalid hmatching

theorem Invariant.forward {output : InspectionOutput} {observation : Observation}
    {pending : List Observation} (h : Invariant call s)
    (hphase : s.phase = .settling output (observation :: pending)) :
    Invariant call { s with phase := .settling output pending,
                            observed := s.observed ++ [observation] } := by
  have hpending : s.phase.isPending = true := by rw [hphase]; rfl
  have hprogress := h.progress
  rw [hphase] at hprogress
  cases hprogress with
  | settling concluding =>
    cases concluding with
    | own run acknowledged committed failure evidence =>
      have hmem : observation ∈ evidenceOf s.exchanged := by
        rw [← evidence]
        simp
      have hforwarded := isForwarded_of_mem_evidenceOf hmem
      refine ⟨.settling (.own run (acknowledged.carry rfl rfl rfl) committed failure ?_),
        h.decided.advance hpending rfl rfl rfl ?_ fun hclosed => ?_⟩
      · change forwarded (s.observed ++ [observation]) ++ pending = evidenceOf s.exchanged
        rw [← evidence]
        simp [forwarded_of_isForwarded hforwarded]
      · simp [registered_of_isForwarded hforwarded]
      · -- a call that has returned has nothing left to forward
        cases hreturned : s.returned with
        | none =>
          rw [(h.decided.running hreturned).1] at hclosed
          cases hclosed
        | some output =>
          obtain ⟨-, -, hnil⟩ := h.decided.returned output hreturned
          cases hnil _ _ hphase

theorem Invariant.settle {output : InspectionOutput} (h : Invariant call s)
    (hphase : s.phase = .settling output []) :
    Invariant call { s.decide (.output output) with phase := .settled output } := by
  have hprogress := h.progress
  rw [hphase] at hprogress
  cases hprogress with
  | settling concluding =>
    have hcarries : Carries s { s.decide (.output output) with phase := .settled output } :=
      ⟨rfl, fun hopen => ⟨hopen, rfl, rfl⟩, rfl, rfl, rfl, rfl, rfl, fun _ => by simp [State.decide]⟩
    refine ⟨.settled (concluding.carry hcarries) (by simp [State.decide]),
      h.decided.settle hphase fun hopen => ?_⟩
    cases concluding with
    | own _ _ committed => exact .inl committed
    | late closed =>
      rw [hopen] at closed
      cases closed
    | rejected _ _ failure => exact .inr failure

theorem Invariant.decide (h : Invariant call s) : Invariant call (s.decide .deadline) :=
  ⟨h.progress.carry ⟨rfl, fun hopen => ⟨hopen, rfl, rfl⟩, rfl, rfl, rfl, rfl, rfl,
    fun _ => by simp [State.decide]⟩, h.decided.decide⟩

theorem Invariant.close {outcome : Outcome} (h : Invariant call s)
    (hrace : s.race = some outcome) (hreturned : s.returned = none)
    (hbetween : s.phase.isBetween = true) (now : ℚ) :
    Invariant call (s.close call outcome now) := by
  refine ⟨h.progress.carry ⟨rfl, nofun, rfl, rfl, rfl, rfl, ?_, id⟩,
    h.decided.close hrace hreturned hbetween⟩
  simp only [State.close, forwarded_append]
  split
  · exact List.append_nil _
  · split <;> exact List.append_nil _

end Steps

/-! Every step. -/

theorem invariant_initial (call : RegisteredCall) : Invariant call (initial call) :=
  ⟨.inspecting (fun _ _ hrun => hrun) (fun _ => ⟨rfl, rfl⟩) ⟨rfl, rfl⟩ rfl rfl rfl,
    ⟨nofun, fun _ => ⟨rfl, rfl⟩, nofun, nofun, nofun, nofun⟩⟩

theorem invariant_step {call : RegisteredCall} {s t : State} {label : Label}
    (h : Invariant call s) (hstep : step call s label = some t) : Invariant call t := by
  cases label with
  | inspect reply =>
    simp only [step] at hstep
    split at hstep
    · next q next hphase =>
      cases hstep
      exact h.inspect hphase _
    · cases hstep
  | commit =>
    simp only [step] at hstep
    split at hstep
    · next output hphase =>
      cases hstep
      exact h.commit hphase
    · next e hphase =>
      have hprogress := h.progress
      rw [hphase] at hprogress
      cases hprogress with
      | inspecting remaining => exact remaining.not_error.elim
    · cases hstep
  | journal reply =>
    simp only [step] at hstep
    split at hstep
    · next output append next hphase =>
      cases hstep
      exact h.journal hphase _
    · cases hstep
  | acknowledge =>
    simp only [step] at hstep
    split at hstep
    · next hphase =>
      cases hstep
      exact h.acknowledge hphase
    · next hphase =>
      cases hstep
      exact h.acknowledge hphase
    · cases hstep
  | forward reply =>
    simp only [step] at hstep
    split at hstep
    · next output observation pending hphase =>
      cases hstep
      exact h.forward hphase
    · cases hstep
  | settle =>
    simp only [step] at hstep
    split at hstep
    · next output hphase =>
      cases hstep
      exact h.settle hphase
    · cases hstep
  | timer =>
    simp only [step] at hstep
    split at hstep
    · cases hstep
      exact h.decide
    · cases hstep
  | abort =>
    cases hstep
    exact h.decide
  | close now =>
    simp only [step] at hstep
    split at hstep
    · next outcome hrace hreturned =>
      split at hstep
      · next hbetween =>
        cases hstep
        exact h.close hrace hreturned hbetween now
      · cases hstep
    · cases hstep

/-- The invariant holds at every point of every interleaving. -/
theorem invariant_of_reachable {call : RegisteredCall} {s : State}
    (h : Reachable (step call) (initial call) s) : Invariant call s :=
  invariant_reachable invariant_step (invariant_initial call) h

end Registration
