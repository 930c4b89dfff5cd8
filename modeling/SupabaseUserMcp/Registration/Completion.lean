import SupabaseUserMcp.ReceiptJournal.Graph
import SupabaseUserMcp.Registration.Invariant

/- What a call can return: every output that a run of the operation resolves with,
   when the observers and the journal do what they are there for. -/
namespace Registration

open Js Inspection Inspector ReceiptJournal
open Process (Program Runs execute execute_append execute_cons execute_nil Reachable)

/-! The journal takes every receipt that is emitted. -/

section Journal

variable (platform : Platform)

/-- A receipt that passes its schema has a digest and is handed to the journal. -/
theorem appendArtifactInspectionReceipt_valid {receipt : ArtifactInspectionReceipt}
    (hvalid : artifactInspectionReceiptSchema receipt = true) :
    ∃ digest, artifactInspectionReceiptSha256 platform receipt = some digest ∧
      isLowerHex 64 digest = true ∧
      appendArtifactInspectionReceipt platform receipt digest =
        .ask ⟨receipt, digest⟩ fun reply => .done (acknowledgementOf digest reply) := by
  have hgraph := isCanonicalJsonGraph_toValue receipt
  obtain ⟨bytes, hbytes⟩ : ∃ bytes,
      canonicalArtifactInspectionReceiptBytes platform receipt = some bytes := by
    simp [canonicalArtifactInspectionReceiptBytes, hgraph, hvalid]
  refine ⟨platform.sha256Hex bytes, by simp [artifactInspectionReceiptSha256, hbytes], by simp, ?_⟩
  simp [appendArtifactInspectionReceipt, hgraph, hvalid, artifactInspectionReceiptSha256, hbytes]

/-- The acknowledgement of a digest. -/
def acknowledgementValue (digest : Text) : Value :=
  .object [property "schemaVersion" (.string artifactReceiptJournalAckSchemaVersion),
    property "receiptSha256" (.string digest), property "journalRef" (.string (text "journal-1"))]

theorem acknowledgementOf_acknowledgementValue {digest : Text} (h : isLowerHex 64 digest = true) :
    acknowledgementOf digest (.ok (acknowledgementValue digest)) =
      some ⟨digest, text "journal-1"⟩ := by
  have hversion : Schema.literal artifactReceiptJournalAckSchemaVersion
      (.string artifactReceiptJournalAckSchemaVersion) = some () := by decide
  have hdigest : lowercaseSha256Schema (.string digest) = some digest := Schema.refine_of rfl h
  have hjournal : authorizationIdentifierSchema (.string (text "journal-1")) =
      some (text "journal-1") := by decide
  have hack : artifactReceiptJournalAcknowledgementSchema (acknowledgementValue digest) =
      some ⟨digest, text "journal-1"⟩ := by
    simp +decide [artifactReceiptJournalAcknowledgementSchema, acknowledgementValue,
      Schema.strictObject, property, Value.property, hversion, hdigest, hjournal]
  simp [acknowledgementOf, hack]

end Journal

/-! A run through to its end. -/

section Completion

variable {call : RegisteredCall}

/-- The operation runs to its end while the gate holds back its evidence. -/
theorem execute_inspect (answer : ∀ q, Inspector.Reply q) : ∀ (p : Inspection Settled) {s : State},
    s.phase = .inspecting p → s.isOpen = true → s.committed = false →
      ∃ labels t, execute (step call) s labels = some t ∧
        t = { s with
          phase := .inspecting (.done (p.run (gatedReply answer)).2)
          exchanged := s.exchanged ++ (p.run (gatedReply answer)).1
          receipts := s.receipts ++ Inspector.receipts (p.run (gatedReply answer)).1
          events := s.events ++ Inspector.events (p.run (gatedReply answer)).1 } := by
  intro p
  induction p with
  | done settled =>
    intro s hphase _ _
    refine ⟨[], s, rfl, ?_⟩
    cases s
    simp_all [Inspector.receipts, Inspector.events]
  | ask q next ih =>
    intro s hphase hopen hcommitted
    have hstep : step call s (.inspect answer) = some { s.buffer q with
        phase := .inspecting (next (gatedReply answer q))
        exchanged := s.exchanged ++ [⟨q, gatedReply answer q⟩] } := by
      simp only [step, hphase]
    obtain ⟨hreceipts, hevents⟩ := State.buffer_open hopen hcommitted q (gatedReply answer q)
    rw [s.buffer_eq q] at hstep
    obtain ⟨labels, t, hexecute, rfl⟩ := ih (gatedReply answer q) (s := { s with
      phase := .inspecting (next (gatedReply answer q))
      exchanged := s.exchanged ++ [⟨q, gatedReply answer q⟩]
      events := (s.buffer q).events, receipts := (s.buffer q).receipts }) rfl hopen hcommitted
    refine ⟨.inspect answer :: labels, _, execute_cons.mpr ⟨_, hstep, hexecute⟩, ?_⟩
    simp [Program.run, hreceipts, hevents, receipts_cons, events_cons]

/-- Forwarding runs to its end. -/
theorem execute_forward {output : InspectionOutput} : ∀ (pending : List Observation) {s : State},
    s.phase = .settling output pending → ∃ labels t, execute (step call) s labels = some t ∧
      t.phase = .settling output [] ∧ t.race = s.race ∧ t.returned = s.returned := by
  intro pending
  induction pending with
  | nil => exact fun {s} hphase => ⟨[], s, rfl, hphase, rfl, rfl⟩
  | cons observation pending ih =>
    intro s hphase
    obtain ⟨labels, t, hexecute, hsettling, hrace, hreturned⟩ := ih (s := { s with
      phase := .settling output pending, observed := s.observed ++ [observation] }) rfl
    refine ⟨.forward (.ok ()) :: labels, t, execute_cons.mpr ⟨_, ?_, hexecute⟩, hsettling, hrace,
      hreturned⟩
    simp only [step, hphase]

/-- A call whose outcome is determined in time returns it. -/
theorem execute_settle {s : State} {output : InspectionOutput} {pending : List Observation}
    (hphase : s.phase = .settling output pending) (hrace : s.race = none)
    (hreturned : s.returned = none) :
    ∃ labels t, execute (step call) s labels = some t ∧ t.returned = some output := by
  obtain ⟨labels, t, hexecute, hsettling, hrace', hreturned'⟩ :=
    execute_forward pending hphase
  rw [hrace] at hrace'
  rw [hreturned] at hreturned'
  have hsettle : step call t .settle =
      some { t.decide (.output output) with phase := .settled output } := by
    simp only [step, hsettling]
  have hclose : step call { t.decide (.output output) with phase := .settled output } (.close 0) =
      some (State.close call { t.decide (.output output) with phase := .settled output }
        (.output output) 0) := by
    simp [step, State.decide, hrace', hreturned', Phase.isBetween]
  exact ⟨labels ++ [.settle, .close 0], _, execute_append.mpr ⟨t, hexecute,
    execute_cons.mpr ⟨_, hsettle, execute_cons.mpr ⟨_, hclose, rfl⟩⟩⟩, rfl⟩

theorem execute_forwardEvidence {s : State} (output : InspectionOutput) (hopen : s.isOpen = true)
    (hrace : s.race = none) (hreturned : s.returned = none) :
    ∃ labels t, execute (step call) (s.forwardEvidence output) labels = some t ∧
      t.returned = some output := by
  have hforward : s.forwardEvidence output =
      { s with committed := true, phase := .settling output s.evidence } := by
    simp only [State.forwardEvidence, hopen, if_true]
  rw [hforward]
  exact execute_settle rfl hrace hreturned

/-- An output whose receipt passes its schema gets through the journal. -/
theorem execute_commit {s : State} {output : InspectionOutput}
    (hphase : s.phase = .inspecting (.done (.ok output))) (hopen : s.isOpen = true)
    (hcommitted : s.committed = false) (honce : s.receipts.length ≤ 1)
    (hvalid : ∀ receipt ∈ s.receipts, artifactInspectionReceiptSchema receipt = true)
    (hrace : s.race = none) (hreturned : s.returned = none) :
    ∃ labels t, execute (step call) s labels = some t ∧ t.returned = some output := by
  have hcommit : step call s .commit = some (s.commit call.platform output) := by
    simp only [step, hphase]
  cases hreceipts : s.receipts with
  | nil =>
    obtain ⟨labels, t, hexecute, ht⟩ := execute_forwardEvidence output hopen hrace
      hreturned
    refine ⟨.commit :: labels, t, execute_cons.mpr ⟨_, hcommit, ?_⟩, ht⟩
    simpa [State.commit, hopen, hcommitted, hreceipts] using hexecute
  | cons receipt others =>
    obtain rfl : others = [] := by
      rw [hreceipts, List.length_cons] at honce
      exact List.eq_nil_of_length_eq_zero (by omega)
    obtain ⟨digest, hdigest, hhex, happend⟩ := appendArtifactInspectionReceipt_valid call.platform
      (hvalid receipt (by simp [hreceipts]))
    have hack := acknowledgementOf_acknowledgementValue hhex
    let u : State := { s with
      phase := .committing output (.done (some ⟨digest, text "journal-1"⟩))
      appended := s.appended ++ [⟨receipt, digest⟩]
      journalReplies := s.journalReplies ++ [.ok (acknowledgementValue digest)] }
    obtain ⟨labels, t, hexecute, ht⟩ := execute_forwardEvidence (s := u) output
      hopen hrace hreturned
    refine ⟨.commit :: .journal (fun _ => .ok (acknowledgementValue digest)) :: .acknowledge ::
      labels, t, execute_cons.mpr ⟨_, hcommit, execute_cons.mpr ⟨u, ?_,
        execute_cons.mpr ⟨_, ?_, hexecute⟩⟩⟩, ht⟩
    · simp [State.commit, hopen, hcommitted, hreceipts, hdigest, happend, step, hack, u]
    · simp only [step, u]

/-- What a run of the operation resolves with, a call may return. -/
theorem exists_returned (answer : ∀ q, Inspector.Reply q) {output : InspectionOutput}
    (hrun : (call.inspection.run (gatedReply answer)).2 = .ok output) :
    ∃ s, Reachable (step call) (initial call) s ∧ s.returned = some output := by
  obtain ⟨first, t, hfirst, ht⟩ := execute_inspect answer call.inspection
    (s := initial call) rfl rfl rfl
  have hruns := Process.runs_run (gatedReply answer) call.inspection
  obtain ⟨own, -, hlaw⟩ := inspect_disciplined _ _ _ _ _ _ hruns
  obtain ⟨labels, u, hlabels, hu⟩ := execute_commit (s := t)
    (by rw [ht, hrun]) (by rw [ht]; rfl) (by rw [ht]; rfl) (by rw [ht]; exact hlaw.once)
    (by rw [ht]; exact inspect_receipt_valid _ _ _ _ _ _ hruns) (by rw [ht]; rfl) (by rw [ht]; rfl)
  exact ⟨u, ⟨first ++ labels, execute_append.mpr ⟨t, hfirst, hlabels⟩⟩, hu⟩

end Completion

end Registration
