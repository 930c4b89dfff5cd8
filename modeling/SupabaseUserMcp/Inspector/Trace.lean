import SupabaseUserMcp.Inspector

/- What a run of an operation leaves behind: the receipts and events its
   observers saw, the registry's answers and the bytes the adapter handed out.
   `Concluded` is the law of the three ways to end: refused without a receipt,
   failed with a receipt of the placeholder, succeeded with the receipt of the
   output. It has one rule for each fragment that ends an operation and one for
   the adapter's read. -/
namespace Inspector

open Js Inspection
open Process (Exchange Program Runs Ensures ensures_ask ensures_done ensures_bind)

abbrev Trace := List (Exchange Request Reply)

def receiptOf (x : Exchange Request Reply) : Option ArtifactInspectionReceipt :=
  match x.request with
  | .emitInspectionReceipt receipt => some receipt
  | _ => none

def eventOf (x : Exchange Request Reply) : Option ArtifactInspectorOperationalEvent :=
  match x.request with
  | .emitOperationalEvent event => some event
  | _ => none

/-- An artifact id and what the registry answered to it. -/
def resolutionOf : Exchange Request Reply → Option (Text × Except Unit Value)
  | ⟨.resolveAuthorizedArtifact _ artifactId, reply⟩ => some (artifactId, reply)
  | _ => none

/-- The byte array of an answer of the adapter. -/
def readOf : Exchange Request Reply → Option Bytes
  | ⟨.readVersionedRange .., .ok rawResult⟩ =>
    (parseReadResult rawResult).map ReadVersionedRangeResult.bytes
  | _ => none

/-- The reading of the injected clock. -/
def clockOf : Exchange Request Reply → Option ClockReading
  | ⟨.now, reading⟩ => some reading
  | _ => none

def receipts (trace : Trace) : List ArtifactInspectionReceipt := trace.filterMap receiptOf
def events (trace : Trace) : List ArtifactInspectorOperationalEvent := trace.filterMap eventOf
def resolutions (trace : Trace) : List (Text × Except Unit Value) := trace.filterMap resolutionOf
def bytesRead (trace : Trace) : List Bytes := trace.filterMap readOf
def clockReadings (trace : Trace) : List ClockReading := trace.filterMap clockOf

section Exchanges

variable (trace : Trace)

theorem receipts_cons (x : Exchange Request Reply) :
    receipts (x :: trace) = (receiptOf x).toList ++ receipts trace := by
  cases h : receiptOf x <;> simp [receipts, h]

theorem events_cons (x : Exchange Request Reply) :
    events (x :: trace) = (eventOf x).toList ++ events trace := by
  cases h : eventOf x <;> simp [events, h]

theorem resolutions_cons (x : Exchange Request Reply) :
    resolutions (x :: trace) = (resolutionOf x).toList ++ resolutions trace := by
  cases h : resolutionOf x <;> simp [resolutions, h]

theorem bytesRead_cons (x : Exchange Request Reply) :
    bytesRead (x :: trace) = (readOf x).toList ++ bytesRead trace := by
  cases h : readOf x <;> simp [bytesRead, h]

theorem clockReadings_cons (x : Exchange Request Reply) :
    clockReadings (x :: trace) = (clockOf x).toList ++ clockReadings trace := by
  cases h : clockOf x <;> simp [clockReadings, h]

/-- An exchange with neither an observer, the clock nor the registry. -/
structure Silent (x : Exchange Request Reply) : Prop where
  receipt : receiptOf x = none
  event : eventOf x = none
  resolution : resolutionOf x = none
  clock : clockOf x = none

end Exchanges

/-! Evidence. -/

/-- The returned ranges and digests of a receipt. -/
def receiptEvidence : ReceiptOperationDetail → List (ByteRange × Text)
  | .artifactStat => []
  | .artifactReadRange _ returnedRange returnedByteSha256
  | .artifactReadLines _ returnedRange returnedByteSha256
  | .artifactReadHeading _ returnedRange returnedByteSha256 =>
    [(returnedRange, returnedByteSha256)]
  | .artifactSearchExact _ _ returnedHits =>
    returnedHits.map fun hit => (hit.returnedRange, hit.returnedByteSha256)

/-- The returned ranges and digests of an output. -/
def outputEvidence : InspectionOutput → List (ByteRange × Text)
  | .stat _ | .error _ => []
  | .readRange _ integrity | .readLines _ _ integrity | .readHeading _ _ integrity =>
    [(integrity.returnedRange, integrity.returnedByteSha256)]
  | .searchExact hits _ => hits.map fun hit => (hit.snippetRange, hit.snippetSha256)

def receiptOperation : ReceiptOperationDetail → ArtifactInspectionOperation
  | .artifactStat => .artifactStat
  | .artifactReadRange .. => .artifactReadRange
  | .artifactReadLines .. => .artifactReadLines
  | .artifactReadHeading .. => .artifactReadHeading
  | .artifactSearchExact .. => .artifactSearchExact

/-- The evidence of an error receipt: an empty range and the digest of no bytes,
and for the operations with a list of ranges, or none, no range at all. -/
def placeholderEvidence (platform : Platform) : ArtifactInspectionOperation →
    List (ByteRange × Text)
  | .artifactStat | .artifactSearchExact => []
  | _ => [(placeholderReturnedRange, emptyBytesSha256Hex platform)]

/-- The class of the event that goes with an output. -/
def resultClassOf : InspectionOutput → ResultClass
  | .error code => .error code
  | _ => .success

theorem resultClassOf_of_ok {output : InspectionOutput} (h : output.ok = true) :
    resultClassOf output = .success := by
  cases output <;> first | rfl | cases h

/-! Conclusions. -/

/-- How an operation on a resolved record may end; what is asked of a successful
output is a parameter. -/
inductive Concluded (platform : Platform) (call : Call) (options : ReceiptOptions)
    (success : InspectionOutput → Prop) (trace : Trace) : Settled → Prop where
  | refused {code : ArtifactInspectionErrorCode} {event : ArtifactInspectorOperationalEvent}
      (receipt : receipts trace = []) (observed : events trace = [event])
      (operation : event.operation = call.operation) (class_ : event.resultClass = .error code)
      (known : code ≠ .deadlineExceeded) :
      Concluded platform call options success trace (.ok (.error code))
  | failed {code : ArtifactInspectionErrorCode} {event : ArtifactInspectorOperationalEvent}
      {detail : ReceiptOperationDetail}
      (receipt : receipts trace = [buildReceiptBase options (some code) detail])
      (valid : artifactInspectionReceiptSchema (buildReceiptBase options (some code) detail) = true)
      (detailed : receiptOperation detail = call.operation)
      (placeholder : receiptEvidence detail = placeholderEvidence platform call.operation)
      (observed : events trace = [event])
      (operation : event.operation = call.operation) (class_ : event.resultClass = .error code)
      (known : code ≠ .deadlineExceeded) :
      Concluded platform call options success trace (.ok (.error code))
  | succeeded {output : InspectionOutput} {event : ArtifactInspectorOperationalEvent}
      {detail : ReceiptOperationDetail}
      (receipt : receipts trace = [buildReceiptBase options none detail])
      (valid : artifactInspectionReceiptSchema (buildReceiptBase options none detail) = true)
      (detailed : receiptOperation detail = call.operation)
      (evidence : receiptEvidence detail = outputEvidence output)
      (observed : events trace = [event])
      (operation : event.operation = call.operation) (class_ : event.resultClass = .success)
      (ok : output.ok = true) (holds : success output) :
      Concluded platform call options success trace (.ok output)

section Rules

variable {platform : Platform} {call : Call} {options : ReceiptOptions}
  {success : InspectionOutput → Prop}

theorem Concluded.mono {success' : InspectionOutput → Prop} {trace : Trace} {settled : Settled}
    (h : Concluded platform call options success trace settled)
    (himp : ∀ output, success output → success' output) :
    Concluded platform call options success' trace settled := by
  cases h with
  | refused receipt observed operation class_ known =>
    exact .refused receipt observed operation class_ known
  | failed receipt valid detailed placeholder observed operation class_ known =>
    exact .failed receipt valid detailed placeholder observed operation class_ known
  | succeeded receipt valid detailed evidence observed operation class_ ok holds =>
    exact .succeeded receipt valid detailed evidence observed operation class_ ok (himp _ holds)

/-- An exchange with no observer changes nothing of the conclusion. -/
theorem Concluded.cons {success' : InspectionOutput → Prop} {trace : Trace} {settled : Settled}
    {x : Exchange Request Reply} (hreceipt : receiptOf x = none) (hevent : eventOf x = none)
    (h : Concluded platform call options success trace settled)
    (himp : ∀ output, success output → success' output) :
    Concluded platform call options success' (x :: trace) settled := by
  have hreceipts : receipts (x :: trace) = receipts trace := by simp [receipts_cons, hreceipt]
  have hevents : events (x :: trace) = events trace := by simp [events_cons, hevent]
  cases h with
  | refused receipt observed operation class_ known =>
    exact .refused (hreceipts.trans receipt) (hevents.trans observed) operation class_ known
  | failed receipt valid detailed placeholder observed operation class_ known =>
    exact .failed (hreceipts.trans receipt) valid detailed placeholder (hevents.trans observed)
      operation class_ known
  | succeeded receipt valid detailed evidence observed operation class_ ok holds =>
    exact .succeeded (hreceipts.trans receipt) valid detailed evidence (hevents.trans observed)
      operation class_ ok (himp _ holds)

/-- A trace without a request of the clock or the registry. -/
def Quiet (trace : Trace) : Prop := resolutions trace = [] ∧ clockReadings trace = []

/-- Every run of a fragment that ends an operation concludes it and is quiet; what
is asked of a successful output may speak of the bytes the run has read. -/
def Concludes (platform : Platform) (call : Call) (options : ReceiptOptions)
    (found : List Bytes → InspectionOutput → Prop) (p : Inspection Settled) : Prop :=
  Ensures p fun trace settled =>
    Concluded platform call options (found (bytesRead trace)) trace settled ∧ Quiet trace

variable {found : List Bytes → InspectionOutput → Prop}

/-- A silent exchange before a fragment that concludes. -/
theorem Concludes.after (found' : List Bytes → InspectionOutput → Prop) {p : Inspection Settled}
    {x : Exchange Request Reply} (hx : Silent x) (hp : Concludes platform call options found p)
    (himp : ∀ reads output, found reads output → found' ((readOf x).toList ++ reads) output) :
    Ensures p fun trace settled =>
      Concluded platform call options (found' (bytesRead (x :: trace))) (x :: trace) settled ∧
        Quiet (x :: trace) := by
  refine Ensures.mono hp fun trace settled h => ⟨h.1.cons hx.receipt hx.event ?_, ?_⟩
  · intro output hfound
    rw [bytesRead_cons]
    exact himp _ output hfound
  · refine ⟨?_, ?_⟩
    · rw [resolutions_cons, hx.resolution]
      exact h.2.1
    · rw [clockReadings_cons, hx.clock]
      exact h.2.2

theorem Concludes.mono {found' : List Bytes → InspectionOutput → Prop} {p : Inspection Settled}
    (hp : Concludes platform call options found p)
    (himp : ∀ reads output, found reads output → found' reads output) :
    Concludes platform call options found' p :=
  Ensures.mono hp fun _ _ h => ⟨h.1.mono (himp _), h.2⟩

/-- The two exchanges of an event, whatever follows. -/
theorem ensures_emit {α : Type} {resultClass : ResultClass} {byteCounts : Option ByteCounts}
    {next : Inspection α} {post : Trace → α → Prop} :
    Ensures (emit call resultClass byteCounts >>= fun _ => next) post ↔
      ∀ now reply, Ensures next fun trace a => post (⟨.performanceNow, now⟩ ::
        ⟨.emitOperationalEvent ⟨call.operation, resultClass,
          call.context.bind ArtifactInspectorTrustedContext.requestCorrelationId,
          max 0 (now - call.startedAtMs), byteCounts⟩, reply⟩ :: trace) a := by
  simp only [emit, request, Process.Program.request_bind, Process.Program.ask_bind,
    Process.Program.pure_eq, Process.Program.done_bind, ensures_ask]

/-- An event and a settled promise, after receipts already sent. -/
theorem concludes_refuse {code : ArtifactInspectionErrorCode} (hcode : code ≠ .deadlineExceeded)
    (byteCounts : Option ByteCounts) :
    Concludes platform call options found (refuse call code byteCounts) := by
  refine ensures_emit.mpr fun now reply => ensures_done.mpr ?_
  exact ⟨.refused rfl rfl rfl rfl hcode, rfl, rfl⟩

theorem concludes_unavailable (byteCounts : Option ByteCounts) :
    Concludes platform call options found (unavailable call byteCounts) := by
  refine ensures_emit.mpr fun now reply => ensures_done.mpr ?_
  exact ⟨.refused rfl rfl rfl rfl (by decide), rfl, rfl⟩

theorem concludes_failClosed {detail : ReceiptOperationDetail}
    (hdetail : receiptOperation detail = call.operation)
    (hevidence : receiptEvidence detail = placeholderEvidence platform call.operation)
    (byteCounts : Option ByteCounts) {code : ArtifactInspectionErrorCode}
    (hcode : code ≠ .deadlineExceeded) :
    Concludes platform call options found (failClosed call options detail byteCounts code) := by
  simp only [failClosed, emitReceiptSafely]
  split
  · -- The receipt was dropped: only the event is seen.
    exact concludes_refuse hcode byteCounts
  · next hvalid =>
    refine ensures_ask.mpr fun _ => ensures_emit.mpr fun now reply => ensures_done.mpr ?_
    exact ⟨.failed rfl (by simpa using hvalid) hdetail hevidence rfl rfl rfl hcode, rfl, rfl⟩

theorem concludes_succeed {detail : ReceiptOperationDetail} {output : InspectionOutput}
    (hdetail : receiptOperation detail = call.operation)
    (hevidence : receiptEvidence detail = outputEvidence output) (hok : output.ok = true)
    (hfound : ∀ reads, found reads output) (droppedByteCounts byteCounts : Option ByteCounts) :
    Concludes platform call options found
      (succeed call options detail droppedByteCounts byteCounts output) := by
  simp only [succeed, emitReceiptSafely]
  split
  · exact concludes_refuse (by decide) droppedByteCounts
  · next hvalid =>
    refine ensures_ask.mpr fun _ => ensures_emit.mpr fun now reply => ensures_done.mpr ?_
    exact ⟨.succeeded rfl (by simpa using hvalid) hdetail hevidence rfl rfl rfl hok (hfound _), rfl, rfl⟩

/-- A read concludes when its failures do and what follows a read of the record's
version and of the requested length does; a success is then one about bytes that
were read. -/
theorem concludes_readBytes {offset length : ℕ} {byteCounts : Option ByteCounts}
    {failClosed : ArtifactInspectionErrorCode → Inspection Settled}
    {next : Bytes → Inspection Settled} {foundIn : Bytes → InspectionOutput → Prop}
    (hfail : ∀ code, code ≠ .deadlineExceeded →
      Concludes platform call options (fun _ _ => False) (failClosed code))
    (hnext : ∀ bytes, bytes.length = length →
      Concludes platform call options (fun _ => foundIn bytes) (next bytes)) :
    Concludes platform call options (fun reads output => ∃ bytes ∈ reads, foundIn bytes output)
      (readBytes call options offset length byteCounts failClosed next) := by
  have hfailed : ∀ (x : Exchange Request Reply), Silent x → ∀ p,
      Concludes platform call options (fun _ _ => False) p →
      Ensures p fun trace settled => Concluded platform call options
        (fun output => ∃ bytes ∈ bytesRead (x :: trace), foundIn bytes output) (x :: trace)
          settled ∧ Quiet (x :: trace) := by
    intro x hx p hp
    exact hp.after (fun reads output => ∃ bytes ∈ reads, foundIn bytes output) hx
      fun _ _ hfalse => hfalse.elim
  simp only [Concludes, readBytes, request, Program.request_bind, ensures_ask]
  intro reply
  split
  · exact hfailed _ ⟨rfl, rfl, rfl, rfl⟩ _ (hfail _ (by decide))
  · exact hfailed _ ⟨rfl, rfl, rfl, rfl⟩ _ (concludes_unavailable byteCounts)
  · next rawResult hnull =>
    cases hparse : parseReadResult rawResult with
    | none => exact hfailed _ ⟨rfl, rfl, rfl, rfl⟩ _ (hfail _ (by decide))
    | some readResult =>
      by_cases hversion : (readResult.objectVersionRef != options.record.objectVersionRef) = true
      · simp only [hversion, if_true]
        exact hfailed _ ⟨rfl, rfl, rfl, rfl⟩ _ (hfail _ (by decide))
      · by_cases hlength : (readResult.bytes.length != length) = true
        · simp only [hversion, hlength, if_true]
          exact hfailed _ ⟨rfl, rfl, rfl, rfl⟩ _ (hfail _ (by decide))
        · simp only [hversion, hlength]
          have hbytes := hnext readResult.bytes (by simpa using hlength)
          refine Concludes.after (fun reads output => ∃ bytes ∈ reads, foundIn bytes output)
            ⟨rfl, rfl, rfl, rfl⟩ hbytes fun reads output hin => ⟨readResult.bytes, ?_, hin⟩
          rw [readOf, hparse]
          exact List.mem_cons_self

end Rules

end Inspector
