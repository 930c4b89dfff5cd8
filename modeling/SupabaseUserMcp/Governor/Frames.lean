import SupabaseUserMcp.DefensiveRetrieval
import SupabaseUserMcp.Governor.Accounting

/- What an executor returns fits a frame: an output was measured with the id of its
   request, or it is a fixed error, which is short. -/
namespace Governor

open Js ReadTools
open Inspection (isErrorOutput)
open Process (Reachable Runs)

section Outputs

variable {platform : Platform}

/-- An output of an executor. -/
def Measured (platform : Platform) (requestId output : Value) : Prop :=
  (∃ code, output = createReadToolError code) ∨
    readToolWireResponseByteLength platform requestId output ≤ ReadTools.maxResponseBytes

theorem measured_blocked (requestId : Value) (rows : ℕ) (code : ReadToolErrorCode) :
    Measured platform requestId (blocked rows code).output := .inl ⟨code, rfl⟩

theorem measured_conclude (tool : MemoryTool) (requestId : Value) (aborted : Bool)
    (result : Except Value Value) :
    Measured platform requestId
      (conclude platform (tool.descriptor platform) requestId aborted result).output := by
  have hlimit : (tool.descriptor platform).maxResponseBytes = ReadTools.maxResponseBytes := by
    cases tool <;> rfl
  cases result with
  | error error => exact measured_blocked _ _ _
  | ok result =>
    rw [conclude]
    cases hdata : (tool.descriptor platform).outputSchema result with
    | none => exact measured_blocked _ _ _
    | some data =>
      dsimp only
      cases hcode : errorCodeOf data with
      | some code => exact .inl ((outputSchema_eq_some hdata).2 (isErrorOutput_of_errorCodeOf hcode))
      | none =>
        dsimp only
        split
        · exact measured_blocked _ _ _
        · split
          · exact measured_blocked _ _ _
          · next hbytes => exact .inr (hlimit ▸ Nat.not_lt.mp hbytes)

/-- Every settled call returned such an output. -/
theorem measured_of_reachable {s : State} (h : Reachable (step platform) initial s) :
    ∀ record ∈ s.calls, ∀ output, record.status = .settled output →
      Measured platform record.call.requestId output := by
  refine records_of_reachable ?_ ?_ ?_ h
  · intro id call decision evicted output hstatus
    cases decision with
    | admitted ref => cases hstatus
    | _ =>
      cases hstatus
      exact .inl ⟨_, rfl⟩
  · intro record hrecord output hstatus
    rw [CallRecord.toAdmission_markAborted]
    refine hrecord output ?_
    unfold CallRecord.markAborted at hstatus
    cases hold : record.status with
    | running aborted =>
      simp only [hold] at hstatus
      cases hstatus
    | settled other =>
      simp only [hold] at hstatus
      exact hstatus
  · intro record aborted result now _ output hstatus
    cases hstatus
    exact measured_conclude record.call.tool record.call.requestId aborted result

/-- **Every output of a memory tool fits a frame**, the governed ones with any id the
transport lets through and those of the defensive retrieval with any id it accepts,
where the text of a number is short. -/
theorem frames_bounded (platform : Platform)
    (hfraction : ∀ q, utf8Length (platform.fractionText q) ≤ 1024) :
    (∀ s, Reachable (step platform) initial s → ∀ record ∈ s.calls,
      isRequestId record.call.requestId = true →
      utf8Length (stringify platform.fractionText record.call.requestId) ≤ 1024 →
      ∀ output, record.status = .settled output →
        readToolWireResponseByteLength platform record.call.requestId output ≤ 65536) ∧
    ∀ requestId unsafeInput trace output,
      Runs (DefensiveRetrieval.createDefensiveRetrieval platform requestId unsafeInput) trace
        (.ok output) →
      readToolWireResponseByteLength platform (DefensiveRetrieval.orNull requestId) output ≤ 65536 := by
  constructor
  · intro s hs record hrecord hid hbytes output hstatus
    obtain ⟨idJson, hjson⟩ := exists_idJson platform.fractionText hid
    rw [stringify, hjson, Option.getD_some] at hbytes
    rcases measured_of_reachable hs record hrecord output hstatus with ⟨code, rfl⟩ | hfits
    · exact (readToolWireResponseByteLength_error_le hjson code).trans (by omega)
    · exact hfits
  · intro requestId unsafeInput trace output hruns
    exact DefensiveRetrieval.returns_createDefensiveRetrieval hfraction unsafeInput trace _ hruns
      output rfl

end Outputs

def Status.output : Status → Option Value
  | .running _ => none
  | .settled output => some output

theorem Status.eq_settled {status : Status} {output : Value} (h : status.output = some output) :
    status = .settled output := by
  cases status with
  | running _ => cases h
  | settled _ => exact congrArg Status.settled (Option.some.inj h)

/-- The answers of the tools to a retrieval with one hit. -/
def oneHit : ∀ q, DefensiveRetrieval.Reply q
  | .aborted => false
  | .search _ => .ok onePage
  | .get _ => .ok (.object [(text "ok", .bool true), (text "record", labMemory)])
  | .cancelled => false

/-- On a platform without fractions, a page of a governed call and a retrieval with one hit. -/
theorem frames_bounded_oneHit :
    (∃ s record output, Reachable (step asciiPlatform) initial s ∧ record ∈ s.calls ∧
      record.status = .settled output ∧ isErrorOutput output = false ∧
      readToolWireResponseByteLength asciiPlatform record.call.requestId output ≤ 65536) ∧
    ∃ trace output, Runs (DefensiveRetrieval.createDefensiveRetrieval asciiPlatform .null
        (.object [(text "query", .string (text "network"))])) trace (.ok output) ∧
      stringOf "outcome" output = some DefensiveRetrieval.Outcome.found.name ∧
      readToolWireResponseByteLength asciiPlatform .null output ≤ 65536 := by
  have hbounds := frames_bounded asciiPlatform fun _ => Nat.zero_le _
  constructor
  · have hrun : (Process.execute (step asciiPlatform) initial twoCalls).bind (fun s =>
        s.calls.head?.bind fun record => record.status.output.map fun output =>
          (isErrorOutput output, isRequestId record.call.requestId, decide
            (utf8Length (stringify asciiPlatform.fractionText record.call.requestId) ≤ 1024))) =
          some (false, true, true) := by
      decide +kernel
    obtain ⟨s, hexecute, hrun⟩ := Option.bind_eq_some_iff.mp hrun
    obtain ⟨record, hrecord, hrun⟩ := Option.bind_eq_some_iff.mp hrun
    obtain ⟨output, houtput, hrun⟩ := Option.map_eq_some_iff.mp hrun
    simp only [Prod.mk.injEq, decide_eq_true_eq] at hrun
    obtain ⟨hok, hid, hbytes⟩ := hrun
    have hmem := List.mem_of_mem_head? hrecord
    have hsettled := Status.eq_settled houtput
    exact ⟨s, record, output, ⟨_, hexecute⟩, hmem, hsettled, hok,
      hbounds.1 s ⟨_, hexecute⟩ record hmem hid hbytes output hsettled⟩
  · have hrun : ((DefensiveRetrieval.createDefensiveRetrieval asciiPlatform .null
        (.object [(text "query", .string (text "network"))])).run oneHit).2.toOption.bind
          (stringOf "outcome") = some DefensiveRetrieval.Outcome.found.name := by
      decide +kernel
    obtain ⟨output, houtput, houtcome⟩ := Option.bind_eq_some_iff.mp hrun
    have hruns := Process.runs_run oneHit (DefensiveRetrieval.createDefensiveRetrieval asciiPlatform
      .null (.object [(text "query", .string (text "network"))]))
    rw [eq_ok_of_toOption houtput] at hruns
    exact ⟨_, output, hruns, houtcome, hbounds.2 .null _ _ output hruns⟩

end Governor
