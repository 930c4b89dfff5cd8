import SupabaseUserMcp.Inspection
import SupabaseUserMcp.Js.Records

/- `issue-2-authorized-write-containment.ts`: a write is contained when every reader of
   everything the writer may write to can already read all that the writer can. What is
   not contained is told in a list of at most a hundred flows of at most twenty-five
   members each, with the number of those left out of either. -/
namespace WriteContainment

open Js
open Inspection (property)

/-! `ISSUE_2_AUTHORIZED_WRITE_LIMITS`. -/

def identifierLength : ℕ := 256
def closureMembers : ℕ := 100
def maxWritableTargets : ℕ := 100
def readersPerTarget : ℕ := 100
def unsafeFlowDiagnostics : ℕ := 100
def missingMembersPerDiagnostic : ℕ := 25

/-! Inputs. -/

structure Issue2ReaderClosure where
  principalId : Text
  readClosure : List Text
  deriving DecidableEq, Repr

structure Issue2WritableTarget where
  targetId : Text
  readers : List Issue2ReaderClosure
  deriving DecidableEq, Repr

structure Issue2AuthorizedWriteContainmentInput where
  writer : Issue2ReaderClosure
  writableTargets : List Issue2WritableTarget
  deriving DecidableEq, Repr

def issue2IdentifierSchema : Schema Text :=
  (Schema.string.lengthBetween 1 identifierLength).refine fun value => trim value == value

def issue2ReaderClosureSchema : Schema Issue2ReaderClosure :=
  (Schema.strictObject [text "principalId", text "readClosure"] fun field => do
    some ⟨← issue2IdentifierSchema (field (text "principalId")),
      ← issue2IdentifierSchema.arrayMax closureMembers (field (text "readClosure"))⟩).refine
    fun closure => closure.readClosure.Nodup

def issue2WritableTargetSchema : Schema Issue2WritableTarget :=
  (Schema.strictObject [text "targetId", text "readerAudienceComplete", text "readers"] fun field => do
    let targetId ← issue2IdentifierSchema (field (text "targetId"))
    let _ ← Schema.literalBool true (field (text "readerAudienceComplete"))
    some ⟨targetId,
      ← issue2ReaderClosureSchema.arrayMax readersPerTarget (field (text "readers"))⟩).refine
    fun target => (target.readers.map Issue2ReaderClosure.principalId).Nodup

def issue2AuthorizedWriteContainmentInputSchema : Schema Issue2AuthorizedWriteContainmentInput :=
  (Schema.strictObject [text "writer", text "writableTargets"] fun field => do
    some ⟨← issue2ReaderClosureSchema (field (text "writer")),
      ← issue2WritableTargetSchema.arrayMax maxWritableTargets
        (field (text "writableTargets"))⟩).refine
    fun input => (input.writableTargets.map Issue2WritableTarget.targetId).Nodup

/-! Decisions. -/

structure Issue2UnsafeFlow where
  targetId : Text
  readerPrincipalId : Text
  missingFromReaderClosure : List Text
  omittedMissingMemberCount : ℕ
  deriving DecidableEq, Repr

inductive Issue2AuthorizedWriteContainmentDecision where
  | contained
  | unsafeFlow (unsafeFlows : List Issue2UnsafeFlow) (omittedUnsafeFlowCount : ℕ)
  | invalidInput
  deriving DecidableEq, Repr

def Issue2AuthorizedWriteContainmentDecision.allowed :
    Issue2AuthorizedWriteContainmentDecision → Bool
  | contained => true
  | _ => false

/-- A list that stops growing at a limit, and the number of all that was to be in it. -/
structure Diagnostics (α : Type) where
  shown : List α
  count : ℕ

def Diagnostics.none {α : Type} : Diagnostics α := ⟨[], 0⟩

def Diagnostics.push {α : Type} (limit : ℕ) (diagnostics : Diagnostics α) (a : α) : Diagnostics α :=
  ⟨if diagnostics.shown.length < limit then diagnostics.shown ++ [a] else diagnostics.shown,
    diagnostics.count + 1⟩

/-- The loop over the writer's closure. -/
def missingMembers (writer reader : Issue2ReaderClosure) : Diagnostics Text :=
  writer.readClosure.foldl (fun missing resource =>
    if reader.readClosure.contains resource then missing
    else missing.push missingMembersPerDiagnostic resource) .none

/-- The body of the loop over the readers of a target. -/
def readerStep (writer : Issue2ReaderClosure) (targetId : Text)
    (unsafeFlows : Diagnostics Issue2UnsafeFlow) (reader : Issue2ReaderClosure) :
    Diagnostics Issue2UnsafeFlow :=
  let missing := missingMembers writer reader
  if missing.count > 0 then
    unsafeFlows.push unsafeFlowDiagnostics
      ⟨targetId, reader.principalId, missing.shown, missing.count - missing.shown.length⟩
  else unsafeFlows

def unsafeFlowsOf (policy : Issue2AuthorizedWriteContainmentInput) : Diagnostics Issue2UnsafeFlow :=
  policy.writableTargets.foldl (fun unsafeFlows target =>
    target.readers.foldl (readerStep policy.writer target.targetId) unsafeFlows) .none

def evaluateIssue2AuthorizedWriteContainment (input : Value) :
    Issue2AuthorizedWriteContainmentDecision :=
  match issue2AuthorizedWriteContainmentInputSchema input with
  | .none => .invalidInput
  | some policy =>
    let unsafeFlows := unsafeFlowsOf policy
    if unsafeFlows.shown.length = 0 then .contained
    else .unsafeFlow unsafeFlows.shown (unsafeFlows.count - unsafeFlows.shown.length)

/-! Capped lists. -/

namespace Diagnostics

variable {α β : Type} {limit : ℕ}

/-- The diagnostics of a whole list. -/
def all (limit : ℕ) (as : List α) : Diagnostics α := ⟨as.take limit, as.length⟩

theorem push_all (as : List α) (a : α) : (all limit as).push limit a = all limit (as ++ [a]) := by
  have hcount : (as ++ [a]).length = as.length + 1 := List.length_append
  by_cases hshort : as.length < limit
  · have hshown : (all limit as).shown = as := List.take_of_length_le hshort.le
    have hwhole : (as ++ [a]).take limit = as ++ [a] := List.take_of_length_le (by omega)
    rw [push, hshown, if_pos hshort, all, all, hwhole, hcount]
  · have hfull : (all limit as).shown.length = limit := by
      rw [all, List.length_take]
      omega
    have hcut : (as ++ [a]).take limit = as.take limit :=
      List.take_append_of_le_length (Nat.le_of_not_lt hshort)
    rw [push, hfull, if_neg (Nat.lt_irrefl limit), all, all, hcut, hcount]

/-- A loop that pushes what some items give pushes what all of them give. -/
theorem foldl_all {step : Diagnostics β → α → Diagnostics β} {given : α → List β}
    (hstep : ∀ (bs : List β) (a : α), step (all limit bs) a = all limit (bs ++ given a)) :
    ∀ (as : List α) (bs : List β),
      as.foldl step (all limit bs) = all limit (bs ++ as.flatMap given) := by
  intro as
  induction as with
  | nil =>
    intro bs
    rw [List.foldl_nil, List.flatMap_nil, List.append_nil]
  | cons a as ih =>
    intro bs
    rw [List.foldl_cons, hstep, ih, List.flatMap_cons, List.append_assoc]

theorem none_eq_all : (none : Diagnostics α) = all limit [] := by
  rw [none, all, List.take_nil, List.length_nil]

end Diagnostics

end WriteContainment
