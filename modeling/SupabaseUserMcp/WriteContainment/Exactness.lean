import Mathlib.Data.List.Nodup
import Mathlib.Data.Set.Card
import SupabaseUserMcp.WriteContainment

/- What is decided of a write and what is told of it. The loops make the capped list of
   all flows that are unsafe, one for each target and each of its readers that misses a
   member of the writer's closure, so that shown and omitted together are all of them. -/
namespace WriteContainment

open Js
open Inspection (property)

/-! Flows. -/

/-- What a reader's closure lacks of the writer's. -/
def missingOf (writer reader : Issue2ReaderClosure) : List Text :=
  writer.readClosure.filter fun resource => resource ∉ reader.readClosure

/-- The flow to a reader, where something is missing. -/
def flowsTo (writer : Issue2ReaderClosure) (targetId : Text) (reader : Issue2ReaderClosure) :
    List Issue2UnsafeFlow :=
  let missing := missingOf writer reader
  if missing = [] then []
  else [⟨targetId, reader.principalId, missing.take missingMembersPerDiagnostic,
    missing.length - (missing.take missingMembersPerDiagnostic).length⟩]

def allFlows (policy : Issue2AuthorizedWriteContainmentInput) : List Issue2UnsafeFlow :=
  policy.writableTargets.flatMap fun target =>
    target.readers.flatMap (flowsTo policy.writer target.targetId)

theorem missingMembers_eq (writer reader : Issue2ReaderClosure) :
    missingMembers writer reader = .all missingMembersPerDiagnostic (missingOf writer reader) := by
  have hstep : ∀ (missing : List Text) (resource : Text),
      (if reader.readClosure.contains resource then
        Diagnostics.all missingMembersPerDiagnostic missing
      else (Diagnostics.all missingMembersPerDiagnostic missing).push missingMembersPerDiagnostic
        resource) = .all missingMembersPerDiagnostic
          (missing ++ if resource ∈ reader.readClosure then [] else [resource]) := by
    intro missing resource
    by_cases hmem : resource ∈ reader.readClosure
    · simp [hmem]
    · simp [hmem, Diagnostics.push_all]
  have hfilter : writer.readClosure.flatMap (fun resource =>
      if resource ∈ reader.readClosure then [] else [resource]) = missingOf writer reader := by
    rw [missingOf]
    induction writer.readClosure with
    | nil => rfl
    | cons resource rest ih =>
      by_cases hmem : resource ∈ reader.readClosure
      · simp [hmem, ih]
      · simp [hmem, ih]
  rw [missingMembers, Diagnostics.none_eq_all, Diagnostics.foldl_all hstep, hfilter, List.nil_append]

theorem readerStep_all (writer : Issue2ReaderClosure) (targetId : Text)
    (flows : List Issue2UnsafeFlow) (reader : Issue2ReaderClosure) :
    readerStep writer targetId (.all unsafeFlowDiagnostics flows) reader =
      .all unsafeFlowDiagnostics (flows ++ flowsTo writer targetId reader) := by
  simp only [readerStep, missingMembers_eq, Diagnostics.all, flowsTo]
  split
  · next hcount =>
    rw [if_neg (List.ne_nil_of_length_pos hcount)]
    exact Diagnostics.push_all flows _
  · next hcount =>
    rw [if_pos (List.eq_nil_of_length_eq_zero (Nat.eq_zero_of_not_pos hcount)), List.append_nil]

theorem unsafeFlowsOf_eq (policy : Issue2AuthorizedWriteContainmentInput) :
    unsafeFlowsOf policy = .all unsafeFlowDiagnostics (allFlows policy) := by
  have htarget : ∀ (flows : List Issue2UnsafeFlow) (target : Issue2WritableTarget),
      target.readers.foldl (readerStep policy.writer target.targetId)
        (.all unsafeFlowDiagnostics flows) = .all unsafeFlowDiagnostics
          (flows ++ target.readers.flatMap (flowsTo policy.writer target.targetId)) :=
    fun flows target => Diagnostics.foldl_all (readerStep_all _ _) target.readers flows
  rw [unsafeFlowsOf, Diagnostics.none_eq_all, Diagnostics.foldl_all htarget, List.nil_append,
    allFlows]

/-- The decision, by the list of all flows. -/
theorem evaluate_eq {input : Value} {policy : Issue2AuthorizedWriteContainmentInput}
    (h : issue2AuthorizedWriteContainmentInputSchema input = some policy) :
    evaluateIssue2AuthorizedWriteContainment input =
      if allFlows policy = [] then .contained
      else .unsafeFlow ((allFlows policy).take unsafeFlowDiagnostics)
        ((allFlows policy).length - ((allFlows policy).take unsafeFlowDiagnostics).length) := by
  have hempty : ((allFlows policy).take unsafeFlowDiagnostics).length = 0 ↔ allFlows policy = [] := by
    rw [List.length_eq_zero_iff, List.take_eq_nil_iff, or_iff_right (by decide)]
  simp only [evaluateIssue2AuthorizedWriteContainment, h, unsafeFlowsOf_eq, Diagnostics.all, hempty]

/-- An unsafe flow is one of a target, a reader of it and a member that the reader misses. -/
theorem mem_allFlows {policy : Issue2AuthorizedWriteContainmentInput} {flow : Issue2UnsafeFlow} :
    flow ∈ allFlows policy ↔ ∃ target ∈ policy.writableTargets, ∃ reader ∈ target.readers,
      missingOf policy.writer reader ≠ [] ∧
      flow = ⟨target.targetId, reader.principalId,
        (missingOf policy.writer reader).take missingMembersPerDiagnostic,
        (missingOf policy.writer reader).length -
          ((missingOf policy.writer reader).take missingMembersPerDiagnostic).length⟩ := by
  simp only [allFlows, List.mem_flatMap, flowsTo]
  refine exists_congr fun target => and_congr_right fun _ => exists_congr fun reader =>
    and_congr_right fun _ => ?_
  by_cases hmissing : missingOf policy.writer reader = []
  · simp [hmissing]
  · simp [hmissing]

theorem missingOf_ne_nil {writer reader : Issue2ReaderClosure} : missingOf writer reader ≠ [] ↔
    ∃ resource ∈ writer.readClosure, resource ∉ reader.readClosure := by
  simp [missingOf, List.filter_eq_nil_iff]

/-! What the schema accepts. -/

def IsIdentifier (s : Text) : Prop := 1 ≤ s.length ∧ s.length ≤ identifierLength ∧ trim s = s

structure IsClosure (closure : List Text) : Prop where
  identifiers : ∀ s ∈ closure, IsIdentifier s
  short : closure.length ≤ closureMembers
  nodup : closure.Nodup

structure Issue2ReaderClosure.Valid (reader : Issue2ReaderClosure) : Prop where
  principal : IsIdentifier reader.principalId
  closure : IsClosure reader.readClosure

structure Issue2WritableTarget.Valid (target : Issue2WritableTarget) : Prop where
  identifier : IsIdentifier target.targetId
  readers : ∀ reader ∈ target.readers, reader.Valid
  few : target.readers.length ≤ readersPerTarget
  nodup : (target.readers.map Issue2ReaderClosure.principalId).Nodup

structure Issue2AuthorizedWriteContainmentInput.Valid
    (policy : Issue2AuthorizedWriteContainmentInput) : Prop where
  writer : policy.writer.Valid
  targets : ∀ target ∈ policy.writableTargets, target.Valid
  few : policy.writableTargets.length ≤ maxWritableTargets
  nodup : (policy.writableTargets.map Issue2WritableTarget.targetId).Nodup

theorem issue2IdentifierSchema_eq_some {v : Value} {s : Text} :
    issue2IdentifierSchema v = some s ↔ v = .string s ∧ IsIdentifier s := by
  simp only [issue2IdentifierSchema, Schema.lengthBetween, Schema.refine_eq_some,
    Schema.string_eq_some, Bool.and_eq_true, decide_eq_true_eq, beq_iff_eq, IsIdentifier, and_assoc]

theorem issue2ReaderClosureSchema_valid {v : Value} {reader : Issue2ReaderClosure}
    (h : issue2ReaderClosureSchema v = some reader) : reader.Valid := by
  obtain ⟨h, hnodup⟩ := Schema.refine_eq_some.mp h
  cases v with
  | object properties =>
    simp only [Schema.strictObject, Option.ite_none_right_eq_some] at h
    obtain ⟨principalId, hprincipal, h⟩ := Option.bind_eq_some_iff.mp h.2
    obtain ⟨closure, hclosure, h⟩ := Option.bind_eq_some_iff.mp h
    obtain rfl := Option.some.inj h
    obtain ⟨hshort, hmembers⟩ := Schema.arrayMax_eq_some hclosure
    refine ⟨(issue2IdentifierSchema_eq_some.mp hprincipal).2, fun s hs => ?_, hshort,
      of_decide_eq_true hnodup⟩
    obtain ⟨w, hw⟩ := hmembers s hs
    exact (issue2IdentifierSchema_eq_some.mp hw).2
  | _ => cases h

theorem issue2WritableTargetSchema_valid {v : Value} {target : Issue2WritableTarget}
    (h : issue2WritableTargetSchema v = some target) : target.Valid := by
  obtain ⟨h, hnodup⟩ := Schema.refine_eq_some.mp h
  cases v with
  | object properties =>
    simp only [Schema.strictObject, Option.ite_none_right_eq_some] at h
    obtain ⟨targetId, htarget, h⟩ := Option.bind_eq_some_iff.mp h.2
    obtain ⟨⟨⟩, -, h⟩ := Option.bind_eq_some_iff.mp h
    obtain ⟨readers, hreaders, h⟩ := Option.bind_eq_some_iff.mp h
    obtain rfl := Option.some.inj h
    obtain ⟨hfew, hvalid⟩ := Schema.arrayMax_eq_some hreaders
    refine ⟨(issue2IdentifierSchema_eq_some.mp htarget).2, fun reader hreader => ?_, hfew,
      of_decide_eq_true hnodup⟩
    obtain ⟨w, hw⟩ := hvalid reader hreader
    exact issue2ReaderClosureSchema_valid hw
  | _ => cases h

theorem issue2AuthorizedWriteContainmentInputSchema_valid {v : Value}
    {policy : Issue2AuthorizedWriteContainmentInput}
    (h : issue2AuthorizedWriteContainmentInputSchema v = some policy) : policy.Valid := by
  obtain ⟨h, hnodup⟩ := Schema.refine_eq_some.mp h
  cases v with
  | object properties =>
    simp only [Schema.strictObject, Option.ite_none_right_eq_some] at h
    obtain ⟨writer, hwriter, h⟩ := Option.bind_eq_some_iff.mp h.2
    obtain ⟨targets, htargets, h⟩ := Option.bind_eq_some_iff.mp h
    obtain rfl := Option.some.inj h
    obtain ⟨hfew, hvalid⟩ := Schema.arrayMax_eq_some htargets
    refine ⟨issue2ReaderClosureSchema_valid hwriter, fun target htarget => ?_, hfew,
      of_decide_eq_true hnodup⟩
    obtain ⟨w, hw⟩ := hvalid target htarget
    exact issue2WritableTargetSchema_valid hw
  | _ => cases h

/-! The inputs as values. -/

def Issue2ReaderClosure.toValue (reader : Issue2ReaderClosure) : Value :=
  .object [property "principalId" (.string reader.principalId),
    property "readClosure" (.array (reader.readClosure.map .string))]

def Issue2WritableTarget.toValue (target : Issue2WritableTarget) : Value :=
  .object [property "targetId" (.string target.targetId),
    property "readerAudienceComplete" (.bool true),
    property "readers" (.array (target.readers.map Issue2ReaderClosure.toValue))]

def Issue2AuthorizedWriteContainmentInput.toValue (policy : Issue2AuthorizedWriteContainmentInput) :
    Value :=
  .object [property "writer" policy.writer.toValue,
    property "writableTargets" (.array (policy.writableTargets.map Issue2WritableTarget.toValue))]

theorem issue2ReaderClosureSchema_toValue {reader : Issue2ReaderClosure} (h : reader.Valid) :
    issue2ReaderClosureSchema reader.toValue = some reader := by
  have hkeys : text "principalId" ≠ text "readClosure" := by decide
  have hprincipal := issue2IdentifierSchema_eq_some.mpr ⟨rfl, h.principal⟩
  have hclosure := Schema.arrayMax_strings h.closure.short fun s hs =>
    issue2IdentifierSchema_eq_some.mpr ⟨rfl, h.closure.identifiers s hs⟩
  refine Schema.refine_of ?_ (decide_eq_true h.closure.nodup)
  simp [Schema.strictObject, Issue2ReaderClosure.toValue, property, Value.property, hkeys,
    hprincipal, hclosure]

theorem issue2WritableTargetSchema_toValue {target : Issue2WritableTarget} (h : target.Valid) :
    issue2WritableTargetSchema target.toValue = some target := by
  have hkeys : text "targetId" ≠ text "readers" ∧ text "readerAudienceComplete" ≠ text "readers" ∧
      text "targetId" ≠ text "readerAudienceComplete" := by decide
  have htarget := issue2IdentifierSchema_eq_some.mpr ⟨rfl, h.identifier⟩
  have hreaders := Schema.arrayMax_map h.few fun reader hreader =>
    issue2ReaderClosureSchema_toValue (h.readers reader hreader)
  refine Schema.refine_of ?_ (decide_eq_true h.nodup)
  simp [Schema.strictObject, Issue2WritableTarget.toValue, property, Value.property, hkeys,
    htarget, hreaders, Schema.literalBool]

theorem issue2AuthorizedWriteContainmentInputSchema_toValue
    {policy : Issue2AuthorizedWriteContainmentInput} (h : policy.Valid) :
    issue2AuthorizedWriteContainmentInputSchema policy.toValue = some policy := by
  have hkeys : text "writer" ≠ text "writableTargets" := by decide
  have hwriter := issue2ReaderClosureSchema_toValue h.writer
  have htargets := Schema.arrayMax_map h.few fun target htarget =>
    issue2WritableTargetSchema_toValue (h.targets target htarget)
  refine Schema.refine_of ?_ (decide_eq_true h.nodup)
  simp [Schema.strictObject, Issue2AuthorizedWriteContainmentInput.toValue, property,
    Value.property, hkeys, hwriter, htargets]

/-! Violations, as sets. -/

variable {policy policy' : Issue2AuthorizedWriteContainmentInput}

/-- The members of the writer's closure that a reader of a target lacks. -/
def missing (policy : Issue2AuthorizedWriteContainmentInput) (targetId principalId : Text) :
    Set Text :=
  {resource | ∃ target ∈ policy.writableTargets, target.targetId = targetId ∧
    ∃ reader ∈ target.readers, reader.principalId = principalId ∧
      resource ∈ policy.writer.readClosure ∧ resource ∉ reader.readClosure}

/-- The targets and readers of them between which something is missing. -/
def violations (policy : Issue2AuthorizedWriteContainmentInput) : Set (Text × Text) :=
  {pair | (missing policy pair.1 pair.2).Nonempty}

def Issue2UnsafeFlow.ends (flow : Issue2UnsafeFlow) : Text × Text :=
  (flow.targetId, flow.readerPrincipalId)

def Issue2UnsafeFlow.total (flow : Issue2UnsafeFlow) : ℕ :=
  flow.missingFromReaderClosure.length + flow.omittedMissingMemberCount

namespace Issue2AuthorizedWriteContainmentDecision

def unsafeFlows : Issue2AuthorizedWriteContainmentDecision → List Issue2UnsafeFlow
  | unsafeFlow unsafeFlows _ => unsafeFlows
  | _ => []

def total : Issue2AuthorizedWriteContainmentDecision → ℕ
  | unsafeFlow unsafeFlows omittedUnsafeFlowCount => unsafeFlows.length + omittedUnsafeFlowCount
  | _ => 0

end Issue2AuthorizedWriteContainmentDecision

theorem Issue2AuthorizedWriteContainmentInput.Valid.reader_eq (h : policy.Valid)
    {target target' : Issue2WritableTarget} {reader reader' : Issue2ReaderClosure}
    (htarget : target ∈ policy.writableTargets) (htarget' : target' ∈ policy.writableTargets)
    (hreader : reader ∈ target.readers) (hreader' : reader' ∈ target'.readers)
    (htargetId : target.targetId = target'.targetId)
    (hprincipalId : reader.principalId = reader'.principalId) : reader = reader' := by
  obtain rfl := List.inj_on_of_nodup_map h.nodup htarget htarget' htargetId
  exact List.inj_on_of_nodup_map (h.targets target htarget).nodup hreader hreader' hprincipalId

theorem missing_eq (h : policy.Valid) {target : Issue2WritableTarget} {reader : Issue2ReaderClosure}
    (htarget : target ∈ policy.writableTargets) (hreader : reader ∈ target.readers) :
    missing policy target.targetId reader.principalId =
      {resource | resource ∈ missingOf policy.writer reader} := by
  ext resource
  simp only [missing, missingOf, Set.mem_ofPred_eq, List.mem_filter, decide_eq_true_eq]
  constructor
  · intro ⟨target', htarget', htargetId, reader', hreader', hprincipalId, hmissing⟩
    obtain rfl := h.reader_eq htarget' htarget hreader' hreader htargetId hprincipalId
    exact hmissing
  · intro hmissing
    exact ⟨target, htarget, rfl, reader, hreader, rfl, hmissing⟩

theorem ncard_mem {α : Type} {as : List α} (h : as.Nodup) : {a | a ∈ as}.ncard = as.length := by
  classical
  rw [← List.coe_toFinset, Set.ncard_coe_finset, List.toFinset_card_of_nodup h]

theorem ncard_missing (h : policy.Valid) {target : Issue2WritableTarget}
    {reader : Issue2ReaderClosure} (htarget : target ∈ policy.writableTargets)
    (hreader : reader ∈ target.readers) :
    (missing policy target.targetId reader.principalId).ncard =
      (missingOf policy.writer reader).length := by
  rw [missing_eq h htarget hreader]
  exact ncard_mem (h.writer.closure.nodup.filter _)

/-- What is told of one flow. -/
structure Issue2UnsafeFlow.Exact (policy : Issue2AuthorizedWriteContainmentInput)
    (flow : Issue2UnsafeFlow) : Prop where
  violation : flow.ends ∈ violations policy
  members : ∀ resource ∈ flow.missingFromReaderClosure,
    resource ∈ missing policy flow.targetId flow.readerPrincipalId
  nodup : flow.missingFromReaderClosure.Nodup
  total : flow.total = (missing policy flow.targetId flow.readerPrincipalId).ncard

theorem exact_of_mem_allFlows (h : policy.Valid) {flow : Issue2UnsafeFlow}
    (hflow : flow ∈ allFlows policy) : flow.Exact policy := by
  obtain ⟨target, htarget, reader, hreader, hmissing, rfl⟩ := mem_allFlows.mp hflow
  have hset := missing_eq h htarget hreader
  obtain ⟨resource, hresource⟩ := List.exists_mem_of_ne_nil _ hmissing
  have hnodup : (missingOf policy.writer reader).Nodup := h.writer.closure.nodup.filter _
  refine ⟨⟨resource, hset ▸ hresource⟩, fun resource hresource => ?_,
    hnodup.sublist (List.take_sublist _ _), ?_⟩
  · exact hset ▸ List.mem_of_mem_take hresource
  · have hcut := List.length_take_le' missingMembersPerDiagnostic (missingOf policy.writer reader)
    exact (Nat.add_sub_of_le hcut).trans (ncard_missing h htarget hreader).symm

theorem mem_violations (h : policy.Valid) {pair : Text × Text} :
    pair ∈ violations policy ↔ ∃ flow ∈ allFlows policy, flow.ends = pair := by
  constructor
  · intro ⟨resource, target, htarget, htargetId, reader, hreader, hprincipalId, hmember, hlacks⟩
    have hmissing := missingOf_ne_nil.mpr ⟨resource, hmember, hlacks⟩
    exact ⟨_, mem_allFlows.mpr ⟨target, htarget, reader, hreader, hmissing, rfl⟩,
      Prod.ext htargetId hprincipalId⟩
  · intro ⟨flow, hflow, hends⟩
    exact hends ▸ (exact_of_mem_allFlows h hflow).violation

theorem ends_injOn (h : policy.Valid) :
    Set.InjOn Issue2UnsafeFlow.ends {flow | flow ∈ allFlows policy} := by
  intro flow hflow flow' hflow' hends
  obtain ⟨target, htarget, reader, hreader, -, rfl⟩ := mem_allFlows.mp hflow
  obtain ⟨target', htarget', reader', hreader', -, rfl⟩ := mem_allFlows.mp hflow'
  obtain ⟨htargetId, hprincipalId⟩ := Prod.mk.inj hends
  obtain rfl := h.reader_eq htarget htarget' hreader hreader' htargetId hprincipalId
  exact congrArg (Issue2UnsafeFlow.mk · reader.principalId _ _) htargetId

/-- Lists whose members carry different keys have no member in common. -/
theorem nodup_flatMap_of_key {α β κ : Type} {as : List α} {given : α → List β} {key : α → κ}
    (tag : β → κ) (hkeys : (as.map key).Nodup) (heach : ∀ a ∈ as, (given a).Nodup)
    (htag : ∀ a, ∀ b ∈ given a, tag b = key a) : (as.flatMap given).Nodup := by
  refine List.nodup_flatMap.mpr ⟨heach, (List.pairwise_map.mp hkeys).imp ?_⟩
  intro a a' hne b hb hb'
  exact hne ((htag a b hb).symm.trans (htag a' b hb'))

theorem mem_flowsTo {writer reader : Issue2ReaderClosure} {targetId : Text}
    {flow : Issue2UnsafeFlow} (h : flow ∈ flowsTo writer targetId reader) :
    flow.targetId = targetId ∧ flow.readerPrincipalId = reader.principalId := by
  rw [flowsTo] at h
  split at h
  · cases h
  · obtain rfl := List.mem_singleton.mp h
    exact ⟨rfl, rfl⟩

theorem nodup_flowsTo (writer reader : Issue2ReaderClosure) (targetId : Text) :
    (flowsTo writer targetId reader).Nodup := by
  rw [flowsTo]
  split
  · exact List.nodup_nil
  · exact List.nodup_singleton _

theorem nodup_allFlows (h : policy.Valid) : (allFlows policy).Nodup := by
  refine nodup_flatMap_of_key Issue2UnsafeFlow.targetId h.nodup ?_ ?_
  · intro target htarget
    refine nodup_flatMap_of_key Issue2UnsafeFlow.readerPrincipalId
      (h.targets target htarget).nodup (fun reader _ => nodup_flowsTo _ reader _) ?_
    exact fun reader flow hflow => (mem_flowsTo hflow).2
  · intro target flow hflow
    obtain ⟨reader, -, hflow⟩ := List.mem_flatMap.mp hflow
    exact (mem_flowsTo hflow).1

theorem ncard_violations (h : policy.Valid) :
    (violations policy).ncard = (allFlows policy).length := by
  have himage : violations policy = Issue2UnsafeFlow.ends '' {flow | flow ∈ allFlows policy} :=
    Set.ext fun pair => mem_violations h
  rw [himage, (ends_injOn h).ncard_image, ncard_mem (nodup_allFlows h)]

end WriteContainment
