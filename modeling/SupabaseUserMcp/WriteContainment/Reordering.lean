import Mathlib.Data.List.Forall2
import SupabaseUserMcp.WriteContainment.Exactness

/- Two inputs told apart only by order are decided alike, and an input that asks for less
   is allowed where the other was. Both are read off the set of violations, which knows
   nothing of the order. -/
namespace WriteContainment

open Js

/-! Lists member by member, up to order and up to omission. -/

section Members

variable {α β : Type} {R : α → β → Prop} {as : List α} {bs : List β}

def PermutedBy (R : α → β → Prop) (as : List α) (bs : List β) : Prop :=
  ∃ cs, as.Perm cs ∧ List.Forall₂ R cs bs

def RemainingBy (R : α → β → Prop) (as : List α) (bs : List β) : Prop :=
  ∃ cs, cs.Sublist as ∧ List.Forall₂ R cs bs

theorem exists_of_forall₂ (h : List.Forall₂ R as bs) :
    (∀ a ∈ as, ∃ b ∈ bs, R a b) ∧ ∀ b ∈ bs, ∃ a ∈ as, R a b := by
  induction h with
  | nil => exact ⟨fun a ha => absurd ha List.not_mem_nil, fun b hb => absurd hb List.not_mem_nil⟩
  | cons hab _ ih =>
    refine ⟨fun a ha => ?_, fun b hb => ?_⟩
    · cases ha with
      | head => exact ⟨_, List.mem_cons_self, hab⟩
      | tail _ ha =>
        obtain ⟨b, hb, hab⟩ := ih.1 a ha
        exact ⟨b, List.mem_cons_of_mem _ hb, hab⟩
    · cases hb with
      | head => exact ⟨_, List.mem_cons_self, hab⟩
      | tail _ hb =>
        obtain ⟨a, ha, hab⟩ := ih.2 b hb
        exact ⟨a, List.mem_cons_of_mem _ ha, hab⟩

theorem PermutedBy.exists_right (h : PermutedBy R as bs) {a : α} (ha : a ∈ as) :
    ∃ b ∈ bs, R a b := by
  obtain ⟨cs, hperm, hall⟩ := h
  exact (exists_of_forall₂ hall).1 a (hperm.mem_iff.mp ha)

theorem PermutedBy.exists_left (h : PermutedBy R as bs) {b : β} (hb : b ∈ bs) :
    ∃ a ∈ as, R a b := by
  obtain ⟨cs, hperm, hall⟩ := h
  obtain ⟨a, ha, hab⟩ := (exists_of_forall₂ hall).2 b hb
  exact ⟨a, hperm.mem_iff.mpr ha, hab⟩

theorem RemainingBy.exists_left (h : RemainingBy R as bs) {b : β} (hb : b ∈ bs) :
    ∃ a ∈ as, R a b := by
  obtain ⟨cs, hsublist, hall⟩ := h
  obtain ⟨a, ha, hab⟩ := (exists_of_forall₂ hall).2 b hb
  exact ⟨a, hsublist.subset ha, hab⟩

theorem PermutedBy.length_eq (h : PermutedBy R as bs) : as.length = bs.length := by
  obtain ⟨cs, hperm, hall⟩ := h
  exact hperm.length_eq.trans hall.length_eq

/-- What is the same of two members stays a list of the same things in another order. -/
theorem PermutedBy.map_perm {γ : Type} {f : α → γ} {g : β → γ} (h : PermutedBy R as bs)
    (hsame : ∀ a b, R a b → g b = f a) : (as.map f).Perm (bs.map g) := by
  obtain ⟨cs, hperm, hall⟩ := h
  have hmaps : bs.map g = cs.map f := by
    induction hall generalizing as with
    | nil => rfl
    | cons hab _ ih => rw [List.map_cons, List.map_cons, hsame _ _ hab, ih (List.Perm.refl _)]
  exact hmaps ▸ hperm.map f

end Members

/-! Inputs in another order. -/

structure Issue2ReaderClosure.Permuted (reader reader' : Issue2ReaderClosure) : Prop where
  principalId : reader'.principalId = reader.principalId
  readClosure : reader.readClosure.Perm reader'.readClosure

structure Issue2WritableTarget.Permuted (target target' : Issue2WritableTarget) : Prop where
  targetId : target'.targetId = target.targetId
  readers : PermutedBy Issue2ReaderClosure.Permuted target.readers target'.readers

structure Issue2AuthorizedWriteContainmentInput.Permuted
    (policy policy' : Issue2AuthorizedWriteContainmentInput) : Prop where
  writer : policy.writer.Permuted policy'.writer
  writableTargets : PermutedBy Issue2WritableTarget.Permuted policy.writableTargets
    policy'.writableTargets

theorem Issue2ReaderClosure.Permuted.valid {reader reader' : Issue2ReaderClosure}
    (h : reader.Permuted reader') (hvalid : reader.Valid) : reader'.Valid := by
  refine ⟨h.principalId ▸ hvalid.principal, ⟨fun s hs => ?_, ?_, ?_⟩⟩
  · exact hvalid.closure.identifiers s (h.readClosure.mem_iff.mpr hs)
  · exact h.readClosure.length_eq ▸ hvalid.closure.short
  · exact h.readClosure.nodup_iff.mp hvalid.closure.nodup

theorem Issue2WritableTarget.Permuted.valid {target target' : Issue2WritableTarget}
    (h : target.Permuted target') (hvalid : target.Valid) : target'.Valid := by
  have hids := h.readers.map_perm fun _ _ hreader => hreader.principalId
  refine ⟨h.targetId ▸ hvalid.identifier, fun reader' hreader' => ?_,
    h.readers.length_eq ▸ hvalid.few, hids.nodup_iff.mp hvalid.nodup⟩
  obtain ⟨reader, hreader, hpermuted⟩ := h.readers.exists_left hreader'
  exact hpermuted.valid (hvalid.readers reader hreader)

namespace Issue2AuthorizedWriteContainmentInput.Permuted

variable {policy policy' : Issue2AuthorizedWriteContainmentInput}

theorem valid (h : policy.Permuted policy') (hvalid : policy.Valid) : policy'.Valid := by
  have hids := h.writableTargets.map_perm fun _ _ htarget => htarget.targetId
  refine ⟨h.writer.valid hvalid.writer, fun target' htarget' => ?_,
    h.writableTargets.length_eq ▸ hvalid.few, hids.nodup_iff.mp hvalid.nodup⟩
  obtain ⟨target, htarget, hpermuted⟩ := h.writableTargets.exists_left htarget'
  exact hpermuted.valid (hvalid.targets target htarget)

theorem missing_eq (h : policy.Permuted policy') (targetId principalId : Text) :
    missing policy' targetId principalId = missing policy targetId principalId := by
  refine Set.Subset.antisymm ?_ ?_
  · intro resource ⟨target', htarget', htargetId, reader', hreader', hprincipalId, hmember, hlacks⟩
    obtain ⟨target, htarget, htargets⟩ := h.writableTargets.exists_left htarget'
    obtain ⟨reader, hreader, hreaders⟩ := htargets.readers.exists_left hreader'
    refine ⟨target, htarget, htargets.targetId.symm.trans htargetId, reader, hreader,
      hreaders.principalId.symm.trans hprincipalId, h.writer.readClosure.mem_iff.mpr hmember, ?_⟩
    exact fun hread => hlacks (hreaders.readClosure.mem_iff.mp hread)
  · intro resource ⟨target, htarget, htargetId, reader, hreader, hprincipalId, hmember, hlacks⟩
    obtain ⟨target', htarget', htargets⟩ := h.writableTargets.exists_right htarget
    obtain ⟨reader', hreader', hreaders⟩ := htargets.readers.exists_right hreader
    refine ⟨target', htarget', htargets.targetId.trans htargetId, reader', hreader',
      hreaders.principalId.trans hprincipalId, h.writer.readClosure.mem_iff.mp hmember, ?_⟩
    exact fun hread => hlacks (hreaders.readClosure.mem_iff.mpr hread)

theorem violations_eq (h : policy.Permuted policy') : violations policy' = violations policy :=
  Set.ext fun pair => Iff.of_eq (congrArg Set.Nonempty (h.missing_eq pair.1 pair.2))

end Issue2AuthorizedWriteContainmentInput.Permuted

/-! Inputs that ask for less. -/

structure Issue2ReaderClosure.Enlarged (reader reader' : Issue2ReaderClosure) : Prop where
  principalId : reader'.principalId = reader.principalId
  readClosure : reader.readClosure ⊆ reader'.readClosure

structure Issue2WritableTarget.Relaxed (target target' : Issue2WritableTarget) : Prop where
  targetId : target'.targetId = target.targetId
  readers : RemainingBy Issue2ReaderClosure.Enlarged target.readers target'.readers

structure Issue2AuthorizedWriteContainmentInput.Relaxed
    (policy policy' : Issue2AuthorizedWriteContainmentInput) : Prop where
  principalId : policy'.writer.principalId = policy.writer.principalId
  readClosure : policy'.writer.readClosure.Sublist policy.writer.readClosure
  writableTargets : RemainingBy Issue2WritableTarget.Relaxed policy.writableTargets
    policy'.writableTargets

/-- What every reader may read already. -/
def Contained (policy : Issue2AuthorizedWriteContainmentInput) : Prop :=
  ∀ target ∈ policy.writableTargets, ∀ reader ∈ target.readers,
    ∀ resource ∈ policy.writer.readClosure, resource ∈ reader.readClosure

theorem Issue2AuthorizedWriteContainmentInput.Relaxed.contained
    {policy policy' : Issue2AuthorizedWriteContainmentInput} (h : policy.Relaxed policy')
    (hcontained : Contained policy) : Contained policy' := by
  intro target' htarget' reader' hreader' resource hmember
  obtain ⟨target, htarget, htargets⟩ := h.writableTargets.exists_left htarget'
  obtain ⟨reader, hreader, hreaders⟩ := htargets.readers.exists_left hreader'
  exact hreaders.readClosure
    (hcontained target htarget reader hreader resource (h.readClosure.subset hmember))

/-! Decisions. -/

section Decisions

variable {input input' : Value} {policy policy' : Issue2AuthorizedWriteContainmentInput}

theorem allFlows_eq_nil : allFlows policy = [] ↔ Contained policy := by
  constructor
  · intro hnone target htarget reader hreader resource hmember
    by_contra hlacks
    have hflow := mem_allFlows.mpr ⟨target, htarget, reader, hreader,
      missingOf_ne_nil.mpr ⟨resource, hmember, hlacks⟩, rfl⟩
    exact List.not_mem_nil (hnone ▸ hflow)
  · intro hcontained
    refine List.eq_nil_iff_forall_not_mem.mpr fun flow hflow => ?_
    obtain ⟨target, htarget, reader, hreader, hmissing, -⟩ := mem_allFlows.mp hflow
    obtain ⟨resource, hmember, hlacks⟩ := missingOf_ne_nil.mp hmissing
    exact hlacks (hcontained target htarget reader hreader resource hmember)

theorem allowed_iff (h : issue2AuthorizedWriteContainmentInputSchema input = some policy) :
    (evaluateIssue2AuthorizedWriteContainment input).allowed = true ↔ Contained policy := by
  rw [evaluate_eq h, ← allFlows_eq_nil]
  split
  · next hnone => exact iff_of_true rfl hnone
  · next hsome => exact iff_of_false Bool.false_ne_true hsome

/-- What is told is a part of the flows, and the number left out makes it whole. -/
theorem total_eq (h : issue2AuthorizedWriteContainmentInputSchema input = some policy) :
    (evaluateIssue2AuthorizedWriteContainment input).total = (violations policy).ncard := by
  rw [ncard_violations (issue2AuthorizedWriteContainmentInputSchema_valid h), evaluate_eq h]
  split
  · next hnone => exact hnone ▸ rfl
  · exact Nat.add_sub_of_le (List.length_take_le' _ _)

theorem exact_of_mem_unsafeFlows
    (h : issue2AuthorizedWriteContainmentInputSchema input = some policy) :
    ∀ flow ∈ (evaluateIssue2AuthorizedWriteContainment input).unsafeFlows, flow.Exact policy := by
  rw [evaluate_eq h]
  split
  · intro flow hflow
    cases hflow
  · intro flow hflow
    exact exact_of_mem_allFlows (issue2AuthorizedWriteContainmentInputSchema_valid h)
      (List.mem_of_mem_take hflow)

/-- No flow is told twice. -/
theorem nodup_unsafeFlows (h : issue2AuthorizedWriteContainmentInputSchema input = some policy) :
    ((evaluateIssue2AuthorizedWriteContainment input).unsafeFlows.map Issue2UnsafeFlow.ends).Nodup := by
  have hvalid := issue2AuthorizedWriteContainmentInputSchema_valid h
  rw [evaluate_eq h]
  split
  · exact List.nodup_nil
  · refine List.Nodup.map_on ?_ ((nodup_allFlows hvalid).sublist (List.take_sublist _ _))
    intro flow hflow flow' hflow' hends
    exact ends_injOn hvalid (List.mem_of_mem_take hflow) (List.mem_of_mem_take hflow') hends

theorem eq_unsafeFlow_of_not_allowed
    (h : issue2AuthorizedWriteContainmentInputSchema input = some policy)
    (hdenied : (evaluateIssue2AuthorizedWriteContainment input).allowed = false) :
    ∃ unsafeFlows omitted,
      evaluateIssue2AuthorizedWriteContainment input = .unsafeFlow unsafeFlows omitted := by
  rw [evaluate_eq h] at hdenied ⊢
  split at hdenied
  · cases hdenied
  · next hsome => exact ⟨_, _, if_neg hsome⟩

theorem Issue2AuthorizedWriteContainmentInput.Permuted.allowed_eq (hpermuted : policy.Permuted policy')
    (h : issue2AuthorizedWriteContainmentInputSchema input = some policy)
    (h' : issue2AuthorizedWriteContainmentInputSchema input' = some policy') :
    (evaluateIssue2AuthorizedWriteContainment input').allowed =
      (evaluateIssue2AuthorizedWriteContainment input).allowed := by
  have hcontained : ∀ {policy : Issue2AuthorizedWriteContainmentInput}, policy.Valid →
      (Contained policy ↔ (violations policy).ncard = 0) := by
    intro policy hvalid
    rw [← allFlows_eq_nil, ncard_violations hvalid, List.length_eq_zero_iff]
  refine Bool.eq_iff_iff.mpr ?_
  rw [allowed_iff h, allowed_iff h',
    hcontained (issue2AuthorizedWriteContainmentInputSchema_valid h),
    hcontained (issue2AuthorizedWriteContainmentInputSchema_valid h'), hpermuted.violations_eq]

/-- The law of the decision and of its diagnostics. -/
theorem evaluateIssue2AuthorizedWriteContainment_exact
    (h : issue2AuthorizedWriteContainmentInputSchema input = some policy) :
    let decision := evaluateIssue2AuthorizedWriteContainment input
    (decision.allowed = true ↔ ∀ target ∈ policy.writableTargets, ∀ reader ∈ target.readers,
      ∀ resource ∈ policy.writer.readClosure, resource ∈ reader.readClosure) ∧
    (decision.allowed = false → ∃ unsafeFlows omittedUnsafeFlowCount,
      decision = .unsafeFlow unsafeFlows omittedUnsafeFlowCount ∧
      unsafeFlows.length + omittedUnsafeFlowCount = (violations policy).ncard ∧
      (unsafeFlows.map Issue2UnsafeFlow.ends).Nodup ∧
      ∀ flow ∈ unsafeFlows, flow.Exact policy) ∧
    (∀ policy', policy.Permuted policy' →
      issue2AuthorizedWriteContainmentInputSchema policy'.toValue = some policy' ∧
      ∀ input', issue2AuthorizedWriteContainmentInputSchema input' = some policy' →
        (evaluateIssue2AuthorizedWriteContainment input').allowed = decision.allowed ∧
        (evaluateIssue2AuthorizedWriteContainment input').total = decision.total ∧
        ∀ flow ∈ decision.unsafeFlows,
          ∀ flow' ∈ (evaluateIssue2AuthorizedWriteContainment input').unsafeFlows,
            flow'.ends = flow.ends → flow'.total = flow.total) ∧
    ∀ input' policy', issue2AuthorizedWriteContainmentInputSchema input' = some policy' →
      policy.Relaxed policy' → decision.allowed = true →
        (evaluateIssue2AuthorizedWriteContainment input').allowed = true := by
  intro decision
  refine ⟨allowed_iff h, fun hdenied => ?_, fun policy' hpermuted => ⟨?_, fun input' h' => ?_⟩, ?_⟩
  · have htotal := total_eq h
    have hnodup := nodup_unsafeFlows h
    have hexact := exact_of_mem_unsafeFlows h
    obtain ⟨unsafeFlows, omitted, hdecision⟩ := eq_unsafeFlow_of_not_allowed h hdenied
    rw [hdecision] at htotal hnodup hexact
    exact ⟨unsafeFlows, omitted, hdecision, htotal, hnodup, hexact⟩
  · have hvalid := issue2AuthorizedWriteContainmentInputSchema_valid h
    exact issue2AuthorizedWriteContainmentInputSchema_toValue (hpermuted.valid hvalid)
  · refine ⟨hpermuted.allowed_eq h h', ?_, fun flow hflow flow' hflow' hends => ?_⟩
    · rw [total_eq h', total_eq h, hpermuted.violations_eq]
    · obtain ⟨htargetId, hprincipalId⟩ := Prod.mk.inj hends
      rw [(exact_of_mem_unsafeFlows h' flow' hflow').total, (exact_of_mem_unsafeFlows h flow hflow).total,
        hpermuted.missing_eq, htargetId, hprincipalId]
  · intro input' policy' h' hrelaxed hallowed
    exact (allowed_iff h').mpr (hrelaxed.contained ((allowed_iff h).mp hallowed))

/-- A writer of two resources and a target with a reader of one of them. -/
def partialReaderPolicy : Issue2AuthorizedWriteContainmentInput :=
  ⟨⟨text "writer", [text "a", text "b"]⟩,
    [⟨text "target", [⟨text "first", [text "a"]⟩, ⟨text "second", [text "b", text "a"]⟩]⟩]⟩

theorem evaluateIssue2AuthorizedWriteContainment_exact_partialReader :
    ∃ unsafeFlows omittedUnsafeFlowCount,
      evaluateIssue2AuthorizedWriteContainment partialReaderPolicy.toValue =
        .unsafeFlow unsafeFlows omittedUnsafeFlowCount ∧
      unsafeFlows.length + omittedUnsafeFlowCount = (violations partialReaderPolicy).ncard ∧
      (unsafeFlows.map Issue2UnsafeFlow.ends).Nodup ∧
      ∀ flow ∈ unsafeFlows, flow.Exact partialReaderPolicy :=
  have haccepted : issue2AuthorizedWriteContainmentInputSchema partialReaderPolicy.toValue =
      some partialReaderPolicy := by decide +kernel
  (evaluateIssue2AuthorizedWriteContainment_exact haccepted).2.1 (by decide +kernel)

end Decisions

end WriteContainment
