import SupabaseUserMcp.Governor.Accounts
import SupabaseUserMcp.ReadTools.Frame

/- Which calls hold the slots of a scope. A call that is in flight holds the state
   the map has for its scope, each such state counts the calls that hold it, and a
   call that has ended gave its slot back and reported its end, both once. -/
namespace Governor

open Js ReadTools Limiter
open Inspection (isErrorOutput)
open Process (execute execute_cons Reachable invariant_execute)

def Admission.scope (platform : Platform) (admission : Admission) : Text :=
  deriveLimiterScope platform admission.call

def Decision.isAdmitted : Decision → Bool
  | .admitted _ => true
  | _ => false

/-- The slot a call was given, while its execution goes on. -/
def CallRecord.slot (record : CallRecord) : Option ℕ :=
  match record.status, record.decision with
  | .running _, .admitted ref => some ref
  | _, _ => none

/-- The number of admitted calls of a scope that are still in flight. -/
def inFlight (platform : Platform) (calls : List CallRecord) (scope : Text) : ℕ :=
  calls.countP fun record => record.slot.isSome && record.scope platform == scope

/-- Whether a call is in its place: before its end it has a slot to give back and
reported nothing, and at its end it gave back what it was given and reported once. -/
def CallRecord.Accounted (record : CallRecord) : Prop :=
  match record.status with
  | .running _ => record.decision.isAdmitted ∧ record.released = 0 ∧ record.events = []
  | .settled output =>
    record.released = (if record.decision.isAdmitted then 1 else 0) ∧
      ∃ event, record.events = [event] ∧ (event.outcome = .success ↔ isErrorOutput output = false)

/-! Outputs and events. -/

section Conclusions

variable {platform : Platform}

theorem errorCodeOf_createReadToolError (code : ReadToolErrorCode) :
    errorCodeOf (createReadToolError code) = some (.string code.name) := by
  cases code <;> rfl

theorem isErrorOutput_of_errorCodeOf {data code : Value} (h : errorCodeOf data = some code) :
    isErrorOutput data = true := by
  unfold errorCodeOf at h
  split at h
  · split at h
    · next hok _ => simp only [isErrorOutput, hok]
    · cases h
  · cases h

/-- An execution reports success just when its output is not an error. -/
theorem conclude_outcome (tool : MemoryTool) (requestId : Value) (aborted : Bool)
    (result : Except Value Value) :
    (conclude platform (tool.descriptor platform) requestId aborted result).outcome = .success ↔
      isErrorOutput (conclude platform (tool.descriptor platform) requestId aborted result).output
        = false := by
  have hblocked : ∀ rows code, (blocked rows code).outcome = .success ↔
      isErrorOutput (blocked rows code).output = false := by
    intro rows code
    simp [blocked, isErrorOutput_createReadToolError]
  cases result with
  | error error => exact hblocked _ _
  | ok result =>
    rw [conclude]
    cases hdata : (tool.descriptor platform).outputSchema result with
    | none => exact hblocked _ _
    | some data =>
      dsimp only
      cases hcode : errorCodeOf data with
      | some code => simp [isErrorOutput_of_errorCodeOf hcode]
      | none =>
        dsimp only
        split
        · exact hblocked _ _
        · split
          · exact hblocked _ _
          · refine iff_of_true rfl (Bool.eq_false_iff.mpr fun herror => ?_)
            obtain ⟨code, rfl⟩ := (outputSchema_eq_some hdata).2 herror
            rw [errorCodeOf_createReadToolError] at hcode
            cases hcode

theorem accounted_opened (id : ℕ) (call : Call) (decision : Decision) (evicted : Option Text) :
    (opened platform id call decision evicted).Accounted := by
  have hdenied : ∀ code, (blocked 0 code).outcome = .success ↔
      isErrorOutput (createReadToolError code) = false := by
    intro code
    simp [blocked, isErrorOutput_createReadToolError]
  cases decision with
  | admitted ref => exact ⟨rfl, rfl, rfl⟩
  | invalid => exact ⟨rfl, _, rfl, hdenied _⟩
  | untracked => exact ⟨rfl, _, rfl, hdenied _⟩
  | windowDenied => exact ⟨rfl, _, rfl, hdenied _⟩
  | concurrencyDenied => exact ⟨rfl, _, rfl, hdenied _⟩

@[simp] theorem toAdmission_opened (id : ℕ) (call : Call) (decision : Decision)
    (evicted : Option Text) :
    (opened platform id call decision evicted).toAdmission = ⟨id, call, decision, evicted⟩ := by
  cases decision <;> rfl

theorem slot_opened (id : ℕ) (call : Call) (decision : Decision) (evicted : Option Text) :
    (opened platform id call decision evicted).slot =
      match decision with
      | .admitted ref => some ref
      | _ => none := by
  cases decision <;> rfl

end Conclusions

/-! Records that are replaced. -/

section Records

variable {platform : Platform} {record : CallRecord}

@[simp] theorem CallRecord.toAdmission_markAborted :
    record.markAborted.toAdmission = record.toAdmission := by
  unfold CallRecord.markAborted
  cases record.status <;> rfl

@[simp] theorem CallRecord.slot_markAborted : record.markAborted.slot = record.slot := by
  unfold CallRecord.markAborted
  cases hstatus : record.status with
  | running aborted =>
    simp only [CallRecord.slot, hstatus]
    cases record.decision <;> rfl
  | settled output => rfl

theorem CallRecord.Accounted.markAborted (h : record.Accounted) : record.markAborted.Accounted := by
  unfold CallRecord.markAborted
  cases hstatus : record.status with
  | running aborted =>
    rw [CallRecord.Accounted, hstatus] at h
    exact h
  | settled output => exact h

@[simp] theorem CallRecord.toAdmission_close (aborted : Bool) (result : Except Value Value) (now : ℚ) :
    (record.close platform aborted result now).toAdmission = record.toAdmission := rfl

@[simp] theorem CallRecord.slot_close (aborted : Bool) (result : Except Value Value) (now : ℚ) :
    (record.close platform aborted result now).slot = none := rfl

/-- The end of an execution gives its slot back and reports it. -/
theorem CallRecord.Accounted.close {ref : ℕ} (h : record.Accounted) (hslot : record.slot = some ref)
    (aborted : Bool) (result : Except Value Value) (now : ℚ) :
    (record.close platform aborted result now).Accounted := by
  unfold CallRecord.slot at hslot
  split at hslot
  · next hstatus hdecision =>
    rw [CallRecord.Accounted, hstatus] at h
    obtain ⟨hadmitted, hreleased, hevents⟩ := h
    refine ⟨?_, emit platform record.call _ now, ?_,
      conclude_outcome record.call.tool record.call.requestId aborted result⟩
    · simp only [CallRecord.close, hreleased, hadmitted, if_true]
    · simp only [CallRecord.close, hevents, List.nil_append]
  · cases hslot

theorem updateCall_append {id : ℕ} {before after : List CallRecord} {f : CallRecord → CallRecord}
    (hids : ((before ++ record :: after).map fun r => r.id).Nodup) (hid : record.id = id) :
    updateCall id f (before ++ record :: after) = before ++ f record :: after := by
  rw [List.map_append, List.map_cons, List.nodup_middle, List.nodup_cons, ← List.map_append] at hids
  have hkeep : ∀ r ∈ before ++ after, (if r.id = id then f r else r) = r := by
    intro r hr
    refine if_neg fun heq => hids.1 ?_
    rw [hid, ← heq]
    exact List.mem_map_of_mem hr
  rw [updateCall, List.map_append, List.map_cons, if_pos hid]
  have hbefore := List.map_congr_left fun r hr => hkeep r (List.mem_append_left after hr)
  have hafter := List.map_congr_left fun r hr => hkeep r (List.mem_append_right before hr)
  rw [hbefore, hafter]
  simp

end Records

/-! The steps. -/

/-- The ways a step goes. A call that ends is told apart from those before and after it. -/
inductive Steps (platform : Platform) (s : State) : Label → State → Prop
  | invoke {id : ℕ} {call : Call} : (∀ record ∈ s.calls, record.id ≠ id) →
      Steps platform s (.invoke id call)
        ⟨(judge platform s.limiter call).1, s.calls ++ [opened platform id call
          (judge platform s.limiter call).2 (evictedBy platform s.limiter call)]⟩
  | timer {id : ℕ} :
      Steps platform s (.timer id) { s with calls := updateCall id CallRecord.markAborted s.calls }
  | abort {id : ℕ} :
      Steps platform s (.abort id) { s with calls := updateCall id CallRecord.markAborted s.calls }
  | settle {id : ℕ} {result : Except Value Value} {now : ℚ} {before after : List CallRecord}
      {record : CallRecord} {aborted : Bool} {ref : ℕ} :
      s.calls = before ++ record :: after → record.id = id → record.slot = some ref →
      record.status = .running aborted →
      Steps platform s (.settle id result now)
        ⟨releaseConcurrency s.limiter ref,
          updateCall id (fun record => record.close platform aborted result now) s.calls⟩

theorem steps_of_step {platform : Platform} {s t : State} {label : Label}
    (h : step platform s label = some t) : Steps platform s label t := by
  cases label with
  | invoke id call =>
    rw [step, Option.ite_none_left_eq_some] at h
    obtain ⟨hfresh, h⟩ := h
    cases h
    simp only [List.any_eq_true, decide_eq_true_eq, not_exists, not_and] at hfresh
    exact .invoke hfresh
  | timer id =>
    cases h
    exact .timer
  | abort id =>
    cases h
    exact .abort
  | settle id result now =>
    rw [step] at h
    cases hfind : s.calls.find? fun record => decide (record.id = id) with
    | none =>
      rw [hfind] at h
      cases h
    | some record =>
      simp only [hfind] at h
      split at h
      · next aborted ref hstatus hdecision =>
        cases h
        obtain ⟨hid, before, after, hcalls, -⟩ := List.find?_eq_some_iff_append.mp hfind
        refine .settle hcalls (by simpa using hid) ?_ hstatus
        simp only [CallRecord.slot, hstatus, hdecision]
      · cases h

/-- What stands of the calls is the same after any step but an invocation. -/
theorem map_toAdmission_updateCall (id : ℕ) {f : CallRecord → CallRecord}
    (hf : ∀ record, (f record).toAdmission = record.toAdmission) (calls : List CallRecord) :
    (updateCall id f calls).map CallRecord.toAdmission = calls.map CallRecord.toAdmission := by
  rw [updateCall, List.map_map]
  refine List.map_congr_left fun record _ => ?_
  rw [Function.comp_apply]
  split
  · exact hf record
  · rfl

def State.admissions (s : State) : List Admission := s.calls.map CallRecord.toAdmission

/-- What a label adds to the admissions. -/
def admitted (platform : Platform) (s : State) : Label → List Admission
  | .invoke id call => [⟨id, call, (judge platform s.limiter call).2,
      evictedBy platform s.limiter call⟩]
  | .timer _ | .abort _ | .settle _ _ _ => []

theorem admissions_step {platform : Platform} {s t : State} {label : Label}
    (h : step platform s label = some t) :
    t.admissions = s.admissions ++ admitted platform s label := by
  cases steps_of_step h with
  | invoke =>
    rw [State.admissions, List.map_append, List.map_cons, List.map_nil, toAdmission_opened]
    rfl
  | timer | abort =>
    rw [admitted, List.append_nil]
    exact map_toAdmission_updateCall _ (fun record => record.toAdmission_markAborted) s.calls
  | settle =>
    rw [admitted, List.append_nil]
    exact map_toAdmission_updateCall _ (fun record => record.toAdmission_close _ _ _) s.calls

/-- What every record has at its start and keeps, every record of a run has. -/
theorem records_of_reachable {platform : Platform} {P : CallRecord → Prop}
    (hopened : ∀ id call decision evicted, P (opened platform id call decision evicted))
    (haborted : ∀ record, P record → P record.markAborted)
    (hclosed : ∀ record aborted result now, P record → P (record.close platform aborted result now))
    {s : State} (h : Reachable (step platform) initial s) : ∀ record ∈ s.calls, P record := by
  refine Process.invariant_reachable (I := fun s => ∀ record ∈ s.calls, P record) ?_
    (fun record hrecord => absurd hrecord List.not_mem_nil) h
  have hupdate : ∀ {id f} {calls : List CallRecord}, (∀ record, P record → P (f record)) →
      (∀ record ∈ calls, P record) → ∀ record ∈ updateCall id f calls, P record := by
    intro id f calls hf hcalls record hrecord
    obtain ⟨old, hold, rfl⟩ := List.mem_map.mp hrecord
    split
    · exact hf old (hcalls old hold)
    · exact hcalls old hold
  intro s label t hs hstep
  cases steps_of_step hstep with
  | invoke =>
    intro record hrecord
    rcases List.mem_append.mp hrecord with hold | hnew
    · exact hs record hold
    · exact List.mem_singleton.mp hnew ▸ hopened _ _ _ _
  | timer | abort => exact hupdate haborted hs
  | settle => exact hupdate (fun record hrecord => hclosed record _ _ _ hrecord) hs

/-! The invariant. -/

/-- The limiter counts the calls in flight, each of which holds the state of its scope. -/
structure Accounted (platform : Platform) (s : State) : Prop where
  wellFormed : WellFormed s.limiter
  ids : (s.calls.map fun record => record.id).Nodup
  held : ∀ record ∈ s.calls, ∀ ref, record.slot = some ref →
    s.limiter.get (record.scope platform) = some ref
  counted : ∀ scope account, s.limiter.account scope = some account →
    account.active = inFlight platform s.calls scope
  records : ∀ record ∈ s.calls, record.Accounted

section Steps

variable {platform : Platform} {s t : State} {label : Label}

theorem accounted_initial : Accounted platform initial :=
  { wellFormed := wellFormed_empty
    ids := List.nodup_nil
    held := fun _ hrecord => absurd hrecord List.not_mem_nil
    counted := fun scope account haccount => by simp [initial] at haccount
    records := fun _ hrecord => absurd hrecord List.not_mem_nil }

/-- A scope without a state has no call in flight. -/
theorem Accounted.inFlight_eq_zero (h : Accounted platform s) {scope : Text}
    (hget : s.limiter.get scope = none) : inFlight platform s.calls scope = 0 := by
  refine List.countP_eq_zero.mpr fun record hrecord => ?_
  intro hflight
  simp only [Bool.and_eq_true, beq_iff_eq, Option.isSome_iff_exists] at hflight
  obtain ⟨⟨ref, hslot⟩, rfl⟩ := hflight
  rw [h.held record hrecord ref hslot] at hget
  cases hget

theorem Accounted.active_getD (h : Accounted platform s) (scope : Text) :
    ((s.limiter.account scope).getD .fresh).active = inFlight platform s.calls scope := by
  cases haccount : s.limiter.account scope with
  | some account => exact h.counted scope account haccount
  | none => exact (h.inFlight_eq_zero (Option.map_eq_none_iff.mp haccount)).symm

theorem inFlight_append (before after : List CallRecord) (scope : Text) :
    inFlight platform (before ++ after) scope =
      inFlight platform before scope + inFlight platform after scope := List.countP_append

theorem inFlight_singleton (record : CallRecord) (scope : Text) :
    inFlight platform [record] scope =
      if record.slot.isSome && record.scope platform == scope then 1 else 0 := by
  rw [inFlight, List.countP_singleton]

theorem inFlight_pos {calls : List CallRecord} {record : CallRecord} (hrecord : record ∈ calls)
    {ref : ℕ} (hslot : record.slot = some ref) : 0 < inFlight platform calls (record.scope platform) :=
  List.countP_pos_iff.mpr ⟨record, hrecord, by simp [hslot]⟩

/-- Aborting a signal changes no count. -/
theorem inFlight_markAborted (id : ℕ) (calls : List CallRecord) (scope : Text) :
    inFlight platform (updateCall id CallRecord.markAborted calls) scope =
      inFlight platform calls scope := by
  rw [inFlight, updateCall, List.countP_map, inFlight]
  refine List.countP_congr fun record _ => ?_
  rw [Function.comp_apply]
  split
  · rw [CallRecord.slot_markAborted, Admission.scope, CallRecord.toAdmission_markAborted]
    rfl
  · rfl

theorem Accounted.markAborted (h : Accounted platform s) (id : ℕ) :
    Accounted platform { s with calls := updateCall id CallRecord.markAborted s.calls } := by
  have hmem : ∀ record ∈ updateCall id CallRecord.markAborted s.calls,
      ∃ old ∈ s.calls, record = old ∨ record = old.markAborted := by
    intro record hrecord
    obtain ⟨old, hold, rfl⟩ := List.mem_map.mp hrecord
    split
    · exact ⟨old, hold, .inr rfl⟩
    · exact ⟨old, hold, .inl rfl⟩
  refine ⟨h.wellFormed, ?_, fun record hrecord ref hslot => ?_, fun scope account haccount => ?_,
    fun record hrecord => ?_⟩
  · have hids := congrArg (List.map Admission.id)
      (map_toAdmission_updateCall id (fun record => record.toAdmission_markAborted) s.calls)
    rw [List.map_map, List.map_map] at hids
    exact hids ▸ h.ids
  · obtain ⟨old, hold, rfl | rfl⟩ := hmem record hrecord
    · exact h.held _ hold ref hslot
    · rw [CallRecord.slot_markAborted] at hslot
      rw [CallRecord.toAdmission_markAborted]
      exact h.held old hold ref hslot
  · exact (h.counted scope account haccount).trans (inFlight_markAborted id s.calls scope).symm
  · obtain ⟨old, hold, rfl | rfl⟩ := hmem record hrecord
    · exact h.records _ hold
    · exact (h.records old hold).markAborted

/-- Admission leaves the map its state for a scope with calls in flight. -/
theorem Admits.get_eq {l : Limiter} {call : Call} {decision : Decision}
    (h : Accounted platform s) (hadmits : Admits platform s.limiter call l decision) (scope : Text)
    (hflight : 0 < inFlight platform s.calls scope) : l.get scope = s.limiter.get scope := by
  cases hadmits with
  | invalid | untracked => rfl
  | judged _ _ _ hevicted hholds =>
    obtain ⟨ref, hget⟩ : ∃ ref, s.limiter.get scope = some ref := by
      refine Option.ne_none_iff_exists'.mp fun hget => ?_
      rw [h.inFlight_eq_zero hget] at hflight
      cases hflight
    by_cases hscope : scope = deriveLimiterScope platform call
    · rw [hscope] at hget ⊢
      rw [hholds.get, hget, hholds.found ref hget]
    · refine hholds.kept scope hscope fun hvictim => ?_
      rw [← hevicted] at hvictim
      obtain ⟨-, -, idle, hidle, hzero⟩ := evictedBy_eq_some h.wellFormed hvictim
      rw [← h.counted scope idle hidle, hzero] at hflight
      cases hflight

/-- An invocation adds a call, which holds a state if it was given a slot. -/
theorem Accounted.invoke (h : Accounted platform s) {id : ℕ} {call : Call}
    (hfresh : ∀ record ∈ s.calls, record.id ≠ id) {l : Limiter} {decision : Decision}
    (hadmits : Admits platform s.limiter call l decision) :
    Accounted platform ⟨l, s.calls ++
      [opened platform id call decision (evictedBy platform s.limiter call)]⟩ := by
  have hids : ((s.calls ++ [opened platform id call decision
      (evictedBy platform s.limiter call)]).map fun record => record.id).Nodup := by
    rw [List.map_append]
    refine List.nodup_append.mpr ⟨h.ids, by simp, ?_⟩
    intro a ha b hb
    obtain ⟨record, hrecord, rfl⟩ := List.mem_map.mp ha
    simp only [List.map_cons, List.map_nil, List.mem_singleton, toAdmission_opened] at hb
    exact hb ▸ hfresh record hrecord
  have hrecords : ∀ record ∈ s.calls ++ [opened platform id call decision
      (evictedBy platform s.limiter call)], record.Accounted := by
    intro record hrecord
    rcases List.mem_append.mp hrecord with hold | hnew
    · exact h.records record hold
    · exact List.mem_singleton.mp hnew ▸ accounted_opened id call decision _
  have hcount : ∀ scope, inFlight platform (s.calls ++ [opened platform id call decision
      (evictedBy platform s.limiter call)]) scope = inFlight platform s.calls scope +
        if decision.isAdmitted && deriveLimiterScope platform call == scope then 1 else 0 := by
    intro scope
    rw [inFlight_append, inFlight_singleton, slot_opened, Admission.scope, toAdmission_opened]
    cases decision <;> rfl
  have hkept := fun scope => hadmits.get_eq h scope
  cases hadmits with
  | invalid | untracked =>
    refine ⟨h.wellFormed, hids, fun record hrecord ref hslot => ?_, fun scope account haccount => ?_,
      hrecords⟩
    · rcases List.mem_append.mp hrecord with hold | hnew
      · exact h.held record hold ref hslot
      · rw [List.mem_singleton.mp hnew, slot_opened] at hslot
        cases hslot
    · rw [hcount, h.counted scope account haccount]
      rfl
  | @judged _ ref _ account' _ _ _ hprior hjudge hevicted hholds =>
    refine ⟨hholds.wellFormed, hids, fun record hrecord r hslot => ?_,
      fun scope account haccount => ?_, hrecords⟩
    · rcases List.mem_append.mp hrecord with hold | hnew
      · rw [hkept _ (inFlight_pos hold hslot)]
        exact h.held record hold r hslot
      · rw [List.mem_singleton.mp hnew, slot_opened] at hslot
        rw [List.mem_singleton.mp hnew, Admission.scope, toAdmission_opened, hholds.get]
        obtain ⟨rfl, -, -⟩ | ⟨-, -, ⟨rfl, -⟩ | ⟨rfl, -, -⟩⟩ := Account.judge_cases hjudge
        · cases hslot
        · cases hslot
        · exact hslot
    · rw [hcount]
      by_cases hscope : scope = deriveLimiterScope platform call
      · subst hscope
        rw [hholds.account_eq, Option.some_inj] at haccount
        have hactive := h.active_getD (deriveLimiterScope platform call)
        rw [beq_self_eq_true, Bool.and_true, ← hactive, hprior, ← haccount]
        obtain ⟨rfl, heq, -⟩ | ⟨-, -, ⟨rfl, heq⟩ | ⟨rfl, heq, -⟩⟩ := Account.judge_cases hjudge
        · exact heq
        · exact heq
        · exact heq
      · have hother : (deriveLimiterScope platform call == scope) = false :=
          beq_false_of_ne (Ne.symm hscope)
        rw [hholds.others scope hscope] at haccount
        split at haccount
        · cases haccount
        · rw [h.counted scope account haccount, hother, Bool.and_false]
          rfl

/-- The end of an execution takes its call from those that hold the state. -/
theorem Accounted.settle (h : Accounted platform s) {id : ℕ} {record : CallRecord}
    {before after : List CallRecord} {ref : ℕ} (hcalls : s.calls = before ++ record :: after)
    (hid : record.id = id) (hslot : record.slot = some ref) (aborted : Bool)
    (result : Except Value Value) (now : ℚ) :
    Accounted platform ⟨releaseConcurrency s.limiter ref,
      updateCall id (fun record => record.close platform aborted result now) s.calls⟩ := by
  have hids := h.ids
  have hmem : record ∈ s.calls := by
    rw [hcalls]
    exact List.mem_append_right _ List.mem_cons_self
  have hget := h.held record hmem ref hslot
  have hold : ∀ r ∈ before ++ after, r ∈ s.calls := by
    intro r hr
    rw [hcalls]
    rcases List.mem_append.mp hr with hr | hr
    · exact List.mem_append_left _ hr
    · exact List.mem_append_right _ (List.mem_cons_of_mem _ hr)
  have hsplit : ∀ r ∈ before ++ record.close platform aborted result now :: after,
      r = record.close platform aborted result now ∨ r ∈ before ++ after := by
    intro r hr
    rcases List.mem_append.mp hr with hr | hr
    · exact .inr (List.mem_append_left _ hr)
    · rcases List.mem_cons.mp hr with rfl | hr
      · exact .inl rfl
      · exact .inr (List.mem_append_right _ hr)
  rw [hcalls] at hids
  rw [show updateCall id _ s.calls = before ++ record.close platform aborted result now :: after by
    rw [hcalls, updateCall_append hids hid]]
  refine ⟨h.wellFormed.update _, ?_, fun r hr r' hslot' => ?_, fun scope account haccount => ?_,
    fun r hr => ?_⟩
  · rw [List.map_append, List.map_cons] at hids ⊢
    exact hids
  · rcases hsplit r hr with rfl | hr
    · rw [CallRecord.slot_close] at hslot'
      cases hslot'
    · exact h.held r (hold r hr) r' hslot'
  · have hclosed : ∀ scope', inFlight platform
        (before ++ record.close platform aborted result now :: after) scope' =
          inFlight platform before scope' + inFlight platform after scope' := by
      intro scope'
      rw [← List.singleton_append, inFlight_append, inFlight_append, inFlight_singleton]
      simp
    have hopen : ∀ scope', inFlight platform s.calls scope' = inFlight platform before scope' +
        inFlight platform after scope' + if record.scope platform == scope' then 1 else 0 := by
      intro scope'
      rw [hcalls, ← List.singleton_append, inFlight_append, inFlight_append, inFlight_singleton,
        hslot, Option.isSome_some, Bool.true_and]
      omega
    rw [hclosed]
    by_cases hscope : scope = record.scope platform
    · subst hscope
      have hpos := hopen (record.scope platform)
      obtain ⟨prior, hprior⟩ : ∃ prior, s.limiter.account (record.scope platform) = some prior := by
        rw [Limiter.account, hget]
        exact ⟨_, rfl⟩
      rw [releaseConcurrency_account h.wellFormed hget hprior, Option.some_inj] at haccount
      rw [← haccount, Account.release, h.counted _ prior hprior, hpos]
      simp
    · rw [releaseConcurrency_other h.wellFormed hget hscope] at haccount
      rw [h.counted scope account haccount, hopen, beq_false_of_ne (Ne.symm hscope)]
      simp
  · rcases hsplit r hr with rfl | hr
    · exact (h.records record hmem).close hslot aborted result now
    · exact h.records r (hold r hr)

theorem accounted_step (h : Accounted platform s) (hstep : step platform s label = some t) :
    Accounted platform t := by
  cases steps_of_step hstep with
  | invoke hfresh => exact h.invoke hfresh (admits_judge platform h.wellFormed _)
  | timer => exact h.markAborted _
  | abort => exact h.markAborted _
  | settle hcalls hid hslot => exact h.settle hcalls hid hslot _ _ _

theorem accounted_of_reachable (h : Reachable (step platform) initial s) : Accounted platform s :=
  Process.invariant_reachable accounted_step accounted_initial h

/-- A call in flight can end. -/
theorem Accounted.exists_settle (h : Accounted platform s) {record : CallRecord}
    (hrecord : record ∈ s.calls) {ref : ℕ} (hslot : record.slot = some ref)
    (result : Except Value Value) (now : ℚ) :
    ∃ t, step platform s (.settle record.id result now) = some t ∧
      t.limiter = releaseConcurrency s.limiter ref ∧
      t.calls.map CallRecord.toAdmission = s.calls.map CallRecord.toAdmission := by
  obtain ⟨before, after, hcalls⟩ := List.append_of_mem hrecord
  have hids := h.ids
  rw [hcalls, List.map_append, List.map_cons, List.nodup_middle, List.nodup_cons,
    ← List.map_append] at hids
  have hfind : s.calls.find? (fun r => decide (r.id = record.id)) = some record := by
    rw [List.find?_eq_some_iff_append]
    refine ⟨by simp, before, after, hcalls, fun r hr => ?_⟩
    have hne : r.id ≠ record.id := fun heq =>
      hids.1 (heq ▸ List.mem_map_of_mem (List.mem_append_left after hr))
    simp [hne]
  unfold CallRecord.slot at hslot
  split at hslot
  · next aborted r hstatus hdecision =>
    cases hslot
    refine ⟨⟨releaseConcurrency s.limiter ref, updateCall record.id
      (fun record => record.close platform aborted result now) s.calls⟩, ?_, rfl,
      map_toAdmission_updateCall _ (fun record => record.toAdmission_close _ _ _) s.calls⟩
    simp only [step, hfind, hstatus, hdecision]
  · cases hslot

/-- A step leaves the map its state for a scope with calls in flight. -/
theorem get_step (h : Accounted platform s) (hstep : step platform s label = some t) {scope : Text}
    (hflight : 0 < inFlight platform s.calls scope) : t.limiter.get scope = s.limiter.get scope := by
  cases steps_of_step hstep with
  | invoke => exact (admits_judge platform h.wellFormed _).get_eq h _ hflight
  | timer => rfl
  | abort => rfl
  | settle => rfl

/-- Under one policy no scope is given more slots than the policy has. -/
structure Bounded (platform : Platform) (policy : ReadToolGovernancePolicy) (s : State) : Prop where
  accounted : Accounted platform s
  bounded : (∀ record ∈ s.calls, record.call.policy = policy) → ∀ scope,
    inFlight platform s.calls scope ≤ policy.maxConcurrentExecutions

theorem Bounded.invoke {policy : ReadToolGovernancePolicy} (h : Bounded platform policy s) {id : ℕ}
    {call : Call} {l : Limiter} {decision : Decision} {evicted : Option Text}
    (hadmits : Admits platform s.limiter call l decision)
    (hpolicy : ∀ record ∈ s.calls ++ [opened platform id call decision evicted],
      record.call.policy = policy) (scope : Text) :
    inFlight platform (s.calls ++ [opened platform id call decision evicted]) scope ≤
      policy.maxConcurrentExecutions := by
  have hprior := h.bounded (fun record hrecord => hpolicy record (List.mem_append_left _ hrecord)) scope
  have hcall := hpolicy _ (List.mem_append_right _ List.mem_cons_self)
  rw [toAdmission_opened] at hcall
  rw [inFlight_append, inFlight_singleton]
  by_cases hslot : (opened platform id call decision evicted).slot.isSome = true ∧
      deriveLimiterScope platform call = scope
  · obtain ⟨hslot, rfl⟩ := hslot
    rw [slot_opened] at hslot
    cases hadmits with
    | invalid | untracked => cases hslot
    | judged _ haccount hjudge =>
      obtain ⟨rfl, -⟩ | ⟨-, -, ⟨rfl, -⟩ | ⟨rfl, -, hroom⟩⟩ := Account.judge_cases hjudge
      · cases hslot
      · cases hslot
      · rw [← haccount, h.accounted.active_getD, hcall] at hroom
        split <;> omega
  · rw [Admission.scope, toAdmission_opened, if_neg (by simpa using hslot)]
    exact hprior

theorem bounded_step {policy : ReadToolGovernancePolicy} (h : Bounded platform policy s)
    (hstep : step platform s label = some t) : Bounded platform policy t := by
  refine ⟨accounted_step h.accounted hstep, fun hpolicy scope => ?_⟩
  have hmap : ∀ {id f}, (∀ record : CallRecord, (f record).toAdmission = record.toAdmission) →
      (∀ record ∈ updateCall id f s.calls, record.call.policy = policy) →
      ∀ record ∈ s.calls, record.call.policy = policy := by
    intro id f hf hpolicy record hrecord
    have hmem := hpolicy _ (List.mem_map_of_mem hrecord)
    split at hmem
    · rwa [hf] at hmem
    · exact hmem
  cases steps_of_step hstep with
  | invoke => exact h.invoke (admits_judge platform h.accounted.wellFormed _) hpolicy scope
  | timer | abort =>
    rw [inFlight_markAborted]
    exact h.bounded (hmap (fun record => record.toAdmission_markAborted) hpolicy) scope
  | settle =>
    refine (List.countP_map .. |>.trans_le (List.countP_mono_left fun record _ hflight => ?_)).trans
      (h.bounded (hmap (fun record => record.toAdmission_close _ _ _) hpolicy) scope)
    rw [Function.comp_apply] at hflight
    split at hflight
    · rw [CallRecord.slot_close] at hflight
      cases hflight
    · exact hflight

theorem bounded_of_reachable (policy : ReadToolGovernancePolicy)
    (h : Reachable (step platform) initial s) : Bounded platform policy s :=
  Process.invariant_reachable bounded_step
    ⟨accounted_initial, fun _ _ => Nat.zero_le _⟩ h

/-- **Every slot is accounted for.** The state of a scope counts its calls in flight,
no more than the policy has slots; as long as there are any, no step takes the state
from the map; the map is bounded; and every call gives back its slot and reports its
end once, as a success just when it returns no error. -/
theorem concurrency_accounted (policy : ReadToolGovernancePolicy)
    (h : Reachable (step platform) initial s)
    (hpolicy : ∀ record ∈ s.calls, record.call.policy = policy) :
    (∀ scope ref, s.limiter.get scope = some ref →
      (s.limiter.deref ref).active = inFlight platform s.calls scope ∧
      (s.limiter.deref ref).active ≤ policy.maxConcurrentExecutions) ∧
    (∀ scope, 0 < inFlight platform s.calls scope → (s.limiter.get scope).isSome ∧
      ∀ label t, step platform s label = some t → t.limiter.get scope = s.limiter.get scope) ∧
    s.limiter.limiterStates.length ≤ 1024 ∧
    ∀ record ∈ s.calls, record.Accounted := by
  have haccounted := accounted_of_reachable h
  have hcounted : ∀ scope ref, s.limiter.get scope = some ref →
      (s.limiter.deref ref).active = inFlight platform s.calls scope := by
    intro scope ref hget
    refine haccounted.counted scope (s.limiter.deref ref).account ?_
    rw [Limiter.account, hget, Option.map_some]
  refine ⟨fun scope ref hget => ⟨hcounted scope ref hget, ?_⟩, fun scope hflight => ⟨?_, ?_⟩,
    haccounted.wellFormed.tracked, haccounted.records⟩
  · rw [hcounted scope ref hget]
    exact (bounded_of_reachable policy h).bounded hpolicy scope
  · refine Option.isSome_iff_ne_none.mpr fun hget => ?_
    rw [haccounted.inFlight_eq_zero hget] at hflight
    cases hflight
  · intro label t hstep
    exact get_step haccounted hstep hflight

end Steps

/-- A call of `session_capabilities_get_v1` while the clock stands still. -/
def capabilitiesCall (policy : ReadToolGovernancePolicy) (principal : Text) (now : ℚ) : Call where
  tool := .sessionCapabilitiesGet
  policy := policy
  unsafeInput := .object []
  requestId := .null
  principalId := some principal
  clientId := none
  timestampAt := now
  startAt := now
  touchAt := now
  windowAt := now
  denyAt := now

/-- A call for the recent memories of a principal. -/
def recentCall (policy : ReadToolGovernancePolicy) (principal : Text) (now : ℚ) : Call :=
  { capabilitiesCall policy principal now with tool := .memoryListRecent }

def labMemory : Value :=
  .object [(text "id", .string (text "mem_1234567890123456789012")),
    (text "title", .string (text "Network note")),
    (text "content", .string (text "alpha")),
    (text "contentTrust", .string (text "untrusted")),
    (text "createdAt", .string (text "2026-08-23T12:00:00.000Z")),
    (text "provenanceSummary", .string (text "synthetic fixture"))]

/-- A page with one memory. -/
def onePage : Value :=
  .object [(text "ok", .bool true), (text "items", .array [labMemory])]

def twoCalls : List Label :=
  [.invoke 0 (recentCall defaultRateLimit (text "a") 0),
    .invoke 1 (recentCall defaultRateLimit (text "a") 0), .settle 0 (.ok onePage) 5]

/-- Of two calls one has settled, and one is in flight. -/
theorem concurrency_accounted_twoCalls : ∃ s ref first,
    Reachable (step asciiPlatform) initial s ∧
    s.calls.length = 2 ∧ s.calls.head? = some first ∧ first.released = 1 ∧
    first.events.map (·.outcome) = [.success] ∧ first.Accounted ∧
    s.limiter.get (text "principal:a") = some ref ∧ (s.limiter.deref ref).active = 1 := by
  have hrun : (execute (step asciiPlatform) initial twoCalls).map (fun s => decide
      ((∀ record ∈ s.calls, record.call.policy = defaultRateLimit) ∧
        inFlight asciiPlatform s.calls (text "principal:a") = 1 ∧
        (s.limiter.get (text "principal:a")).isSome ∧ s.calls.length = 2 ∧
        (s.calls.head?.map fun record => (record.released, record.events.map (·.outcome))) =
          some (1, [.success]))) = some true := by
    decide +kernel
  obtain ⟨s, hexecute, hs⟩ := Option.map_eq_some_iff.mp hrun
  obtain ⟨hpolicy, hflight, hsome, hlength, hfirst⟩ := of_decide_eq_true hs
  obtain ⟨first, hhead, hfirst⟩ := Option.map_eq_some_iff.mp hfirst
  obtain ⟨hreleased, hevents⟩ := Prod.mk.inj hfirst
  obtain ⟨ref, hget⟩ := Option.isSome_iff_exists.mp hsome
  have haccounted := concurrency_accounted defaultRateLimit ⟨_, hexecute⟩ hpolicy
  exact ⟨s, ref, first, ⟨_, hexecute⟩, hlength, hhead, hreleased, hevents,
    haccounted.2.2.2 first (List.mem_of_mem_head? hhead), hget,
    (haccounted.1 _ ref hget).1.trans hflight⟩

end Governor
