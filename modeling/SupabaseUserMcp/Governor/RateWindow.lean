import Mathlib.Data.List.DropRight
import SupabaseUserMcp.Governor.Accounting

/- How often a scope passes the window check. The timestamps of its state stand for
   its passes since the state was made, so that as long as the state is kept no
   window holds more passes than the policy allows. A state that was dropped from
   the full map is made anew without them. -/
namespace Governor

open Js ReadTools Limiter
open Process (execute execute_append execute_cons Reachable)
open Process.SlidingWindow

/-- Whether `enforceWindow` returned true. -/
def Decision.passedWindow : Decision → Bool
  | .concurrencyDenied | .admitted _ => true
  | _ => false

/-- When the calls of a scope passed the window check. -/
def passes (platform : Platform) (scope : Text) (admissions : List Admission) : List ℤ :=
  (admissions.filter fun admission =>
    admission.decision.passedWindow && admission.scope platform == scope).map fun admission =>
      stableNow admission.call.windowAt

/-- What followed the last eviction of a scope. -/
def sinceEviction (scope : Text) (admissions : List Admission) : List Admission :=
  admissions.rtakeWhile fun admission => admission.evicted != some scope

section Passes

variable {platform : Platform} {scope : Text}

theorem passes_append (before after : List Admission) :
    passes platform scope (before ++ after) =
      passes platform scope before ++ passes platform scope after := by
  rw [passes, List.filter_append, List.map_append]
  rfl

theorem passes_singleton (admission : Admission) : passes platform scope [admission] =
    if admission.decision.passedWindow && admission.scope platform == scope then
      [stableNow admission.call.windowAt] else [] := by
  rw [passes, List.filter_singleton]
  cases hpass : admission.decision.passedWindow && admission.scope platform == scope <;> rfl

theorem passes_sublist {part admissions : List Admission} (h : part.Sublist admissions) :
    (passes platform scope part).Sublist (passes platform scope admissions) :=
  (h.filter _).map _

/-- A stretch at the end without an eviction follows the last eviction. -/
theorem suffix_sinceEviction {stretch admissions : List Admission} (h : stretch <:+ admissions)
    (hkept : ∀ admission ∈ stretch, admission.evicted ≠ some scope) :
    stretch <:+ sinceEviction scope admissions := by
  obtain ⟨before, rfl⟩ := h
  induction stretch using List.reverseRecOn with
  | nil => exact List.nil_suffix
  | append_singleton stretch last ih =>
    have hlast := hkept last (List.mem_append_right _ List.mem_cons_self)
    rw [sinceEviction, ← List.append_assoc, List.rtakeWhile_concat_pos _ _ _ (by simpa using hlast)]
    exact List.suffix_append_self_iff.mpr
      (ih fun admission hmem => hkept admission (List.mem_append_left _ hmem))

end Passes

/-! Runs. -/

/-- The log of a scope's state stands for its passes since the last eviction, and no
stretch between evictions holds more passes than a policy allows. -/
structure Windowed (platform : Platform) (policy : ReadToolGovernancePolicy) (scope : Text)
    (l : Limiter) (admissions : List Admission) : Prop where
  tracks : ∃ last, Tracks policy.requestWindowMs last
      (passes platform scope (sinceEviction scope admissions))
      ((l.account scope).getD .fresh).requestTimestamps ∧
    ∀ t, (∀ admission ∈ admissions, admission.call.windowAt ≤ t) → last ≤ stableNow t
  within : ∀ stretch, stretch <:+: admissions →
    (∀ admission ∈ stretch, admission.evicted ≠ some scope) →
    Within policy.maxRequestsPerWindow policy.requestWindowMs (passes platform scope stretch)

section Runs

variable {platform : Platform} {policy : ReadToolGovernancePolicy} {scope : Text} {s t : State}
  {label : Label}

theorem windowed_initial : Windowed platform policy scope initial.limiter initial.admissions where
  tracks := ⟨0, tracks_nil 0, fun _ _ => le_max_left 0 _⟩
  within stretch hstretch _ := by
    rw [List.eq_nil_of_infix_nil hstretch]
    exact within_nil

/-- A release leaves every log as it is. -/
theorem requestTimestamps_releaseConcurrency (l : Limiter) (ref : ℕ) (scope : Text) :
    (((releaseConcurrency l ref).account scope).getD .fresh).requestTimestamps =
      ((l.account scope).getD .fresh).requestTimestamps := by
  rw [Limiter.account, releaseConcurrency, get_update, Limiter.account]
  cases hget : l.get scope with
  | none => rfl
  | some r =>
    rw [Option.map_some, Option.map_some, Option.getD_some, Option.getD_some]
    by_cases hr : r = ref
    · subst hr
      by_cases hlt : r < l.states.length
      · rw [deref_update_self _ hlt]
        split <;> rfl
      · simp only [deref, update, List.getD_eq_getElem?_getD, List.getElem?_modify]
        simp [hlt]
    · rw [deref_update_other _ hr]

theorem Windowed.within_since {l : Limiter} {admissions : List Admission}
    (h : Windowed platform policy scope l admissions) :
    Within policy.maxRequestsPerWindow policy.requestWindowMs
      (passes platform scope (sinceEviction scope admissions)) := by
  refine h.within _ (List.rtakeWhile_suffix _ _).isInfix fun a ha => ?_
  have hkept := List.mem_rtakeWhile_imp ha
  simpa using hkept

/-- The stretches of a run that goes on by an admission. -/
theorem Windowed.within_append {l : Limiter} {admissions : List Admission} {admission : Admission}
    (h : Windowed platform policy scope l admissions)
    (hlast : admission.evicted ≠ some scope →
      Within policy.maxRequestsPerWindow policy.requestWindowMs
        (passes platform scope (sinceEviction scope admissions ++ [admission]))) :
    ∀ stretch, stretch <:+: admissions ++ [admission] →
      (∀ a ∈ stretch, a.evicted ≠ some scope) →
      Within policy.maxRequestsPerWindow policy.requestWindowMs (passes platform scope stretch) := by
  intro stretch hstretch hkept
  rcases List.infix_concat_iff.mp hstretch with hsuffix | hinfix
  · rcases List.suffix_concat_iff.mp hsuffix with rfl | ⟨front, rfl, hfront⟩
    · exact within_nil
    · have hsince := suffix_sinceEviction hfront fun a ha => hkept a (List.mem_append_left _ ha)
      refine (hlast (hkept admission (by simp))).of_sublist (passes_sublist ?_)
      exact hsince.sublist.append (List.Sublist.refl _)
  · exact h.within stretch hinfix hkept

/-- An admission that is not a pass of the scope leaves its log and its passes. -/
theorem Windowed.other {l l' : Limiter} {admissions : List Admission} {admission : Admission}
    (h : Windowed platform policy scope l admissions)
    (hpass : passes platform scope [admission] = [])
    (hlog : admission.evicted ≠ some scope →
      ((l'.account scope).getD .fresh).requestTimestamps =
        ((l.account scope).getD .fresh).requestTimestamps)
    (hevicted : admission.evicted = some scope → l'.account scope = none) :
    Windowed platform policy scope l' (admissions ++ [admission]) := by
  refine ⟨?_, h.within_append fun _ => ?_⟩
  · obtain ⟨last, htracks, hbound⟩ := h.tracks
    by_cases hkept : admission.evicted = some scope
    · refine ⟨0, ?_, fun _ _ => le_max_left 0 _⟩
      rw [sinceEviction, List.rtakeWhile_concat_neg _ _ _ (by simp [hkept]), hevicted hkept]
      exact tracks_nil 0
    · refine ⟨last, ?_, fun t ht => hbound t fun a ha => ht a (List.mem_append_left _ ha)⟩
      rw [sinceEviction, List.rtakeWhile_concat_pos _ _ _ (by simp [hkept]), passes_append, hpass,
        List.append_nil, hlog hkept]
      exact htracks
  · rw [passes_append, hpass, List.append_nil]
    exact h.within_since

/-- An admission of the scope passes the check below the limit or not at all. -/
theorem Windowed.own {l l' : Limiter} {admissions : List Admission} {admission : Admission}
    {account account' : Account} {ref : ℕ} (h : Windowed platform policy scope l admissions)
    (hscope : admission.scope platform = scope)
    (hclock : ∀ a ∈ admissions, a.call.windowAt ≤ admission.call.windowAt)
    (hprior : (l.account scope).getD .fresh = account)
    (hjudge : account.judge policy (stableNow admission.call.windowAt) ref =
      (account', admission.decision))
    (haccount : l'.account scope = some account') (hkept : admission.evicted ≠ some scope) :
    Windowed platform policy scope l' (admissions ++ [admission]) := by
  obtain ⟨last, htracks, hbound⟩ := h.tracks
  have hlast := hbound _ hclock
  have hwidth : (0 : ℤ) < policy.requestWindowMs := by exact_mod_cast policy.positive.2.2
  have hsince : sinceEviction scope (admissions ++ [admission]) =
      sinceEviction scope admissions ++ [admission] :=
    List.rtakeWhile_concat_pos _ _ _ (by simp [hkept])
  have hwithin := h.within_since
  have hlater : ∀ t, (∀ a ∈ admissions ++ [admission], a.call.windowAt ≤ t) →
      stableNow admission.call.windowAt ≤ stableNow t := by
    intro t ht
    exact max_le_max le_rfl (Int.floor_le_floor (ht admission (by simp)))
  rw [hprior] at htracks
  obtain ⟨hdenied, -, hlog⟩ | ⟨hbelow, hlog, hpassed⟩ := Account.judge_cases hjudge
  · have hpass : passes platform scope [admission] = [] := by
      rw [passes_singleton, hdenied]
      rfl
    refine ⟨⟨_, ?_, hlater⟩, h.within_append fun _ => ?_⟩
    · rw [hsince, passes_append, hpass, List.append_nil, haccount, Option.getD_some, hlog]
      exact htracks.prune hlast
    · rw [passes_append, hpass, List.append_nil]
      exact hwithin
  · have hpass : passes platform scope [admission] = [stableNow admission.call.windowAt] := by
      have hdecision : admission.decision.passedWindow = true := by
        obtain ⟨hdecision, -⟩ | ⟨hdecision, -⟩ := hpassed
        · rw [hdecision]
          rfl
        · rw [hdecision]
          rfl
      rw [passes_singleton, hdecision, hscope, beq_self_eq_true]
      rfl
    refine ⟨⟨_, ?_, hlater⟩, h.within_append fun _ => ?_⟩
    · rw [hsince, passes_append, hpass, haccount, Option.getD_some, hlog]
      exact htracks.pass hlast hwidth
    · rw [passes_append, hpass]
      exact hwithin.pass htracks hlast hbelow

theorem Windowed.invoke (hwell : WellFormed s.limiter)
    (h : Windowed platform policy scope s.limiter s.admissions) {id : ℕ} {call : Call} {l : Limiter}
    {decision : Decision} (hadmits : Admits platform s.limiter call l decision)
    (hpolicy : call.policy = policy)
    (hclock : ∀ a ∈ s.admissions, a.call.windowAt ≤ call.windowAt) :
    Windowed platform policy scope l
      (s.admissions ++ [⟨id, call, decision, evictedBy platform s.limiter call⟩]) := by
  cases hadmits with
  | invalid _ hevicted | untracked _ _ _ hevicted =>
    refine h.other (by rw [passes_singleton]; rfl) (fun _ => rfl) fun hscope => ?_
    rw [hevicted] at hscope
    cases hscope
  | @judged _ ref account account' _ _ _ hprior hjudge hevicted hholds =>
    by_cases hscope : deriveLimiterScope platform call = scope
    · subst hscope
      refine h.own rfl hclock hprior (hpolicy ▸ hjudge) hholds.account_eq fun hself => ?_
      obtain ⟨hget, -, account, haccount, -⟩ := evictedBy_eq_some hwell hself
      rw [Limiter.account, hget] at haccount
      cases haccount
    · have hpass : passes platform scope
          [⟨id, call, decision, evictedBy platform s.limiter call⟩] = [] := by
        rw [passes_singleton, Admission.scope, beq_false_of_ne hscope, Bool.and_false]
        rfl
      have hothers := hholds.others scope (Ne.symm hscope)
      refine h.other hpass (fun hkept => ?_) fun hself => ?_
      · rw [hothers, if_neg (hevicted ▸ hkept)]
      · rw [hothers, if_pos (hevicted ▸ hself)]

/-- The window check of one scope along a run. -/
structure WindowedRun (platform : Platform) (policy : ReadToolGovernancePolicy) (scope : Text)
    (s : State) : Prop where
  accounted : Accounted platform s
  windowed : (∀ admission ∈ s.admissions, admission.call.policy = policy) →
    (s.admissions.Pairwise fun earlier later => earlier.call.windowAt ≤ later.call.windowAt) →
    Windowed platform policy scope s.limiter s.admissions

theorem windowedRun_step (h : WindowedRun platform policy scope s)
    (hstep : step platform s label = some t) : WindowedRun platform policy scope t := by
  refine ⟨accounted_step h.accounted hstep, fun hpolicy hclock => ?_⟩
  have hadmissions := admissions_step hstep
  rw [hadmissions] at hpolicy hclock ⊢
  obtain ⟨hbefore, -, hlater⟩ := List.pairwise_append.mp hclock
  have hwindowed := h.windowed (fun a ha => hpolicy a (List.mem_append_left _ ha)) hbefore
  cases steps_of_step hstep with
  | @invoke id call _ =>
    refine hwindowed.invoke h.accounted.wellFormed (admits_judge platform h.accounted.wellFormed call) ?_ ?_
    · exact hpolicy _ (List.mem_append_right _ List.mem_cons_self)
    · exact fun a ha => hlater a ha _ List.mem_cons_self
  | timer | abort =>
    rw [admitted, List.append_nil]
    exact hwindowed
  | settle =>
    rw [admitted, List.append_nil]
    refine ⟨?_, hwindowed.within⟩
    rw [requestTimestamps_releaseConcurrency]
    exact hwindowed.tracks

theorem windowedRun_of_reachable (policy : ReadToolGovernancePolicy) (scope : Text)
    (h : Reachable (step platform) initial s) : WindowedRun platform policy scope s :=
  Process.invariant_reachable windowedRun_step
    ⟨accounted_initial, fun _ _ => windowed_initial⟩ h

/-- **No window holds too many passes of a scope** in a stretch of a run in which the
state of the scope is not evicted. -/
theorem window_passes_within (policy : ReadToolGovernancePolicy) (scope : Text)
    (h : Reachable (step platform) initial s)
    (hpolicy : ∀ admission ∈ s.admissions, admission.call.policy = policy)
    (hclock : s.admissions.Pairwise fun earlier later =>
      earlier.call.windowAt ≤ later.call.windowAt)
    (stretch : List Admission) (hstretch : stretch <:+: s.admissions)
    (hkept : ∀ admission ∈ stretch, admission.evicted ≠ some scope) (time : ℤ) :
    countIn policy.requestWindowMs time (passes platform scope stretch) ≤
      policy.maxRequestsPerWindow :=
  ((windowedRun_of_reachable policy scope h).windowed hpolicy hclock).within stretch hstretch
    hkept time

end Runs

/-- A policy of one call a minute. -/
def singlePolicy : ReadToolGovernancePolicy := ⟨4, 1, 60000, by decide⟩

/-- With a pass in the window and a denial. -/
theorem window_passes_within_twoCalls : ∃ s,
    Reachable (step asciiPlatform) initial s ∧
    passes asciiPlatform (text "principal:a") s.admissions = [0] ∧
    s.admissions.map Admission.decision = [.admitted 0, .windowDenied] ∧
    ∀ time, countIn 60000 time (passes asciiPlatform (text "principal:a") s.admissions) ≤ 1 := by
  let call := capabilitiesCall singlePolicy (text "a") 0
  obtain ⟨s, hrun, hadmissions⟩ : ∃ s,
      execute (step asciiPlatform) initial [.invoke 0 call, .invoke 1 call] = some s ∧
      s.admissions = [⟨0, call, .admitted 0, none⟩, ⟨1, call, .windowDenied, none⟩] := ⟨_, rfl, rfl⟩
  refine ⟨s, ⟨_, hrun⟩, ?_, ?_,
    window_passes_within singlePolicy (text "principal:a") ⟨_, hrun⟩ ?_ ?_ _ (List.infix_refl _) ?_⟩
  · rw [hadmissions]
    decide
  · rw [hadmissions]
    rfl
  · rw [hadmissions]
    simp [call, capabilitiesCall]
  · rw [hadmissions]
    simp
  · rw [hadmissions]
    simp

/-! A scope that is evicted. -/

section Churn

/-- Principals told apart by the length of their ids. -/
def crowd (n : ℕ) : Call := capabilitiesCall singlePolicy (List.replicate n 0x70) 0

def crowdScope (n : ℕ) : Text := text "principal:" ++ List.replicate n 0x70

theorem crowdScope_injective {m n : ℕ} (h : crowdScope m = crowdScope n) : m = n := by
  have hlength := congrArg List.length h
  simpa [crowdScope] using hlength

/-- The first principal of the crowd passed and finished, and those after it, up to `n`,
are still at it. -/
structure Crowded (n : ℕ) (s : State) : Prop where
  reachable : Reachable (step asciiPlatform) initial s
  scopes : s.limiter.limiterStates.map Prod.fst = (List.range n).map crowdScope
  first : s.limiter.account (crowdScope 0) = some ⟨0, [0]⟩
  others : ∀ i, 0 < i → i < n → s.limiter.account (crowdScope i) = some ⟨1, [0]⟩
  ids : s.calls.map (fun record => record.id) = List.range n
  still : ∀ admission ∈ s.admissions, admission.call.policy = singlePolicy ∧
    admission.call.windowAt = 0
  passed : passes asciiPlatform (crowdScope 0) s.admissions = [0]

theorem crowded_one : ∃ s, Crowded 1 s := by
  obtain ⟨s, hrun, hlimiter, hids, hadmissions⟩ : ∃ s, execute (step asciiPlatform) initial
      [.invoke 0 (crowd 0), .settle 0 (.error .null) 0] = some s ∧
      s.limiter = ⟨[⟨0, [0], 0⟩], [(crowdScope 0, 0)]⟩ ∧ s.calls.map (fun record => record.id) = [0] ∧
      s.admissions = [⟨0, crowd 0, .admitted 0, none⟩] := ⟨_, rfl, by decide, rfl, rfl⟩
  refine ⟨s, ⟨_, hrun⟩, by rw [hlimiter]; rfl, by rw [hlimiter]; rfl, by omega, hids, ?_, ?_⟩
  · rw [hadmissions]
    simp [crowd, capabilitiesCall]
  · rw [hadmissions]
    decide

theorem limiterStates_enforceWindow (l : Limiter) (ref : ℕ) (now : ℤ)
    (policy : ReadToolGovernancePolicy) :
    (enforceWindow l ref now policy).1.limiterStates = l.limiterStates := by
  unfold enforceWindow
  dsimp only
  split <;> rfl

/-- A scope that comes into a map with room is entered at its end. -/
theorem limiterStates_judge {platform : Platform} {l : Limiter} {call : Call}
    (hinput : ((call.tool.descriptor platform).inputSchema call.unsafeInput).isSome)
    (hget : l.get (deriveLimiterScope platform call) = none)
    (hroom : l.limiterStates.length < maxTrackedScopes) :
    (judge platform l call).1.limiterStates =
      l.limiterStates ++ [(deriveLimiterScope platform call, l.states.length)] := by
  obtain ⟨input, hinput⟩ := Option.isSome_iff_exists.mp hinput
  simp only [judge, hinput, getLimiterState, hget, if_neg (Nat.not_le.mpr hroom)]
  have hkept := limiterStates_enforceWindow
    (l.insert (deriveLimiterScope platform call) (stableNow call.touchAt)) l.states.length
    (stableNow call.windowAt) call.policy
  cases henforce : enforceWindow (l.insert (deriveLimiterScope platform call) (stableNow call.touchAt))
      l.states.length (stableNow call.windowAt) call.policy with
  | mk after passed =>
    rw [henforce] at hkept
    cases passed with
    | false => exact hkept
    | true =>
      dsimp only
      split <;> exact hkept

/-- One of the crowd without a state comes in where a state can be made for it. -/
theorem join {s : State} (h : Accounted asciiPlatform s) {id n : ℕ}
    (hfresh : ∀ record ∈ s.calls, record.id ≠ id)
    (hnew : s.limiter.account (crowdScope n) = none)
    (hidle : ∃ scope account, s.limiter.account scope = some account ∧ account.active = 0) :
    ∃ t ref evicted, step asciiPlatform s (.invoke id (crowd n)) = some t ∧
      t.calls = s.calls ++ [opened asciiPlatform id (crowd n) (.admitted ref) evicted] ∧
      t.limiter = (judge asciiPlatform s.limiter (crowd n)).1 ∧
      t.limiter.account (crowdScope n) = some ⟨1, [0]⟩ ∧
      (∀ scope ≠ crowdScope n, t.limiter.account scope =
        if s.limiter.victim (crowdScope n) = some scope then none else s.limiter.account scope) := by
  have hfresh' : ¬ s.calls.any (fun record => record.id = id) := by
    simpa using hfresh
  have hadmits := admits_judge asciiPlatform h.wellFormed (crowd n)
  generalize hjudge : judge asciiPlatform s.limiter (crowd n) = admitted at hadmits
  obtain ⟨l, decision⟩ := admitted
  have hstep : step asciiPlatform s (.invoke id (crowd n)) = some ⟨l, s.calls ++ [opened asciiPlatform
      id (crowd n) decision (evictedBy asciiPlatform s.limiter (crowd n))]⟩ := by
    rw [step, if_neg hfresh', hjudge]
  cases hadmits with
  | invalid hinput => cases hinput
  | untracked _ _ hevictable =>
    obtain ⟨scope, account, haccount, hzero⟩ := hidle
    exact absurd hzero (evictable_eq_none hevictable haccount)
  | @judged _ ref _ _ _ _ _ hprior hjudged _ hholds =>
    change (s.limiter.account (crowdScope n)).getD .fresh = _ at hprior
    rw [hnew] at hprior
    rw [← hprior] at hjudged
    have hfirst : Account.fresh.judge singlePolicy (stableNow 0) ref = (⟨1, [0]⟩, .admitted ref) := rfl
    cases hfirst.symm.trans hjudged
    exact ⟨_, ref, _, hstep, rfl, rfl, hholds.account_eq, hholds.others⟩

theorem Crowded.account_eq_none {n : ℕ} {s : State} (h : Crowded n s) (scope : Text)
    (hscope : ∀ i < n, scope ≠ crowdScope i) : s.limiter.account scope = none := by
  rw [Limiter.account, Option.map_eq_none_iff, get_eq_none, h.scopes]
  intro hmem
  obtain ⟨i, hi, heq⟩ := List.mem_map.mp hmem
  exact hscope i (List.mem_range.mp hi) heq.symm

theorem Crowded.length_eq {n : ℕ} {s : State} (h : Crowded n s) :
    s.limiter.limiterStates.length = n := by
  have hlength := congrArg List.length h.scopes
  simpa using hlength

theorem Crowded.id_ne {n : ℕ} {s : State} (h : Crowded n s) {id : ℕ} (hid : n ≤ id) :
    ∀ record ∈ s.calls, record.id ≠ id := by
  intro record hrecord heq
  have hmem := List.mem_map_of_mem (f := fun record : CallRecord => record.id) hrecord
  rw [h.ids, List.mem_range] at hmem
  omega

/-- The crowd can be any that the map holds. -/
theorem exists_crowded (n : ℕ) (hpos : 0 < n) (htracked : n ≤ maxTrackedScopes) :
    ∃ s, Crowded n s := by
  induction n with
  | zero => cases hpos
  | succ n ih =>
    rcases Nat.eq_zero_or_pos n with rfl | hpos
    · exact crowded_one
    · obtain ⟨s, h⟩ := ih hpos (by omega)
      have hnew := h.account_eq_none (crowdScope n) fun i hi heq =>
        hi.ne' (crowdScope_injective heq)
      have hroom : s.limiter.limiterStates.length < maxTrackedScopes := by
        rw [h.length_eq]
        omega
      have hvictim : s.limiter.victim (crowdScope n) = none := by simp [victim, hroom]
      obtain ⟨t, ref, evicted, hstep, hcalls, hlimiter, haccount, hothers⟩ :=
        join (accounted_of_reachable h.reachable) (h.id_ne le_rfl) hnew ⟨_, _, h.first, rfl⟩
      have hkept : ∀ i < n, t.limiter.account (crowdScope i) = s.limiter.account (crowdScope i) := by
        intro i hi
        rw [hothers _ fun heq => hi.ne (crowdScope_injective heq), hvictim]
        rfl
      have hadmissions : t.admissions = s.admissions ++ [⟨n, crowd n, .admitted ref, evicted⟩] := by
        rw [State.admissions, hcalls, List.map_append, List.map_cons, List.map_nil,
          toAdmission_opened]
        rfl
      refine ⟨t, h.reachable.next hstep, ?_, ?_, ?_, ?_, ?_, ?_⟩
      · have hget : s.limiter.get (deriveLimiterScope asciiPlatform (crowd n)) = none :=
          Option.map_eq_none_iff.mp hnew
        rw [hlimiter, limiterStates_judge rfl hget hroom, List.map_append,
          h.scopes, List.range_succ, List.map_append]
        rfl
      · rw [hkept 0 hpos, h.first]
      · intro i hi hlt
        rcases (Nat.lt_succ_iff.mp hlt).eq_or_lt with rfl | hlt
        · exact haccount
        · rw [hkept i hlt, h.others i hi hlt]
      · rw [hcalls, List.map_append, h.ids, List.range_succ, List.map_cons, toAdmission_opened]
        rfl
      · intro admission hadmission
        rw [hadmissions] at hadmission
        rcases List.mem_append.mp hadmission with hold | hlast
        · exact h.still admission hold
        · rw [List.mem_singleton.mp hlast]
          exact ⟨rfl, rfl⟩
      · rw [hadmissions, passes_append, h.passed, passes_singleton, Admission.scope]
        have hother : (deriveLimiterScope asciiPlatform (crowd n) == crowdScope 0) = false :=
          beq_false_of_ne fun heq => hpos.ne' (crowdScope_injective heq)
        rw [hother, Bool.and_false]
        rfl

/-- **A window can hold more passes than a policy allows.** The map is full of scopes
that are active but for the first, whose state makes room for one scope more; when
another is idle again, the first comes back to a new state. -/
theorem window_passes_exceeded : ∃ s, Reachable (step asciiPlatform) initial s ∧
    (∀ admission ∈ s.admissions, admission.call.policy = singlePolicy) ∧
    (s.admissions.Pairwise fun earlier later => earlier.call.windowAt ≤ later.call.windowAt) ∧
    singlePolicy.maxRequestsPerWindow <
      countIn singlePolicy.requestWindowMs 0 (passes asciiPlatform (crowdScope 0) s.admissions) := by
  obtain ⟨s, h⟩ := exists_crowded maxTrackedScopes (by decide) le_rfl
  have haccounted := accounted_of_reachable h.reachable
  have hnew := h.account_eq_none (crowdScope maxTrackedScopes) fun i hi heq =>
    hi.ne' (crowdScope_injective heq)
  have hvictim : s.limiter.victim (crowdScope maxTrackedScopes) = some (crowdScope 0) := by
    have hevictable : s.limiter.victim (crowdScope maxTrackedScopes) = s.limiter.evictable := by
      rw [victim, Option.map_eq_none_iff.mp hnew, h.length_eq]
      rfl
    rw [hevictable]
    cases hcase : s.limiter.evictable with
    | none => exact absurd rfl (evictable_eq_none hcase h.first)
    | some evicted =>
      obtain ⟨account, haccount, hzero⟩ := evictable_eq_some haccounted.wellFormed hcase
      by_cases hcrowd : ∃ i < maxTrackedScopes, evicted = crowdScope i
      · obtain ⟨i, hi, rfl⟩ := hcrowd
        rcases Nat.eq_zero_or_pos i with rfl | hpos
        · rfl
        · rw [h.others i hpos hi] at haccount
          cases haccount
          cases hzero
      · rw [h.account_eq_none _ fun i hi heq => hcrowd ⟨i, hi, heq⟩] at haccount
        cases haccount
  -- the last of the crowd comes in the place of the first
  obtain ⟨t, ref, evicted, hstep, hcalls, -, -, hothers⟩ :=
    join haccounted (h.id_ne le_rfl) hnew ⟨_, _, h.first, rfl⟩
  have ht := h.reachable.next hstep
  have hfirst : t.limiter.account (crowdScope 0) = none := by
    rw [hothers _ fun heq => absurd (crowdScope_injective heq) (by decide), if_pos hvictim]
  have hsecond : t.limiter.account (crowdScope 1) = some ⟨1, [0]⟩ := by
    have hone := h.others 1 Nat.one_pos (by decide)
    rw [hothers _ fun heq => absurd (crowdScope_injective heq) (by decide), hvictim, if_neg, hone]
    intro heq
    exact absurd (crowdScope_injective (Option.some_inj.mp heq)) (by decide)
  -- the second finishes
  have hflight := (accounted_of_reachable ht).counted _ _ hsecond
  obtain ⟨record, hrecord, hslot⟩ := List.countP_pos_iff.mp (Nat.lt_of_lt_of_eq Nat.one_pos hflight)
  simp only [Bool.and_eq_true, beq_iff_eq, Option.isSome_iff_exists] at hslot
  obtain ⟨⟨slot, hslot⟩, hscope⟩ := hslot
  have hget := (accounted_of_reachable ht).held record hrecord slot hslot
  rw [hscope] at hget
  obtain ⟨u, hsettle, hlimiter, hadmissions⟩ :=
    (accounted_of_reachable ht).exists_settle hrecord hslot (.error .null) 0
  have hu := ht.next hsettle
  have hwell := (accounted_of_reachable ht).wellFormed
  have hidle : u.limiter.account (crowdScope 1) = some ⟨0, [0]⟩ := by
    rw [hlimiter, releaseConcurrency_account hwell hget hsecond]
    rfl
  have hgone : u.limiter.account (crowdScope 0) = none := by
    rw [hlimiter, releaseConcurrency_other hwell hget, hfirst]
    exact fun heq => absurd (crowdScope_injective heq) (by decide)
  -- the first comes back
  have hids : ∀ record ∈ u.calls, record.id ≠ maxTrackedScopes + 1 := by
    have hsame := congrArg (List.map Admission.id) hadmissions
    rw [List.map_map, List.map_map, hcalls, List.map_append] at hsame
    intro record hrecord hid
    have hmem : maxTrackedScopes + 1 ∈ u.calls.map (Admission.id ∘ CallRecord.toAdmission) :=
      List.mem_map.mpr ⟨record, hrecord, hid⟩
    rw [hsame] at hmem
    rcases List.mem_append.mp hmem with hold | hlast
    · obtain ⟨old, hold, heq⟩ := List.mem_map.mp hold
      exact h.id_ne (Nat.le_succ _) old hold heq
    · simp at hlast
  obtain ⟨v, again, evicted', hback, hcalls', -⟩ :=
    join (accounted_of_reachable hu) hids hgone ⟨_, _, hidle, rfl⟩
  have hall : v.admissions = s.admissions ++ [⟨maxTrackedScopes, crowd maxTrackedScopes,
      .admitted ref, evicted⟩, ⟨maxTrackedScopes + 1, crowd 0, .admitted again, evicted'⟩] := by
    rw [State.admissions, hcalls', List.map_append, hadmissions, hcalls, List.map_append]
    simp [State.admissions]
  have hstill : ∀ admission ∈ v.admissions, admission.call.policy = singlePolicy ∧
      admission.call.windowAt = 0 := by
    intro admission hadmission
    rw [hall] at hadmission
    rcases List.mem_append.mp hadmission with hold | hlast
    · exact h.still admission hold
    · rcases List.mem_cons.mp hlast with rfl | hlast
      · exact ⟨rfl, rfl⟩
      · rw [List.mem_singleton.mp hlast]
        exact ⟨rfl, rfl⟩
  refine ⟨v, hu.next hback, fun a ha => (hstill a ha).1, ?_, ?_⟩
  · refine List.pairwise_of_forall_mem_list fun a ha b hb => ?_
    rw [(hstill a ha).2, (hstill b hb).2]
  · have hother : (deriveLimiterScope asciiPlatform (crowd maxTrackedScopes) == crowdScope 0) = false :=
      beq_false_of_ne fun heq => absurd (crowdScope_injective heq) (by decide)
    have hsecondPass : passes asciiPlatform (crowdScope 0) v.admissions = [0, 0] := by
      rw [hall, ← List.singleton_append, ← List.append_assoc, passes_append, passes_append, h.passed,
        passes_singleton, passes_singleton, Admission.scope, hother, Bool.and_false]
      rfl
    rw [hsecondPass]
    decide

end Churn

end Governor
