import Mathlib.Data.List.Nodup
import SupabaseUserMcp.Governor

/- The limiter as a table of accounts. An account is what a state object holds of
   one scope, and every operation changes the account of its own scope, except
   that admitting a scope to a full table closes the account of another that has
   no call in flight. -/
namespace Governor

open Js ReadTools
open Process.SlidingWindow (recent)

/-! Accounts. -/

structure Account where
  active : ℕ
  requestTimestamps : List ℤ
  deriving DecidableEq, Repr

namespace Account

def fresh : Account := ⟨0, []⟩

/-- The window check, then the concurrency check. -/
def judge (policy : ReadToolGovernancePolicy) (now : ℤ) (account : Account) (ref : ℕ) :
    Account × Decision :=
  let timestamps := recent policy.requestWindowMs now account.requestTimestamps
  if policy.maxRequestsPerWindow ≤ timestamps.length then
    (⟨account.active, timestamps⟩, .windowDenied)
  else if policy.maxConcurrentExecutions ≤ account.active then
    (⟨account.active, timestamps ++ [now]⟩, .concurrencyDenied)
  else (⟨account.active + 1, timestamps ++ [now]⟩, .admitted ref)

def release (account : Account) : Account := { account with active := account.active - 1 }

/-- What a call that passes the window check leaves, with its slot or without. -/
theorem judge_cases {policy : ReadToolGovernancePolicy} {now : ℤ} {account account' : Account}
    {ref : ℕ} {decision : Decision} (h : account.judge policy now ref = (account', decision)) :
    (decision = .windowDenied ∧ account'.active = account.active ∧
        account'.requestTimestamps = recent policy.requestWindowMs now account.requestTimestamps) ∨
      ((recent policy.requestWindowMs now account.requestTimestamps).length <
          policy.maxRequestsPerWindow ∧
        account'.requestTimestamps =
          recent policy.requestWindowMs now account.requestTimestamps ++ [now] ∧
        ((decision = .concurrencyDenied ∧ account'.active = account.active) ∨
          (decision = .admitted ref ∧ account'.active = account.active + 1 ∧
            account.active < policy.maxConcurrentExecutions))) := by
  rw [judge] at h
  split at h
  · cases h
    exact .inl ⟨rfl, rfl, rfl⟩
  · next hwindow =>
    split at h
    · cases h
      exact .inr ⟨by omega, rfl, .inl ⟨rfl, rfl⟩⟩
    · cases h
      exact .inr ⟨by omega, rfl, .inr ⟨rfl, rfl, by omega⟩⟩

end Account

def ReadToolLimiterState.account (state : ReadToolLimiterState) : Account :=
  ⟨state.active, state.requestTimestamps⟩

@[simp] theorem ReadToolLimiterState.account_active (state : ReadToolLimiterState) :
    state.account.active = state.active := rfl

@[simp] theorem ReadToolLimiterState.account_requestTimestamps (state : ReadToolLimiterState) :
    state.account.requestTimestamps = state.requestTimestamps := rfl

namespace Limiter

/-- The account of a scope. -/
def account (l : Limiter) (scope : Text) : Option Account :=
  (l.get scope).map fun ref => (l.deref ref).account

structure WellFormed (l : Limiter) : Prop where
  scopes : (l.limiterStates.map Prod.fst).Nodup
  references : (l.limiterStates.map Prod.snd).Nodup
  bounded : ∀ entry ∈ l.limiterStates, entry.2 < l.states.length
  tracked : l.limiterStates.length ≤ maxTrackedScopes

theorem wellFormed_empty : WellFormed empty := ⟨by simp [empty], by simp [empty], nofun, by decide⟩

@[simp] theorem account_empty (scope : Text) : empty.account scope = none := rfl

/-! The operations on accounts. -/

section Operations

variable {l : Limiter} {scope other : Text} {ref : ℕ}

theorem get_mem (h : l.get scope = some ref) : (scope, ref) ∈ l.limiterStates := by
  obtain ⟨entry, hfind, rfl⟩ := Option.map_eq_some_iff.mp h
  have hscope := List.find?_some hfind
  simp only [beq_iff_eq] at hscope
  rw [← hscope]
  exact List.mem_of_find?_eq_some hfind

theorem get_eq_none : l.get scope = none ↔ scope ∉ l.limiterStates.map Prod.fst := by
  simp only [get, Option.map_eq_none_iff, List.find?_eq_none, beq_iff_eq, List.mem_map, not_exists,
    not_and]

theorem get_of_mem (h : WellFormed l) (hmem : (scope, ref) ∈ l.limiterStates) :
    l.get scope = some ref := by
  cases hget : l.get scope with
  | none => exact absurd (List.mem_map_of_mem hmem) (get_eq_none.mp hget)
  | some other =>
    have hpair := List.inj_on_of_nodup_map h.scopes (get_mem hget) hmem rfl
    rw [(Prod.mk.injEq ..).mp hpair |>.2]

/-- Two scopes have different state objects. -/
theorem get_injective (h : WellFormed l) (hscope : l.get scope = some ref)
    (hother : l.get other = some ref) : scope = other :=
  congrArg Prod.fst (List.inj_on_of_nodup_map h.references (get_mem hscope) (get_mem hother) rfl)

theorem get_lt (h : WellFormed l) (hget : l.get scope = some ref) : ref < l.states.length :=
  h.bounded _ (get_mem hget)

@[simp] theorem get_update (f : ReadToolLimiterState → ReadToolLimiterState) :
    (l.update ref f).get scope = l.get scope := rfl

theorem WellFormed.update (h : WellFormed l) (f : ReadToolLimiterState → ReadToolLimiterState) :
    WellFormed (l.update ref f) := by
  refine ⟨h.scopes, h.references, fun entry hmem => ?_, h.tracked⟩
  rw [Limiter.update, List.length_modify]
  exact h.bounded entry hmem

theorem deref_update_self (f : ReadToolLimiterState → ReadToolLimiterState)
    (hlt : ref < l.states.length) : (l.update ref f).deref ref = f (l.deref ref) := by
  simp [deref, update, List.getD_eq_getElem?_getD, hlt]

theorem deref_update_other {r : ℕ} (f : ReadToolLimiterState → ReadToolLimiterState)
    (hne : r ≠ ref) : (l.update ref f).deref r = l.deref r := by
  simp [deref, update, List.getD_eq_getElem?_getD, hne.symm]

/-- An update changes the account of its scope. -/
theorem account_update_self (h : WellFormed l) (hget : l.get scope = some ref)
    (f : ReadToolLimiterState → ReadToolLimiterState) :
    (l.update ref f).account scope = some (f (l.deref ref)).account := by
  rw [account, get_update, hget, Option.map_some, deref_update_self f (get_lt h hget)]

theorem account_update_other (h : WellFormed l) (hget : l.get scope = some ref)
    (hne : other ≠ scope) (f : ReadToolLimiterState → ReadToolLimiterState) :
    (l.update ref f).account other = l.account other := by
  rw [account, account, get_update]
  cases hother : l.get other with
  | none => rfl
  | some r =>
    rw [Option.map_some, Option.map_some, deref_update_other f]
    rintro rfl
    exact hne (get_injective h hother hget)

theorem get_insert_self (hget : l.get scope = none) (now : ℤ) :
    (l.insert scope now).get scope = some l.states.length := by
  rw [get, Option.map_eq_none_iff] at hget
  rw [get, insert, List.find?_append, hget]
  simp

theorem get_insert_other (hne : other ≠ scope) (now : ℤ) :
    (l.insert scope now).get other = l.get other := by
  rw [get, get, insert, List.find?_append]
  simp [hne.symm]

theorem get_delete_self : (l.delete scope).get scope = none := by
  rw [get_eq_none, delete]
  simp

theorem get_delete_other (hne : other ≠ scope) : (l.delete scope).get other = l.get other := by
  rw [get, get, delete, List.find?_filter]
  congr 2
  funext entry
  by_cases heq : entry.1 = other
  · simp [heq, hne]
  · simp [heq]

theorem deref_insert (now : ℤ) :
    ((l.insert scope now).deref l.states.length).account = .fresh := by
  simp [insert, deref, createDefaultState, ReadToolLimiterState.account, Account.fresh]

theorem account_insert_other (h : WellFormed l) (hne : other ≠ scope) (now : ℤ) :
    (l.insert scope now).account other = l.account other := by
  rw [account, account, get_insert_other hne]
  cases hother : l.get other with
  | none => rfl
  | some r =>
    have hlt := get_lt h hother
    simp [insert, deref, List.getD_eq_getElem?_getD, List.getElem?_append_left hlt]

theorem account_delete_other (hne : other ≠ scope) :
    (l.delete scope).account other = l.account other := by
  rw [account, account, get_delete_other hne]
  rfl

theorem WellFormed.delete (h : WellFormed l) (scope : Text) : WellFormed (l.delete scope) := by
  have hsub : (l.delete scope).limiterStates.Sublist l.limiterStates := List.filter_sublist
  exact ⟨h.scopes.sublist (hsub.map _), h.references.sublist (hsub.map _),
    fun entry hmem => h.bounded entry (hsub.subset hmem), hsub.length_le.trans h.tracked⟩

theorem WellFormed.insert (h : WellFormed l) (hget : l.get scope = none)
    (hroom : l.limiterStates.length < maxTrackedScopes) (now : ℤ) :
    WellFormed (l.insert scope now) := by
  refine ⟨?_, ?_, fun entry hmem => ?_, ?_⟩
  · rw [Limiter.insert, List.map_append]
    exact List.nodup_append.mpr ⟨h.scopes, by simp, by
      intro a ha b hb
      simp only [List.map_cons, List.map_nil, List.mem_singleton] at hb
      rintro rfl
      exact get_eq_none.mp hget (hb ▸ ha)⟩
  · rw [Limiter.insert, List.map_append]
    refine List.nodup_append.mpr ⟨h.references, by simp, ?_⟩
    intro a ha b hb
    simp only [List.map_cons, List.map_nil, List.mem_singleton] at hb
    obtain ⟨entry, hentry, rfl⟩ := List.mem_map.mp ha
    exact hb ▸ (h.bounded entry hentry).ne
  · rw [Limiter.insert, List.length_append]
    rcases List.mem_append.mp hmem with hold | hnew
    · exact (h.bounded entry hold).trans (Nat.lt_succ_self _)
    · obtain rfl := List.mem_singleton.mp hnew
      exact Nat.lt_succ_self _
  · rw [Limiter.insert, List.length_append]
    exact hroom

/-- The scope that is evicted has no call in flight. -/
theorem evictable_eq_some {victim : Text} (h : WellFormed l) (hvictim : l.evictable = some victim) :
    ∃ account, l.account victim = some account ∧ account.active = 0 := by
  obtain ⟨entry, hhead, rfl⟩ := Option.map_eq_some_iff.mp hvictim
  have hmem := List.mem_of_mem_head? hhead
  rw [List.mem_mergeSort, List.mem_filter] at hmem
  refine ⟨(l.deref entry.2).account, ?_, by simpa using hmem.2⟩
  rw [account, get_of_mem h hmem.1, Option.map_some]

theorem evictable_eq_none (h : l.evictable = none) {account : Account}
    (haccount : l.account scope = some account) : account.active ≠ 0 := by
  obtain ⟨ref, hget, rfl⟩ := Option.map_eq_some_iff.mp haccount
  rw [evictable, Option.map_eq_none_iff, List.head?_eq_none_iff, ← List.length_eq_zero_iff,
    List.length_mergeSort, List.length_eq_zero_iff, List.filter_eq_nil_iff] at h
  simpa using h _ (get_mem hget)

theorem victim_eq_some {victim : Text} (h : l.victim scope = some victim) :
    l.get scope = none ∧ maxTrackedScopes ≤ l.limiterStates.length ∧
      l.evictable = some victim := by
  simp only [Limiter.victim, Option.ite_none_right_eq_some, Bool.and_eq_true,
    Option.isNone_iff_eq_none, decide_eq_true_eq] at h
  exact ⟨h.1.1, h.1.2, h.2⟩

theorem length_delete (hget : l.get scope = some ref) :
    (l.delete scope).limiterStates.length < l.limiterStates.length := by
  refine List.length_filter_lt_length_iff_exists.mpr ⟨_, get_mem hget, ?_⟩
  simp

end Operations

/-! A state for a scope. -/

/-- The limiter `l'` has an account for a scope, in place of another's where `l` was full
without one, and is `l` otherwise. -/
structure Holds (l : Limiter) (scope : Text) (l' : Limiter) (ref : ℕ) (account : Account) : Prop where
  wellFormed : WellFormed l'
  get : l'.get scope = some ref
  deref : (l'.deref ref).account = account
  found : ∀ r, l.get scope = some r → r = ref
  others : ∀ other ≠ scope,
    l'.account other = if l.victim scope = some other then none else l.account other
  kept : ∀ other ≠ scope, l.victim scope ≠ some other → l'.get other = l.get other

section Getting

variable {l : Limiter} {scope : Text}

theorem Holds.account_eq {l' : Limiter} {ref : ℕ} {account : Account}
    (h : Holds l scope l' ref account) : l'.account scope = some account := by
  rw [Limiter.account, h.get, Option.map_some, h.deref]

/-- The state of the scope changes and nothing else does. -/
theorem Holds.update {l' : Limiter} {ref : ℕ} {account : Account}
    (h : Holds l scope l' ref account) (f : ReadToolLimiterState → ReadToolLimiterState) :
    Holds l scope (l'.update ref f) ref (f (l'.deref ref)).account where
  wellFormed := h.wellFormed.update f
  get := h.get
  deref := by rw [deref_update_self f (get_lt h.wellFormed h.get)]
  found := h.found
  others other hne := by rw [account_update_other h.wellFormed h.get hne, h.others other hne]
  kept := h.kept

theorem holds_existing (h : WellFormed l) {ref : ℕ} (hget : l.get scope = some ref) :
    Holds l scope l ref ((l.account scope).getD .fresh) := by
  have hvictim : l.victim scope = none := by simp [victim, hget]
  refine ⟨h, hget, ?_, fun r hr => ?_, fun other _ => ?_, fun other _ _ => rfl⟩
  · rw [Limiter.account, hget, Option.map_some, Option.getD_some]
  · exact Option.some_inj.mp (hr.symm.trans hget)
  · rw [hvictim]
    rfl

theorem holds_inserted (h : WellFormed l) (hget : l.get scope = none)
    (hroom : l.limiterStates.length < maxTrackedScopes) (now : ℤ) :
    Holds l scope (l.insert scope now) l.states.length ((l.account scope).getD .fresh) := by
  have hvictim : l.victim scope = none := by simp [victim, hroom]
  refine ⟨h.insert hget hroom now, get_insert_self hget now, ?_, fun r hr => ?_, fun other hne => ?_,
    fun other hne _ => get_insert_other hne now⟩
  · rw [deref_insert, Limiter.account, hget]
    rfl
  · rw [hget] at hr
    cases hr
  · rw [account_insert_other h hne, hvictim]
    rfl

theorem holds_evicting (h : WellFormed l) (hget : l.get scope = none)
    (hfull : maxTrackedScopes ≤ l.limiterStates.length) {evicted : Text}
    (hevictable : l.evictable = some evicted) (now : ℤ) :
    Holds l scope ((l.delete evicted).insert scope now) l.states.length
      ((l.account scope).getD .fresh) := by
  have hvictim : l.victim scope = some evicted := by simp [victim, hget, hfull, hevictable]
  obtain ⟨account, haccount, -⟩ := evictable_eq_some h hevictable
  obtain ⟨ref, hevicted, -⟩ := Option.map_eq_some_iff.mp haccount
  have hroom := (length_delete hevicted).trans_le h.tracked
  have hscope : scope ≠ evicted := by
    rintro rfl
    rw [hget] at hevicted
    cases hevicted
  have hdeleted : (l.delete evicted).get scope = none := by rw [get_delete_other hscope, hget]
  have hwell := h.delete evicted
  refine ⟨hwell.insert hdeleted hroom now, get_insert_self hdeleted now, ?_, fun r hr => ?_,
    fun other hne => ?_, fun other hne hother => ?_⟩
  · rw [show l.states.length = (l.delete evicted).states.length from rfl, deref_insert,
      Limiter.account, hget]
    rfl
  · rw [hget] at hr
    cases hr
  · rw [account_insert_other hwell hne, hvictim]
    by_cases heq : evicted = other
    · subst heq
      rw [if_pos rfl, Limiter.account, get_delete_self]
      rfl
    · rw [if_neg (by simpa using heq), account_delete_other (Ne.symm heq)]
  · rw [hvictim] at hother
    rw [get_insert_other hne, get_delete_other (by rintro rfl; exact hother rfl)]

/-- Either every tracked scope is active, or a state is at hand. -/
theorem getLimiterState_cases (h : WellFormed l) (scope : Text) (now : ℤ) :
    (getLimiterState l scope now = (l, none) ∧ l.get scope = none ∧
        maxTrackedScopes ≤ l.limiterStates.length ∧ l.evictable = none ∧ l.victim scope = none) ∨
      ∃ l' ref, getLimiterState l scope now = (l', some ref) ∧
        Holds l scope l' ref ((l.account scope).getD .fresh) := by
  unfold getLimiterState
  cases hget : l.get scope with
  | some existing =>
    have hholds := (holds_existing h hget).update fun state => { state with lastTouchedAt := now }
    rw [← (holds_existing h hget).deref]
    exact .inr ⟨_, _, rfl, hholds⟩
  | none =>
    by_cases hfull : maxTrackedScopes ≤ l.limiterStates.length
    · rw [if_pos hfull]
      cases hevictable : l.evictable with
      | none => exact .inl ⟨rfl, rfl, hfull, rfl, by rw [victim, hevictable, ite_self]⟩
      | some evicted => exact .inr ⟨_, _, rfl, holds_evicting h hget hfull hevictable now⟩
    · rw [if_neg hfull]
      exact .inr ⟨_, _, rfl, holds_inserted h hget (by omega) now⟩

end Getting

end Limiter

/-! Admission. -/

open Limiter

/-- What admitting a call does, by what is decided of it. -/
inductive Admits (platform : Platform) (l : Limiter) (call : Call) : Limiter → Decision → Prop
  | invalid : (call.tool.descriptor platform).inputSchema call.unsafeInput = none →
      evictedBy platform l call = none → Admits platform l call l .invalid
  | untracked : l.get (deriveLimiterScope platform call) = none →
      maxTrackedScopes ≤ l.limiterStates.length → l.evictable = none →
      evictedBy platform l call = none → Admits platform l call l .untracked
  | judged {l' : Limiter} {ref : ℕ} {account account' : Account} {decision : Decision}
      {input : Value} :
      (call.tool.descriptor platform).inputSchema call.unsafeInput = some input →
      (l.account (deriveLimiterScope platform call)).getD .fresh = account →
      account.judge call.policy (stableNow call.windowAt) ref = (account', decision) →
      evictedBy platform l call = l.victim (deriveLimiterScope platform call) →
      Holds l (deriveLimiterScope platform call) l' ref account' → Admits platform l call l' decision

theorem admits_judge (platform : Platform) {l : Limiter} (h : WellFormed l) (call : Call) :
    Admits platform l call (judge platform l call).1 (judge platform l call).2 := by
  cases hinput : (call.tool.descriptor platform).inputSchema call.unsafeInput with
  | none =>
    have hjudge : judge platform l call = (l, .invalid) := by rw [judge, hinput]
    rw [hjudge]
    exact .invalid hinput (by rw [evictedBy, hinput]; rfl)
  | some input =>
    have hevicted : evictedBy platform l call = l.victim (deriveLimiterScope platform call) := by
      rw [evictedBy, hinput]
      rfl
    obtain ⟨hstate, hget, hfull, hevictable, hvictim⟩ | ⟨l₁, ref, hstate, hholds⟩ :=
      getLimiterState_cases h (deriveLimiterScope platform call) (stableNow call.touchAt)
    · have hjudge : judge platform l call = (l, .untracked) := by simp only [judge, hinput, hstate]
      rw [hjudge]
      exact .untracked hget hfull hevictable (hevicted.trans hvictim)
    · have hactive : (l₁.deref ref).active =
          ((l.account (deriveLimiterScope platform call)).getD .fresh).active := by
        rw [← hholds.deref]
        rfl
      have hlog : (l₁.deref ref).requestTimestamps =
          ((l.account (deriveLimiterScope platform call)).getD .fresh).requestTimestamps := by
        rw [← hholds.deref]
        rfl
      have hlt := get_lt hholds.wellFormed hholds.get
      simp only [judge, hinput, hstate, enforceWindow]
      by_cases hwindow : call.policy.maxRequestsPerWindow ≤ (recent call.policy.requestWindowMs
          (stableNow call.windowAt) (l₁.deref ref).requestTimestamps).length
      · simp only [if_pos hwindow]
        refine .judged hinput rfl ?_ hevicted (hholds.update _)
        simp [Account.judge, ← hlog, ← hactive, hwindow, ReadToolLimiterState.account]
      · simp only [if_neg hwindow, deref_update_self _ hlt]
        by_cases hslots : call.policy.maxConcurrentExecutions ≤ (l₁.deref ref).active
        · simp only [if_pos hslots]
          refine .judged hinput rfl ?_ hevicted (hholds.update _)
          simp [Account.judge, ← hlog, ← hactive, hwindow, hslots, ReadToolLimiterState.account]
        · simp only [if_neg hslots]
          refine .judged hinput rfl ?_ hevicted ((hholds.update _).update _)
          simp [Account.judge, ← hlog, ← hactive, hwindow, hslots, ReadToolLimiterState.account,
            deref_update_self _ hlt]

/-- The scope that is evicted was idle, and is not the scope of the call. -/
theorem evictedBy_eq_some {platform : Platform} {l : Limiter} (h : WellFormed l) {call : Call}
    {evicted : Text} (hevicted : evictedBy platform l call = some evicted) :
    l.get (deriveLimiterScope platform call) = none ∧
      maxTrackedScopes ≤ l.limiterStates.length ∧
      ∃ account, l.account evicted = some account ∧ account.active = 0 := by
  rw [evictedBy, Option.ite_none_right_eq_some] at hevicted
  obtain ⟨hget, hfull, hevictable⟩ := victim_eq_some hevicted.2
  exact ⟨hget, hfull, evictable_eq_some h hevictable⟩

/-! Release. -/

theorem releaseConcurrency_account {l : Limiter} {scope : Text} {ref : ℕ} {account : Account}
    (h : WellFormed l) (hget : l.get scope = some ref) (haccount : l.account scope = some account) :
    (releaseConcurrency l ref).account scope = some account.release := by
  rw [Limiter.account, hget, Option.map_some, Option.some_inj] at haccount
  rw [releaseConcurrency, account_update_self h hget, ← haccount]
  by_cases hactive : 0 < (l.deref ref).active
  · rw [if_pos hactive]
    rfl
  · have hzero : (l.deref ref).active = 0 := by omega
    rw [if_neg hactive]
    simp [Account.release, ReadToolLimiterState.account, hzero]

theorem releaseConcurrency_other {l : Limiter} {scope other : Text} {ref : ℕ} (h : WellFormed l)
    (hget : l.get scope = some ref) (hne : other ≠ scope) :
    (releaseConcurrency l ref).account other = l.account other := by
  rw [releaseConcurrency, account_update_other h hget hne]

end Governor
