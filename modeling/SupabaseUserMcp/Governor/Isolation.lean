import Mathlib.Data.Finset.Card
import SupabaseUserMcp.Governor.Accounting

/- What one scope sees of the limiter. With room in the map for every scope of a
   run, a scope's account moves on its own calls alone, so that two runs with the
   same calls of a scope decide them alike, whatever others do. -/
namespace Governor

open Js ReadTools Limiter
open Process (execute execute_cons Reachable view_execute)

/-- A decision without the slot. -/
inductive Judgement where
  | invalid
  | untracked
  | windowDenied
  | concurrencyDenied
  | admitted
  deriving DecidableEq, Repr

def Decision.judgement : Decision → Judgement
  | .invalid => .invalid
  | .untracked => .untracked
  | .windowDenied => .windowDenied
  | .concurrencyDenied => .concurrencyDenied
  | .admitted _ => .admitted

/-- What was decided of the calls of a scope, in their order. -/
def decisions (platform : Platform) (scope : Text) (s : State) : List (ℕ × Judgement) :=
  (s.admissions.filter fun admission => admission.scope platform == scope).map fun admission =>
    (admission.id, admission.decision.judgement)

/-! The calls of a run and those of a scope. -/

def Label.id : Label → ℕ
  | .invoke id _ | .timer id | .abort id | .settle id _ _ => id

/-- The scopes that calls of a run belong to. -/
def scopesOf (platform : Platform) (labels : List Label) : List Text :=
  labels.filterMap fun
    | .invoke _ call => some (deriveLimiterScope platform call)
    | _ => none

/-- The calls of a scope. -/
def ownIds (platform : Platform) (scope : Text) (labels : List Label) : List ℕ :=
  labels.filterMap fun
    | .invoke id call => if deriveLimiterScope platform call = scope then some id else none
    | _ => none

/-- What happens to the calls of a scope. -/
def projection (platform : Platform) (scope : Text) (labels : List Label) : List Label :=
  labels.filter fun label => label.id ∈ ownIds platform scope labels

/-! The limiter of one scope. -/

structure View where
  account : Account
  decisions : List (ℕ × Judgement)

def View.step (platform : Platform) (view : View) : Label → View
  | .invoke id call =>
    match (call.tool.descriptor platform).inputSchema call.unsafeInput with
    | none => { view with decisions := view.decisions ++ [(id, .invalid)] }
    | some _ =>
      let (account, decision) := view.account.judge call.policy (stableNow call.windowAt) 0
      ⟨account, view.decisions ++ [(id, decision.judgement)]⟩
  | .timer _ | .abort _ => view
  | .settle _ _ _ => { view with account := view.account.release }

/-- A state as a scope sees it. -/
def State.view (platform : Platform) (scope : Text) (s : State) : View :=
  ⟨(s.limiter.account scope).getD .fresh, decisions platform scope s⟩

section Views

variable {platform : Platform} {scope : Text} {s t : State} {label : Label}

theorem decisions_append (platform : Platform) (scope : Text) {more : List Admission}
    (h : t.admissions = s.admissions ++ more) :
    decisions platform scope t = decisions platform scope s ++
      (more.filter fun admission => admission.scope platform == scope).map fun admission =>
        (admission.id, admission.decision.judgement) := by
  rw [decisions, h, List.filter_append, List.map_append]
  rfl

/-- Where the slot is does not matter to a judgement. -/
theorem Account.judge_judgement (policy : ReadToolGovernancePolicy) (now : ℤ) (account : Account)
    (ref r : ℕ) : (account.judge policy now ref).1 = (account.judge policy now r).1 ∧
      (account.judge policy now ref).2.judgement = (account.judge policy now r).2.judgement := by
  unfold Account.judge
  dsimp only
  split
  · exact ⟨rfl, rfl⟩
  · split
    · exact ⟨rfl, rfl⟩
    · exact ⟨rfl, rfl⟩

/-- The scopes of a run have room in the map. -/
structure Roomy (platform : Platform) (scopes : Finset Text) (s : State) : Prop where
  accounted : Accounted platform s
  room : scopes.card ≤ maxTrackedScopes
  tracked : ∀ scope, s.limiter.get scope ≠ none → scope ∈ scopes

/-- A scope of the run that is not in the map finds it below its bound. -/
theorem Roomy.length_lt {scopes : Finset Text} (h : Roomy platform scopes s) {other : Text}
    (hmem : other ∈ scopes) (hget : s.limiter.get other = none) :
    s.limiter.limiterStates.length < maxTrackedScopes := by
  have hnodup := h.accounted.wellFormed.scopes
  have hsubset : (s.limiter.limiterStates.map Prod.fst).toFinset ⊆ scopes.erase other := by
    intro tracked htracked
    rw [List.mem_toFinset] at htracked
    have hsome : s.limiter.get tracked ≠ none := fun hnone => get_eq_none.mp hnone htracked
    refine Finset.mem_erase.mpr ⟨?_, h.tracked tracked hsome⟩
    rintro rfl
    exact hsome hget
  have hcard := Finset.card_le_card hsubset
  rw [List.toFinset_card_of_nodup hnodup, List.length_map, Finset.card_erase_of_mem hmem] at hcard
  have hpos := Finset.card_pos.mpr ⟨other, hmem⟩
  have hroom := h.room
  omega

theorem Roomy.victim_eq_none {scopes : Finset Text} (h : Roomy platform scopes s) {other : Text}
    (hmem : other ∈ scopes) : s.limiter.victim other = none := by
  rw [victim]
  split
  · next hfull =>
    simp only [Bool.and_eq_true, Option.isNone_iff_eq_none, decide_eq_true_eq] at hfull
    exact absurd (h.length_lt hmem hfull.1) (Nat.not_lt.mpr hfull.2)
  · rfl

theorem account_ne_none {l : Limiter} {other : Text} : l.account other ≠ none ↔ l.get other ≠ none :=
  not_congr Option.map_eq_none_iff

/-- Admission brings at most the scope of the call into the map. -/
theorem Admits.tracked {l l' : Limiter} {call : Call} {decision : Decision}
    (h : Admits platform l call l' decision) {other : Text} (hget : l'.get other ≠ none) :
    l.get other ≠ none ∨ other = deriveLimiterScope platform call := by
  cases h with
  | invalid | untracked => exact .inl hget
  | judged _ _ _ _ hholds =>
    by_cases heq : other = deriveLimiterScope platform call
    · exact .inr heq
    · rw [← account_ne_none, hholds.others other heq] at hget
      split at hget
      · exact absurd rfl hget
      · exact .inl (account_ne_none.mp hget)

theorem Roomy.step {scopes : Finset Text} (h : Roomy platform scopes s)
    (hlabel : ∀ id call, label = .invoke id call → deriveLimiterScope platform call ∈ scopes)
    (hstep : step platform s label = some t) : Roomy platform scopes t := by
  refine ⟨accounted_step h.accounted hstep, h.room, fun other hget => ?_⟩
  cases steps_of_step hstep with
  | @invoke id call _ =>
    rcases (admits_judge platform h.accounted.wellFormed call).tracked hget with hold | rfl
    · exact h.tracked other hold
    · exact hlabel id call rfl
  | timer => exact h.tracked other hget
  | abort => exact h.tracked other hget
  | settle => exact h.tracked other hget

/-- An invocation moves the view of its scope. -/
theorem Roomy.view_invoke {scopes : Finset Text} (h : Roomy platform scopes s) {id : ℕ} {call : Call}
    (hmem : deriveLimiterScope platform call ∈ scopes)
    (hstep : Governor.step platform s (.invoke id call) = some t) :
    t.view platform scope = if deriveLimiterScope platform call = scope then
      (s.view platform scope).step platform (.invoke id call) else s.view platform scope := by
  have hdecisions := decisions_append platform scope (admissions_step hstep)
  have hadmits := admits_judge platform h.accounted.wellFormed call
  have hlimiter : t.limiter = (judge platform s.limiter call).1 := by
    cases steps_of_step hstep
    rfl
  rw [State.view, hdecisions, admitted, hlimiter]
  clear hlimiter hdecisions
  generalize (judge platform s.limiter call).2 = decision at hadmits ⊢
  generalize (judge platform s.limiter call).1 = l at hadmits ⊢
  by_cases hscope : deriveLimiterScope platform call = scope
  · subst hscope
    rw [if_pos rfl, List.filter_singleton, Admission.scope, beq_self_eq_true, cond_true]
    cases hadmits with
    | invalid hinput => simp only [View.step, State.view, hinput]; rfl
    | untracked hget hfull => exact absurd (h.length_lt hmem hget) (Nat.not_lt.mpr hfull)
    | @judged _ ref account account' _ _ hinput hprior hjudge _ hholds =>
      have hsame := account.judge_judgement call.policy (stableNow call.windowAt) ref 0
      rw [hjudge] at hsame
      simp only [View.step, State.view, hinput, hprior, hholds.account_eq, Option.getD_some]
      rw [← hsame.1, ← hsame.2]
      rfl
  · rw [if_neg hscope, List.filter_singleton, Admission.scope, beq_false_of_ne hscope, cond_false,
      List.map_nil, List.append_nil, State.view]
    cases hadmits with
    | invalid | untracked => rfl
    | judged _ _ _ hevicted hholds =>
      rw [hholds.others scope (Ne.symm hscope), h.victim_eq_none hmem,
        if_neg (Option.some_ne_none scope).symm]

/-- The end of an execution moves the view of its scope. -/
theorem Accounted.view_settle (h : Accounted platform s) {id : ℕ} {result : Except Value Value}
    {now : ℚ} (hstep : step platform s (.settle id result now) = some t) {own : Bool}
    (hown : ∀ admission ∈ s.admissions, admission.id = id →
      (own = true ↔ admission.scope platform = scope)) :
    t.view platform scope = if own then
      (s.view platform scope).step platform (.settle id result now) else s.view platform scope := by
  have hdecisions := decisions_append platform scope (admissions_step hstep)
  cases steps_of_step hstep with
  | @settle _ _ _ before after record aborted ref hcalls hid hslot _ =>
    have hrecord : record ∈ s.calls := by
      rw [hcalls]
      exact List.mem_append_right _ List.mem_cons_self
    have hget := h.held record hrecord ref hslot
    have howns := hown record.toAdmission (List.mem_map_of_mem hrecord) hid
    rw [State.view, hdecisions, admitted, List.filter_nil, List.map_nil, List.append_nil]
    by_cases hscope : record.scope platform = scope
    · subst hscope
      obtain ⟨account, haccount⟩ : ∃ account, s.limiter.account (record.scope platform) = some account := by
        rw [Limiter.account, hget]
        exact ⟨_, rfl⟩
      rw [if_pos (howns.mpr rfl), releaseConcurrency_account h.wellFormed hget haccount, View.step,
        State.view, haccount]
      rfl
    · rw [if_neg fun htrue => hscope (howns.mp htrue),
        releaseConcurrency_other h.wellFormed hget (Ne.symm hscope), State.view]

/-- The calls made so far that are a scope's are those with an id of its. -/
structure Owned (platform : Platform) (scopes : Finset Text) (scope : Text) (own : Label → Bool)
    (s : State) : Prop where
  roomy : Roomy platform scopes s
  owned : ∀ admission ∈ s.admissions, ∀ label : Label, label.id = admission.id →
    (own label = true ↔ admission.scope platform = scope)

/-- A label that invokes only calls of the scopes of a run, under ids of their scope. -/
def Sorted (platform : Platform) (scopes : Finset Text) (scope : Text) (own : Label → Bool)
    (label : Label) : Prop :=
  ∀ id call, label = .invoke id call → deriveLimiterScope platform call ∈ scopes ∧
    ∀ other : Label, other.id = id → (own other = true ↔ deriveLimiterScope platform call = scope)

theorem Owned.step {scopes : Finset Text} {own : Label → Bool}
    (h : Owned platform scopes scope own s) (hlabel : Sorted platform scopes scope own label)
    (hstep : Governor.step platform s label = some t) :
    Owned platform scopes scope own t ∧ t.view platform scope =
      if own label then (s.view platform scope).step platform label else s.view platform scope := by
  refine ⟨⟨h.roomy.step (fun id call heq => (hlabel id call heq).1) hstep, ?_⟩, ?_⟩
  · intro admission hadmission
    rw [admissions_step hstep] at hadmission
    rcases List.mem_append.mp hadmission with hold | hnew
    · exact h.owned admission hold
    · cases label with
      | invoke id call =>
        rw [List.mem_singleton.mp hnew]
        exact (hlabel id call rfl).2
      | timer | abort | settle => cases hnew
  · cases label with
    | invoke id call =>
      obtain ⟨hmem, howns⟩ := hlabel id call rfl
      rw [h.roomy.view_invoke hmem hstep]
      exact if_congr (howns _ rfl).symm rfl rfl
    | timer | abort =>
      have hsame : t.view platform scope = s.view platform scope := by
        rw [State.view, decisions, admissions_step hstep, admitted, List.append_nil]
        cases steps_of_step hstep
        rfl
      rw [hsame]
      exact (ite_self _).symm
    | settle id result now =>
      exact h.roomy.accounted.view_settle hstep fun admission hmem hid =>
        h.owned admission hmem _ hid.symm

theorem mem_scopesOf {labels : List Label} {id : ℕ} {call : Call}
    (h : Label.invoke id call ∈ labels) : deriveLimiterScope platform call ∈ scopesOf platform labels :=
  List.mem_filterMap.mpr ⟨_, h, rfl⟩

theorem mem_ownIds {labels : List Label} {id : ℕ} :
    id ∈ ownIds platform scope labels ↔
      ∃ call, .invoke id call ∈ labels ∧ deriveLimiterScope platform call = scope := by
  rw [ownIds, List.mem_filterMap]
  constructor
  · rintro ⟨label, hlabel, hid⟩
    cases label with
    | invoke other call =>
      simp only [Option.ite_none_right_eq_some, Option.some_inj] at hid
      obtain ⟨hscope, rfl⟩ := hid
      exact ⟨call, hlabel, hscope⟩
    | timer | abort | settle => cases hid
  · rintro ⟨call, hlabel, hscope⟩
    exact ⟨_, hlabel, if_pos hscope⟩

/-- Every call of a run is among the admissions at its end. -/
theorem mem_admissions {labels : List Label} (h : execute (step platform) s labels = some t)
    {id : ℕ} {call : Call} (hinvoke : .invoke id call ∈ labels) :
    ∃ admission ∈ t.admissions, admission.id = id ∧ admission.call = call := by
  have hgrows : ∀ (rest : List Label) (u v : State), execute (step platform) u rest = some v →
      ∀ admission ∈ u.admissions, admission ∈ v.admissions := by
    intro rest u v hrest admission hmem
    refine Process.invariant_execute (I := fun s => admission ∈ s.admissions) ?_ hmem hrest
    intro a label b ha hstep
    rw [admissions_step hstep]
    exact List.mem_append_left _ ha
  induction labels generalizing s with
  | nil => cases hinvoke
  | cons label rest ih =>
    obtain ⟨u, hstep, hrest⟩ := execute_cons.mp h
    rcases List.mem_cons.mp hinvoke with rfl | hinvoke
    · refine ⟨⟨id, call, (judge platform s.limiter call).2, evictedBy platform s.limiter call⟩,
        hgrows rest u t hrest _ ?_, rfl, rfl⟩
      rw [admissions_step hstep]
      exact List.mem_append_right _ List.mem_cons_self
    · exact ih hrest hinvoke

/-- No two calls of a run go by one id. -/
theorem invoke_unique {labels : List Label} (h : execute (step platform) initial labels = some s)
    {id : ℕ} {call other : Call} (hcall : .invoke id call ∈ labels)
    (hother : .invoke id other ∈ labels) : call = other := by
  obtain ⟨a, ha, hid, rfl⟩ := mem_admissions h hcall
  obtain ⟨b, hb, hid', rfl⟩ := mem_admissions h hother
  have hids := (accounted_of_reachable ⟨labels, h⟩).ids
  have hnodup : (s.admissions.map Admission.id).Nodup := by
    rw [State.admissions, List.map_map]
    exact hids
  rw [List.inj_on_of_nodup_map hnodup ha hb (hid.trans hid'.symm)]

/-- A scope sees of a run what its own calls make of it. -/
theorem view_of_execute (scope : Text) {labels : List Label} (h : execute (step platform) initial labels = some s)
    (hscopes : (scopesOf platform labels).toFinset.card ≤ maxTrackedScopes) :
    s.view platform scope =
      (projection platform scope labels).foldl (View.step platform) ⟨.fresh, []⟩ := by
  refine view_execute (I := Owned platform (scopesOf platform labels).toFinset scope
    (fun label => label.id ∈ ownIds platform scope labels))
    (fun hs hlabel hstep => hs.step hlabel hstep) ⟨⟨accounted_initial, hscopes, ?_⟩, ?_⟩ ?_ h
  · exact fun other hget => absurd rfl hget
  · exact fun admission hadmission => absurd hadmission List.not_mem_nil
  · rintro label hlabel id call rfl
    refine ⟨List.mem_toFinset.mpr (mem_scopesOf hlabel), fun other hid => ?_⟩
    rw [decide_eq_true_eq, hid, mem_ownIds]
    constructor
    · rintro ⟨same, hsame, hscope⟩
      rw [invoke_unique h hlabel hsame, hscope]
    · intro hscope
      exact ⟨call, hlabel, hscope⟩

/-- **A scope's decisions are its own affair.** Two runs in which the same happens to the
calls of a scope, with no more scopes than the map holds, decide its calls alike. -/
theorem decisions_isolated (scope : Text) {labels labels' : List Label} {s' : State}
    (h : execute (step platform) initial labels = some s)
    (h' : execute (step platform) initial labels' = some s')
    (hscopes : (scopesOf platform labels).toFinset.card ≤ 1024)
    (hscopes' : (scopesOf platform labels').toFinset.card ≤ 1024)
    (hsame : projection platform scope labels = projection platform scope labels') :
    decisions platform scope s = decisions platform scope s' := by
  have hview := view_of_execute scope h hscopes
  rw [hsame, ← view_of_execute scope h' hscopes'] at hview
  exact congrArg View.decisions hview

end Views

/-- Two calls of a principal. -/
def alone : List Label :=
  [.invoke 0 (capabilitiesCall defaultRateLimit (text "a") 0),
    .invoke 1 (capabilitiesCall defaultRateLimit (text "a") 0)]

/-- The two calls and another principal's. -/
def interleaved : List Label :=
  [.invoke 7 (capabilitiesCall defaultRateLimit (text "b") 0),
    .invoke 0 (capabilitiesCall defaultRateLimit (text "a") 0), .abort 7,
    .invoke 1 (capabilitiesCall defaultRateLimit (text "a") 0)]

theorem decisions_isolated_interleaved : ∃ s s',
    execute (step asciiPlatform) initial alone = some s ∧
    execute (step asciiPlatform) initial interleaved = some s' ∧
    decisions asciiPlatform (text "principal:a") s = decisions asciiPlatform (text "principal:a") s' := by
  obtain ⟨s, hs⟩ : ∃ s, execute (step asciiPlatform) initial alone = some s := ⟨_, rfl⟩
  obtain ⟨s', hs'⟩ : ∃ s, execute (step asciiPlatform) initial interleaved = some s := ⟨_, rfl⟩
  exact ⟨s, s', hs, hs',
    decisions_isolated (text "principal:a") hs hs' (by decide) (by decide) rfl⟩

end Governor
