import SupabaseUserMcp.PolicyLab

/- What the authorization queries ask. `Entitled` says it once, over whichever rows are
   given: a verified principal, an active client, an active membership of the two in the
   workspace and an active grant. The queries of the function and of the two policies are
   this relation, and no policy hides a row the relation could use. -/
namespace PolicyLab

open Sql

/-- Active now. -/
def Active (s : Session) (state : State) (validUntil : Timestamp) : Prop :=
  state = .active ∧ s.now < validUntil

@[simp] theorem holds_isActive {s : Session} {state : State} {validUntil : Timestamp} :
    (isActive s state validUntil).Holds ↔ Active s state validUntil := by
  simp [isActive, Active, eq_comm]

/-- The caller may do something in a workspace. -/
structure Entitled (r : Relations) (s : Session) (uid : Uuid) (client : Text)
    (capability : Capability) (workspace : Text) : Prop where
  subject : s.uid = some uid
  claim : s.clientClaim = some client
  verified : ∃ p ∈ r.principals, p.principalId = uid ∧ p.identityEligibility = .verified
  approved : ∃ c ∈ r.clients, c.clientId = client ∧ Active s c.state c.validUntil
  member : ∃ m ∈ r.memberships, m.principalId = uid ∧ m.clientId = client ∧
    m.workspaceId = workspace ∧ Active s m.state m.validUntil
  granted : ∃ g ∈ r.capabilityGrants, g.principalId = uid ∧ g.clientId = client ∧
    g.workspaceId = workspace ∧ g.capability = capability ∧ Active s g.state g.validUntil

variable {t : Tables} {r : Relations} {s : Session}

theorem holds_activeContext {capability : Capability} {workspace : Text} :
    (activeContext r s capability workspace).Holds ↔
      ∃ uid client, Entitled r s uid client capability workspace := by
  simp only [activeContext, holds_existsIn, Prod.exists, mem_join, Truth.holds_and, holds_isActive,
    holds_eq, Option.some.injEq]
  constructor
  · intro h
    obtain ⟨p, c, m, g, ⟨⟨⟨hp, hc, hclaim⟩, hm, ⟨hmp, hmc⟩, hmw⟩, hg, ⟨⟨hgp, hgc⟩, hgw⟩, hgk⟩,
      ⟨⟨⟨huid, hverified⟩, hcactive⟩, hmactive⟩, hgactive⟩ := h
    refine ⟨p.principalId, c.clientId, huid, hclaim, ⟨p, hp, rfl, hverified.symm⟩,
      ⟨c, hc, rfl, hcactive⟩, ⟨m, hm, hmp.symm, hmc.symm, hmw.symm, hmactive⟩,
      ⟨g, hg, hgp.symm, hgc.symm, ?_, hgk.symm, hgactive⟩⟩
    rw [hmw, hgw]
  · intro h
    obtain ⟨uid, client, huid, hclaim, ⟨p, hp, rfl, hverified⟩, ⟨c, hc, rfl, hcactive⟩,
      ⟨m, hm, hmp, hmc, hmw, hmactive⟩, ⟨g, hg, hgp, hgc, hgw, hgk, hgactive⟩⟩ := h
    refine ⟨p, c, m, g, ⟨⟨⟨hp, hc, hclaim⟩, hm, ⟨hmp.symm, hmc.symm⟩, hmw.symm⟩, hg,
      ⟨⟨hgp.symm, hgc.symm⟩, ?_⟩, hgk.symm⟩, ⟨⟨⟨huid, hverified.symm⟩, hcactive⟩, hmactive⟩,
      hgactive⟩
    rw [hmw, hgw]

theorem holds_auditContext {e : AuditEvent} (huid : s.uid = some e.principalId)
    (hclaim : s.clientClaim = some e.clientId) :
    (auditContext r s e).Holds ↔
      ∃ uid client, Entitled r s uid client .read e.workspaceId := by
  simp only [auditContext, holds_existsIn, Prod.exists, mem_join, Truth.holds_and, holds_isActive,
    holds_eq, Option.some.injEq]
  constructor
  · intro h
    obtain ⟨p, c, m, g, ⟨⟨⟨hp, hc, hce⟩, hm, ⟨hmp, hmc⟩, hmw⟩, hg, ⟨⟨hgp, hgc⟩, hgw⟩, hgk⟩,
      ⟨⟨⟨hpe, hverified⟩, hcactive⟩, hmactive⟩, hgactive⟩ := h
    refine ⟨e.principalId, e.clientId, huid, hclaim, ⟨p, hp, hpe.symm, hverified.symm⟩,
      ⟨c, hc, hce.symm, hcactive⟩, ⟨m, hm, hmp.symm, hmc.symm, hmw.symm, hmactive⟩,
      ⟨g, hg, ?_, ?_, ?_, hgk.symm, hgactive⟩⟩
    · rw [hmp, hgp]
    · rw [hmc, hgc]
    · rw [hmw, hgw]
  · intro h
    obtain ⟨uid, client, hsubject, hclient, ⟨p, hp, hpe, hverified⟩, ⟨c, hc, hce, hcactive⟩,
      ⟨m, hm, hmp, hmc, hmw, hmactive⟩, ⟨g, hg, hgp, hgc, hgw, hgk, hgactive⟩⟩ := h
    obtain rfl : e.principalId = uid := Option.some.inj (huid.symm.trans hsubject)
    obtain rfl : e.clientId = client := Option.some.inj (hclaim.symm.trans hclient)
    refine ⟨p, c, m, g, ⟨⟨⟨hp, hc, hce.symm⟩, hm, ⟨hmp.symm, hmc.symm⟩, hmw.symm⟩, hg,
      ⟨⟨?_, ?_⟩, ?_⟩, hgk.symm⟩, ⟨⟨⟨hpe.symm, hverified.symm⟩, hcactive⟩, hmactive⟩, hgactive⟩
    · rw [hmp, hgp]
    · rw [hmc, hgc]
    · rw [hmw, hgw]

/-! ## Row-level security -/

/-- No policy of the four tables hides a row that entitles its caller. -/
theorem entitled_secured {uid : Uuid} {client : Text} {capability : Capability}
    {workspace : Text} : Entitled (t.secured s) s uid client capability workspace ↔
      Entitled t.unfiltered s uid client capability workspace := by
  constructor
  · intro ⟨huid, hclaim, ⟨p, hp, hpf⟩, ⟨c, hc, hcf⟩, ⟨m, hm, hmf⟩, ⟨g, hg, hgf⟩⟩
    exact ⟨huid, hclaim, ⟨p, (mem_visible.mp hp).1, hpf⟩, ⟨c, (mem_visible.mp hc).1, hcf⟩,
      ⟨m, (mem_visible.mp hm).1, hmf⟩, ⟨g, (mem_visible.mp hg).1, hgf⟩⟩
  · intro ⟨huid, hclaim, ⟨p, hp, hpf⟩, ⟨c, hc, hcf⟩, ⟨m, hm, hmf⟩, ⟨g, hg, hgf⟩⟩
    have hp' : (principalIsVerifiedSubject s p).Holds := by
      simp [principalIsVerifiedSubject, huid, hpf]
    have hc' : (clientIsActiveClaim s c).Holds := by simp [clientIsActiveClaim, hclaim, hcf]
    have hm' : (membershipIsActiveContext s m).Holds := by
      simp [membershipIsActiveContext, huid, hclaim, hmf]
    have hg' : (grantIsActiveContext s g).Holds := by
      -- the grant policy names both capabilities there are
      have hcapability : capability = .search ∨ capability = .read := by
        cases capability <;> simp
      simp [grantIsActiveContext, huid, hclaim, hgf, hcapability]
    exact ⟨huid, hclaim, ⟨p, mem_visible.mpr ⟨hp, hp'⟩, hpf⟩, ⟨c, mem_visible.mpr ⟨hc, hc'⟩, hcf⟩,
      ⟨m, mem_visible.mpr ⟨hm, hm'⟩, hmf⟩, ⟨g, mem_visible.mpr ⟨hg, hg'⟩, hgf⟩⟩

theorem activeContext_secured (capability : Capability) (workspace : Text) :
    activeContext (t.secured s) s capability workspace =
      activeContext t.unfiltered s capability workspace := by
  apply Truth.eq_of_holds existsIn_ne_none existsIn_ne_none
  apply holds_activeContext.trans
  apply Iff.trans ?_ holds_activeContext.symm
  simp only [entitled_secured]

/-- The caller's own audit events: those of workspaces it may read. -/
theorem mem_visibleAuditEvents {e : AuditEvent} : e ∈ t.visibleAuditEvents s ↔
    e ∈ t.auditEvents ∧ s.uid = some e.principalId ∧ s.clientClaim = some e.clientId ∧
      (activeContext t.unfiltered s .read e.workspaceId).Holds := by
  simp only [Tables.visibleAuditEvents, auditEventCurrentPrincipalRead, mem_visible,
    Truth.holds_and, holds_eq, and_assoc]
  refine and_congr_right fun _ => and_congr_right fun huid => and_congr_right fun hclaim => ?_
  rw [holds_auditContext huid hclaim, holds_activeContext]
  simp only [entitled_secured]

theorem mem_visibleMemories {m : Memory} : m ∈ t.visibleMemories s ↔
    m ∈ t.memories ∧ (hasActiveCapability t s .read m.workspaceId).Holds := mem_visible

end PolicyLab
