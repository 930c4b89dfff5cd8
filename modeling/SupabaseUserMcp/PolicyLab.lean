import Mathlib.Data.Int.Notation
import SupabaseUserMcp.Sql.Jsonb
import SupabaseUserMcp.Sql.Query

/- The policy lab schema: who a caller is, which client speaks for it, and what the two
   may do in a workspace. Five tables decide it, each read through its own policy; a
   policy's subqueries are reads too, and see the other tables through theirs. -/
namespace PolicyLab

open Sql

abbrev Uuid := BitVec 128

/-- A `timestamptz`, in microseconds. -/
abbrev Timestamp := ℤ

inductive Eligibility where
  | verified
  | denied
deriving DecidableEq

inductive State where
  | active
  | expired
  | revoked
deriving DecidableEq

/-- `memory:search` and `memory:read`. -/
inductive Capability where
  | search
  | read
deriving DecidableEq

structure Principal where
  principalId : Uuid
  identityEligibility : Eligibility

structure Client where
  clientId : Text
  state : State
  validUntil : Timestamp

structure Membership where
  principalId : Uuid
  clientId : Text
  workspaceId : Text
  state : State
  validUntil : Timestamp

structure CapabilityGrant where
  principalId : Uuid
  clientId : Text
  workspaceId : Text
  capability : Capability
  state : State
  validUntil : Timestamp

structure Memory where
  memoryId : Text
  workspaceId : Text
  title : Text
  content : Text
  createdAt : Timestamp
  provenanceSummary : Text
  tags : List (Option Text)
deriving DecidableEq

structure AuditEvent where
  principalId : Uuid
  clientId : Text
  workspaceId : Text

structure Tables where
  principals : List Principal
  clients : List Client
  memberships : List Membership
  capabilityGrants : List CapabilityGrant
  memories : List Memory
  auditEvents : List AuditEvent
  -- the primary key of `memories`
  memoryId_nodup : (memories.map Memory.memoryId).Nodup

/-- What a statement sees of its caller: `auth.uid()`, `auth.jwt()` and `now()`. -/
structure Session where
  uid : Option Uuid
  jwt : Option Jsonb
  now : Timestamp

/-- `auth.jwt() -> 'app_metadata' ->> 'client_id'`. -/
def Session.clientClaim (s : Session) : Option Text :=
  (s.jwt.bind fun jwt => jwt.get "app_metadata").bind fun json => json.getText "client_id"

/-- `state = 'active' and valid_until > now()`. -/
def isActive (s : Session) (state : State) (validUntil : Timestamp) : Truth :=
  (eq (some state) (some .active)).and (gt (some validUntil) (some s.now))

/-! ## Policies of the tables that decide -/

def principalIsVerifiedSubject (s : Session) (p : Principal) : Truth :=
  (eq (some p.principalId) s.uid).and (eq (some p.identityEligibility) (some .verified))

def clientIsActiveClaim (s : Session) (c : Client) : Truth :=
  (eq (some c.clientId) s.clientClaim).and (isActive s c.state c.validUntil)

def membershipIsActiveContext (s : Session) (m : Membership) : Truth :=
  ((eq (some m.principalId) s.uid).and (eq (some m.clientId) s.clientClaim)).and
    (isActive s m.state m.validUntil)

/-- The policy as the memory read migration replaces it. -/
def grantIsActiveContext (s : Session) (g : CapabilityGrant) : Truth :=
  (((eq (some g.principalId) s.uid).and (eq (some g.clientId) s.clientClaim)).and
    (some (decide (g.capability ∈ [.search, .read])))).and (isActive s g.state g.validUntil)

/-! ## The intersection -/

/-- The four tables an authorization query joins, as it is given them. -/
structure Relations where
  principals : List Principal
  clients : List Client
  memberships : List Membership
  capabilityGrants : List CapabilityGrant

def Tables.unfiltered (t : Tables) : Relations :=
  ⟨t.principals, t.clients, t.memberships, t.capabilityGrants⟩

/-- The tables as row-level security gives them to a caller. -/
def Tables.secured (t : Tables) (s : Session) : Relations where
  principals := visible (principalIsVerifiedSubject s) t.principals
  clients := visible (clientIsActiveClaim s) t.clients
  memberships := visible (membershipIsActiveContext s) t.memberships
  capabilityGrants := visible (grantIsActiveContext s) t.capabilityGrants

/-- `exists (select 1 from principals p join clients c .. join memberships m ..
join capability_grants g .. where ..)`. -/
def activeContext (r : Relations) (s : Session) (capability : Capability) (workspace : Text) :
    Truth :=
  let clients := join (fun (_ : Principal) (c : Client) => eq (some c.clientId) s.clientClaim)
    r.principals r.clients
  let memberships := join (fun (p, c) (m : Membership) =>
    ((eq (some m.principalId) (some p.principalId)).and (eq (some m.clientId) (some c.clientId))).and
      (eq (some m.workspaceId) (some workspace))) clients r.memberships
  let grants := join (fun ((p, c), m) (g : CapabilityGrant) =>
    (((eq (some g.principalId) (some p.principalId)).and
      (eq (some g.clientId) (some c.clientId))).and
      (eq (some g.workspaceId) (some m.workspaceId))).and
      (eq (some g.capability) (some capability))) memberships r.capabilityGrants
  existsIn (fun (((p, c), m), g) =>
    ((((eq (some p.principalId) s.uid).and (eq (some p.identityEligibility) (some .verified))).and
      (isActive s c.state c.validUntil)).and (isActive s m.state m.validUntil)).and
      (isActive s g.state g.validUntil)) grants

/-- `policy_lab.has_active_capability`, which runs with its invoker's rights. -/
def hasActiveCapability (t : Tables) (s : Session) (requiredCapability : Capability)
    (requiredWorkspace : Text) : Truth :=
  activeContext (t.secured s) s requiredCapability requiredWorkspace

def memoryReadIntersection (t : Tables) (s : Session) (m : Memory) : Truth :=
  activeContext (t.secured s) s .read m.workspaceId

/-- The memories a caller may read. -/
def Tables.visibleMemories (t : Tables) (s : Session) : List Memory :=
  visible (memoryReadIntersection t s) t.memories

/-- The query of the audit policy joins through the event's own columns. -/
def auditContext (r : Relations) (s : Session) (e : AuditEvent) : Truth :=
  let clients := join (fun (_ : Principal) (c : Client) => eq (some c.clientId) (some e.clientId))
    r.principals r.clients
  let memberships := join (fun _ (m : Membership) =>
    ((eq (some m.principalId) (some e.principalId)).and (eq (some m.clientId) (some e.clientId))).and
      (eq (some m.workspaceId) (some e.workspaceId))) clients r.memberships
  let grants := join (fun (_, m) (g : CapabilityGrant) =>
    (((eq (some g.principalId) (some m.principalId)).and
      (eq (some g.clientId) (some m.clientId))).and
      (eq (some g.workspaceId) (some m.workspaceId))).and
      (eq (some g.capability) (some Capability.read))) memberships r.capabilityGrants
  existsIn (fun (((p, c), m), g) =>
    ((((eq (some p.principalId) (some e.principalId)).and
      (eq (some p.identityEligibility) (some .verified))).and
      (isActive s c.state c.validUntil)).and (isActive s m.state m.validUntil)).and
      (isActive s g.state g.validUntil)) grants

def auditEventCurrentPrincipalRead (t : Tables) (s : Session) (e : AuditEvent) : Truth :=
  ((eq (some e.principalId) s.uid).and (eq (some e.clientId) s.clientClaim)).and
    (auditContext (t.secured s) s e)

/-- The events a caller may read. -/
def Tables.visibleAuditEvents (t : Tables) (s : Session) : List AuditEvent :=
  visible (auditEventCurrentPrincipalRead t s) t.auditEvents

end PolicyLab
