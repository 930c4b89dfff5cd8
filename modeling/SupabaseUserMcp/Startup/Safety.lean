import SupabaseUserMcp.Startup.Loading

/- What the process does before it serves. Its requests come in stages, the file, the
   identity, the tools, the server and the report, and each is made only on what the stages
   before it have found: nothing is registered and nothing is served before the origin has
   confirmed the user of a token that was read from a protected file. -/
namespace Startup

open Js
open Process (Ensures Exchange Keeps ensures_of_keeps keeps_bind)

/-! ## Stages -/

def Request.stage : Request → ℕ
  | .openFile _ _ | .stat | .inspectPermission _ _ _ | .read _ | .closeFile | .now => 0
  | .fetch _ _ => 1
  | .cancelBody | .signalAborted => 2
  | .registerTool _ => 3
  | .serveStdio => 4
  | .closeServer => 5
  | .stderr _ => 6
  | .setExitCode _ => 7
  | .onceSignal _ => 7

/-- No request of a history is of a later stage. -/
def Within (history : History) (stage : ℕ) : Prop := ∀ x ∈ history, x.request.stage ≤ stage

section

variable (parseUrl : Text → Option ParsedUrl) (host : Host) (env : Environment)

/-- The client of credentials that were loaded. -/
def ClientOf (history : History) (client : FixedSupabaseClient) : Prop :=
  ∃ origin path credentials, env.configuration = some (origin, path) ∧
    Loaded ⟨host, false⟩ path history credentials ∧
    createFixedSupabaseClient parseUrl ⟨origin, credentials, none, none⟩ = .ok client

/-- The whole of a body that is within its bound. -/
def completeBody (maximum : ℕ) : Option Body → Option Bytes
  | none => some []
  | some body =>
    if body.fails = false ∧ body.chunks.flatten.length ≤ maximum then some body.chunks.flatten
    else none

/-- The origin has confirmed the user of the token. -/
def Verified (history : History) (principalId : Text) : Prop :=
  ∃ client upstream bytes, ClientOf parseUrl host env history client ∧
    (⟨.fetch client.userUrl client.authHeaders, .ok upstream⟩ : Exchange Request Reply) ∈ history ∧
    identityRefusal client upstream = none ∧
    completeBody client.maxResponseBytes upstream.body = some bytes ∧
    userIdentity bytes = .ok ⟨principalId⟩ ∧ isUuid principalId = true

def registeredTool : Exchange Request Reply → Option Text
  | ⟨.registerTool name, _⟩ => some name
  | _ => none

def registered (history : History) : List Text := history.filterMap registeredTool

def Served (history : History) : Prop :=
  (⟨.serveStdio, .ok ()⟩ : Exchange Request Reply) ∈ history

/-- What the process may ask for. -/
def Allowed (history : History) (request : Request) : Prop :=
  Within history request.stage ∧ match request with
  | .fetch url headers => Within history 0 ∧ ∃ client, ClientOf parseUrl host env history client ∧
      url = client.userUrl ∧ headers = client.authHeaders
  | .cancelBody | .signalAborted => True
  | .registerTool _ => ∃ principalId, Verified parseUrl host env history principalId
  | .serveStdio => Within history 3 ∧ registered history = memoryToolNames ∧
      ∃ principalId, Verified parseUrl host env history principalId
  | .closeServer => ¬ Served history
  | .stderr message => message = windowsUnsupportedProfileMessage ∧ history = [] ∨
      message = stdioStartupFailureMessage ∧ ¬ Served history ∨
      message = stdioReadyMessage ∧ Served history
  | .setExitCode code => code = 1 ∧ ¬ Served history
  | .onceSignal signal => signal ∈ [text "SIGINT", text "SIGTERM"] ∧ Served history
  | request => ∃ origin path, env.configuration = some (origin, path) ∧
      LoaderAllowed ⟨host, false⟩ path history request

end

/-! ## Growing histories -/

section Growth

variable {parseUrl : Text → Option ParsedUrl} {host : Host} {env : Environment}
  {history : History} {x : Exchange Request Reply}

theorem Within.append {m n : ℕ} (h : Within history m) (hmn : m ≤ n) (hx : x.request.stage ≤ n) :
    Within (history ++ [x]) n := by
  intro y hy
  obtain hy | hy := List.mem_append.mp hy
  · exact (h y hy).trans hmn
  · rw [List.mem_singleton.mp hy]
    exact hx

theorem Loaded.append {options : LoaderOptions} {path : Text} {credentials : LocalCredentials}
    (h : Loaded options path history credentials) (hx : x.request.stage ≠ 0) :
    Loaded options path (history ++ [x]) credentials := by
  obtain ⟨hwhole, expiresAt, now, hnow, hunexpired, hparsed⟩ := h
  have hnotRead : ∀ n, x.request ≠ .read n := by
    intro n hread
    rw [hread] at hx
    exact hx rfl
  refine ⟨hwhole.append hnotRead, expiresAt, now, List.mem_append_left _ hnow, hunexpired, ?_⟩
  rw [bytesRead_append_of_ne hnotRead]
  exact hparsed

theorem ClientOf.append {client : FixedSupabaseClient}
    (h : ClientOf parseUrl host env history client) (hx : x.request.stage ≠ 0) :
    ClientOf parseUrl host env (history ++ [x]) client := by
  obtain ⟨origin, path, credentials, hconfiguration, hloaded, hclient⟩ := h
  exact ⟨origin, path, credentials, hconfiguration, hloaded.append hx, hclient⟩

theorem Verified.append {principalId : Text} (h : Verified parseUrl host env history principalId)
    (hx : x.request.stage ≠ 0) : Verified parseUrl host env (history ++ [x]) principalId := by
  obtain ⟨client, upstream, bytes, hclient, hfetch, hrest⟩ := h
  exact ⟨client, upstream, bytes, hclient.append hx, List.mem_append_left _ hfetch, hrest⟩

/-- The handle, if there is one, is closed, and no stage after this one has begun. -/
structure Past (history : History) (stage : ℕ) : Prop where
  within : Within history stage
  closed : Opened history → Closed history

theorem Past.append {m n : ℕ} (h : Past history m) (hmn : m ≤ n) (hx : x.request.stage ≤ n)
    (hx' : x.request.stage ≠ 0) : Past (history ++ [x]) n := by
  refine ⟨h.within.append hmn hx, fun hopened => List.mem_append_left _ (h.closed ?_)⟩
  obtain ⟨name, noFollow, hmem⟩ := hopened
  obtain hmem | hmem := List.mem_append.mp hmem
  · exact ⟨name, noFollow, hmem⟩
  · rw [← List.mem_singleton.mp hmem] at hx'
    exact absurd rfl hx'

theorem Past.mono {m n : ℕ} (h : Past history m) (hmn : m ≤ n) : Past history n :=
  ⟨fun x hx => (h.within x hx).trans hmn, h.closed⟩

theorem not_served_of_within {n : ℕ} (h : Within history n) (hn : n < 4) : ¬ Served history :=
  fun hserved => absurd (h _ hserved) (Nat.not_le.mpr hn)

theorem Served.append (h : Served history) : Served (history ++ [x]) := List.mem_append_left _ h

theorem registered_of_within {n : ℕ} (h : Within history n) (hn : n < 3) :
    registered history = [] := by
  refine List.filterMap_eq_nil_iff.mpr fun x hx => ?_
  have hstage := h x hx
  obtain ⟨request, reply⟩ := x
  cases request with
  | registerTool name => exact absurd hstage (Nat.not_le.mpr hn)
  | _ => rfl

end Growth

/-! ## The identity -/

section Identity

variable {parseUrl : Text → Option ParsedUrl} {host : Host} {env : Environment}
  {client : FixedSupabaseClient} {upstream : Upstream}

/-- The origin has answered. -/
structure Fetched (parseUrl : Text → Option ParsedUrl) (host : Host) (env : Environment)
    (client : FixedSupabaseClient) (upstream : Upstream) (history : History) : Prop where
  past : Past history 2
  clientOf : ClientOf parseUrl host env history client
  fetched : (⟨.fetch client.userUrl client.authHeaders, .ok upstream⟩ : Exchange Request Reply) ∈
    history

theorem keeps_readBoundedBody {maximum : ℕ} {fails : Bool} (chunks : List Bytes) :
    ∀ (bytes : Bytes), bytes.length ≤ maximum → ∀ {history : History},
    Fetched parseUrl host env client upstream history →
    Keeps (Allowed parseUrl host env) (fun history result => Past history 2 ∧ ∀ all,
      result = .ok all → Fetched parseUrl host env client upstream history ∧ fails = false ∧
        all = bytes ++ chunks.flatten ∧ all.length ≤ maximum) history
      (readBoundedBody maximum fails bytes chunks) := by
  induction chunks with
  | nil =>
    intro bytes hlength history hfetched
    refine ⟨hfetched.past, fun all hall => ?_⟩
    cases fails with
    | true => cases hall
    | false =>
      obtain rfl := Except.ok.inj hall
      exact ⟨hfetched, rfl, by simp, hlength⟩
  | cons chunk rest ih =>
    intro bytes hlength history hfetched
    rw [readBoundedBody]
    split
    · refine ⟨⟨hfetched.past.within, trivial⟩, fun reply => ?_⟩
      have hpast := hfetched.past.append (x := ⟨.cancelBody, reply⟩) le_rfl le_rfl
        (Nat.succ_ne_zero _)
      cases reply with
      | error e => exact ⟨hpast, fun _ h => by cases h⟩
      | ok u => exact ⟨hpast, fun _ h => by cases h⟩
    · next hshort =>
      have hnext := ih (bytes ++ chunk) (by rw [List.length_append]; omega) hfetched
      rw [List.append_assoc, ← List.flatten_cons] at hnext
      exact hnext

theorem keeps_readIdentityBody {history : History}
    (h : Fetched parseUrl host env client upstream history) : Keeps (Allowed parseUrl host env)
      (fun history result => Past history 2 ∧ ∀ bytes, result = .ok bytes →
        Fetched parseUrl host env client upstream history ∧
          completeBody client.maxResponseBytes upstream.body = some bytes) history
      (readIdentityBody client upstream.body) := by
  cases hbody : upstream.body with
  | none =>
    refine ⟨h.past, fun bytes hbytes => ⟨h, ?_⟩⟩
    rw [← Except.ok.inj hbytes]
    rfl
  | some body =>
    refine (keeps_readBoundedBody body.chunks [] (Nat.zero_le _) h).mono fun later result hends => ?_
    refine ⟨hends.1, fun bytes hbytes => ?_⟩
    obtain ⟨hfetched, hfails, rfl, hlength⟩ := hends.2 bytes hbytes
    rw [List.nil_append] at hlength
    exact ⟨hfetched, if_pos ⟨hfails, hlength⟩⟩

theorem isUuid_of_userIdentity {bytes : Bytes} {identity : VerifiedUserIdentity}
    (h : userIdentity bytes = .ok identity) : isUuid identity.principalId = true := by
  rw [userIdentity] at h
  split at h
  · split at h
    · rw [ite_eq_iff] at h
      obtain ⟨hvalid, hidentity⟩ | ⟨-, hnone⟩ := h
      · rw [← Except.ok.inj hidentity]
        exact (Bool.and_eq_true_iff.mp hvalid).1
      · cases hnone
    · cases h
  · cases h

theorem keeps_readIdentity {history : History}
    (h : Fetched parseUrl host env client upstream history) : Keeps (Allowed parseUrl host env)
      (fun history result => Past history 2 ∧ ∀ identity, result = .ok identity →
        Verified parseUrl host env history identity.principalId) history
      (readIdentity client upstream) := by
  rw [readIdentity]
  cases hrefusal : identityRefusal client upstream with
  | some code => exact ⟨h.past, fun _ h => by cases h⟩
  | none =>
    refine keeps_bind ((keeps_readIdentityBody h).mono fun later body hbody => ⟨hbody.1, ?_⟩)
    intro identity hidentity
    obtain ⟨bytes, rfl, hread⟩ := bind_eq_ok.mp hidentity
    obtain ⟨hfetched, hcomplete⟩ := hbody.2 bytes rfl
    cases huser : userIdentity bytes with
    | error code =>
      rw [huser] at hread
      cases hread
    | ok user =>
      rw [huser] at hread
      obtain rfl : user = identity := Except.ok.inj hread
      exact ⟨client, upstream, bytes, hfetched.clientOf, hfetched.fetched, hrefusal, hcomplete,
        huser, isUuid_of_userIdentity huser⟩

theorem keeps_verifyUserIdentity {history : History} (hpast : Past history 0)
    (hclient : ClientOf parseUrl host env history client) : Keeps (Allowed parseUrl host env)
      (fun history result => Past history 2 ∧ ∀ identity, result = .ok identity →
        Verified parseUrl host env history identity.principalId) history
      (verifyUserIdentity client) := by
  have hfetch : Keeps (Allowed parseUrl host env) (fun history result => Past history 2 ∧
      ∀ identity, result = .ok identity → Verified parseUrl host env history identity.principalId)
      history (fetchIdentity client) := by
    refine ⟨⟨(hpast.mono (Nat.zero_le _)).within, hpast.within, client, hclient, rfl, rfl⟩,
      fun reply => ?_⟩
    have hpast := hpast.append (n := 2) (x := ⟨.fetch client.userUrl client.authHeaders, reply⟩)
      (Nat.zero_le _) (Nat.le_succ 1) (Nat.succ_ne_zero _)
    cases reply with
    | error e => exact ⟨hpast, fun _ h => by cases h⟩
    | ok upstream => exact keeps_readIdentity ⟨hpast, hclient.append (Nat.succ_ne_zero _),
        List.mem_append_right _ (List.mem_singleton_self _)⟩
  refine keeps_bind (hfetch.mono fun later result hends => ?_)
  cases result with
  | ok identity => exact ⟨hends.1, fun other hother => hends.2 other (by cases hother; rfl)⟩
  | error thrown =>
    cases thrown with
    | client code => exact ⟨hends.1, fun _ h => by cases h⟩
    | other => exact ⟨⟨hends.1.within, trivial⟩, fun aborted =>
        ⟨hends.1.append le_rfl le_rfl (Nat.succ_ne_zero _), fun _ h => by cases h⟩⟩

end Identity

/-! ## The server -/

section Server

variable {parseUrl : Text → Option ParsedUrl} {host : Host} {env : Environment}

/-- A server that has the tools of a list, of a user that was verified. -/
structure Built (parseUrl : Text → Option ParsedUrl) (host : Host) (env : Environment)
    (history : History) (names : List Text) (principalId : Text) : Prop where
  past : Past history 3
  tools : registered history = names
  verified : Verified parseUrl host env history principalId

theorem keeps_registerTools {principalId : Text} (names : List Text) :
    ∀ {before : List Text} {history : History},
    Built parseUrl host env history before principalId → Keeps (Allowed parseUrl host env)
      (fun history _ => Built parseUrl host env history (before ++ names) principalId) history
      (registerTools names) := by
  induction names with
  | nil =>
    intro before history hbuilt
    rw [List.append_nil]
    exact hbuilt
  | cons name rest ih =>
    intro before history hbuilt
    refine ⟨⟨hbuilt.past.within, principalId, hbuilt.verified⟩, fun reply => ?_⟩
    have hnext : Built parseUrl host env (history ++ [⟨.registerTool name, reply⟩])
        (before ++ [name]) principalId := by
      refine ⟨hbuilt.past.append le_rfl le_rfl (Nat.succ_ne_zero _), ?_,
        hbuilt.verified.append (Nat.succ_ne_zero _)⟩
      rw [registered, List.filterMap_append, ← registered, hbuilt.tools]
      rfl
    have hrest := ih hnext
    rw [List.append_assoc] at hrest
    exact hrest

theorem keeps_createReadOnlyServer {history : History} {client : FixedSupabaseClient}
    (hpast : Past history 0) (hclient : ClientOf parseUrl host env history client) :
    Keeps (Allowed parseUrl host env) (fun history result => Past history 3 ∧ ∀ server,
      result = .ok server → server.toolNames = memoryToolNames ∧
        Built parseUrl host env history memoryToolNames server.principalId) history
      (createReadOnlyServer client stdioServerOptions) := by
  refine keeps_bind ((keeps_verifyUserIdentity hpast hclient).mono fun later result hends => ?_)
  obtain ⟨hpast, hverified⟩ := hends
  cases result with
  | error code => exact ⟨hpast.mono (Nat.le_succ 2), fun _ h => by cases h⟩
  | ok identity =>
    rw [buildServer]
    split
    · exact ⟨hpast.mono (Nat.le_succ 2), fun _ h => by cases h⟩
    · have hbuilt : Built parseUrl host env later [] identity.principalId :=
        ⟨hpast.mono (Nat.le_succ 2), registered_of_within hpast.within (Nat.lt_succ_self 2),
          hverified identity rfl⟩
      refine keeps_bind (p := registerTools memoryToolNames)
        ((keeps_registerTools memoryToolNames hbuilt).mono fun last _ hbuilt => ?_)
      refine ⟨hbuilt.past, fun server hserver => ?_⟩
      obtain rfl := Except.ok.inj hserver
      exact ⟨rfl, hbuilt⟩

/-- What is so after a start. -/
structure StartEnds (parseUrl : Text → Option ParsedUrl) (host : Host) (env : Environment)
    (history : History) (result : Except StartupError ReadOnlyServer) : Prop where
  past : Past history 5
  served : ∀ server, result = .ok server → Served history ∧
    server.toolNames = memoryToolNames ∧ Verified parseUrl host env history server.principalId
  failed : ∀ e, result = .error e → ¬ Served history

theorem startEnds_error {history : History} {e : StartupError} {n : ℕ} (hpast : Past history n)
    (hn : n < 4) : StartEnds parseUrl host env history (.error e) :=
  ⟨hpast.mono (by omega), fun _ h => (by cases h), fun _ _ => not_served_of_within hpast.within hn⟩

theorem keeps_serveServer {history : History} {result : Except StartupError ReadOnlyServer}
    (hpast : Past history 3) (hserver : ∀ server, result = .ok server →
      server.toolNames = memoryToolNames ∧
        Built parseUrl host env history memoryToolNames server.principalId) :
    Keeps (Allowed parseUrl host env) (StartEnds parseUrl host env) history (serveServer result) := by
  cases result with
  | error e => exact startEnds_error hpast (by decide)
  | ok server =>
    obtain ⟨htools, hbuilt⟩ := hserver server rfl
    refine ⟨⟨(hpast.mono (Nat.le_succ 3)).within, hpast.within, hbuilt.tools, _, hbuilt.verified⟩,
      fun reply => ?_⟩
    have hnext := hpast.append (n := 4) (x := ⟨.serveStdio, reply⟩) (Nat.le_succ 3) le_rfl
      (Nat.succ_ne_zero _)
    cases reply with
    | ok u =>
      refine ⟨hnext.mono (Nat.le_succ 4), fun other hother => ?_, fun _ h => by cases h⟩
      obtain rfl := Except.ok.inj hother
      exact ⟨List.mem_append_right _ (List.mem_singleton_self _), htools,
        hbuilt.verified.append (Nat.succ_ne_zero _)⟩
    | error e =>
      have hserved : ¬ Served (history ++ [⟨.serveStdio, .error e⟩]) := by
        intro hserved
        obtain hmem | hmem := List.mem_append.mp hserved
        · exact not_served_of_within hpast.within (Nat.lt_succ_self 3) hmem
        · cases List.mem_singleton.mp hmem
      refine ⟨⟨(hnext.mono (Nat.le_succ 4)).within, hserved⟩, fun u => ?_⟩
      refine ⟨hnext.append (Nat.le_succ 4) le_rfl (Nat.succ_ne_zero _), fun _ h => (by cases h),
        fun _ _ hserved' => ?_⟩
      obtain hmem | hmem := List.mem_append.mp hserved'
      · exact hserved hmem
      · cases List.mem_singleton.mp hmem

/-- What the loader asks for the process may ask for. -/
theorem allowed_of_loaderAllowed {origin path : Text} (henv : env.configuration = some (origin, path))
    {history : History} {request : Request} (hwithin : ∀ x ∈ history, x.request.stage = 0)
    (h : LoaderAllowed ⟨host, false⟩ path history request) :
    Allowed parseUrl host env history request := by
  have hstages : ∀ n, Within history n := fun n x hx => (hwithin x hx).trans_le (Nat.zero_le n)
  cases request with
  | openFile _ _ | stat | inspectPermission _ _ _ | read _ | closeFile | now =>
    exact ⟨hstages _, origin, path, henv, h⟩
  | _ => exact h.elim

theorem keeps_load {origin path : Text} (henv : env.configuration = some (origin, path)) :
    Keeps (Allowed parseUrl host env) (fun history result => Past history 0 ∧
      ∀ credentials, result = .ok credentials → Loaded ⟨host, false⟩ path history credentials) []
      (loadLocalCredentials ⟨host, false⟩ path) := by
  have hstage : ∀ history request, LoaderAllowed ⟨host, false⟩ path history request →
      request.stage = 0 := by
    intro history request h
    cases request with
    | openFile _ _ | stat | inspectPermission _ _ _ | read _ | closeFile | now => rfl
    | _ => exact h.elim
  have hkeeps := (keeps_loadLocalCredentials ⟨host, false⟩ path).requests hstage
    (List.forall_mem_nil _)
  refine (hkeeps.mono fun history result hends => ?_).imp fun history request h =>
    allowed_of_loaderAllowed henv h.2 h.1
  exact ⟨⟨fun x hx => (hends.2 x hx).le, hends.1.1⟩, hends.1.2⟩

theorem past_nil (n : ℕ) : Past [] n := by
  refine ⟨List.forall_mem_nil _, fun h => ?_⟩
  obtain ⟨_, _, hmem⟩ := h
  cases hmem

theorem keeps_startReadOnlyStdioFromEnvironment (parseUrl : Text → Option ParsedUrl) (host : Host)
    (env : Environment) : Keeps (Allowed parseUrl host env) (StartEnds parseUrl host env) []
      (startReadOnlyStdioFromEnvironment parseUrl host env) := by
  rw [startReadOnlyStdioFromEnvironment]
  cases henv : env.configuration with
  | none => exact startEnds_error (past_nil 0) (by decide)
  | some configuration =>
    obtain ⟨origin, path⟩ := configuration
    refine keeps_bind ((keeps_load henv).mono fun history loaded hends => ?_)
    obtain ⟨hpast, hloaded⟩ := hends
    cases loaded with
    | error code => exact startEnds_error hpast (by decide)
    | ok credentials =>
      rw [startWithCredentials]
      cases hclient : createFixedSupabaseClient parseUrl ⟨origin, credentials, none, none⟩ with
      | error code => exact startEnds_error hpast (by decide)
      | ok client =>
        refine keeps_bind ((keeps_createReadOnlyServer hpast ⟨origin, path, credentials, henv,
          hloaded credentials rfl, hclient⟩).mono fun later result hends => ?_)
        exact keeps_serveServer hends.1 hends.2

/-- What is so after the command: it serves a verified user, or it has set its exit code. -/
structure CliEnds (parseUrl : Text → Option ParsedUrl) (host : Host) (env : Environment)
    (history : History) (up : Bool) : Prop where
  closed : Opened history → Closed history
  served : up = true → Served history ∧ ∃ principalId, Verified parseUrl host env history principalId
  failed : up = false → ¬ Served history ∧
    (⟨.setExitCode 1, ()⟩ : Exchange Request Reply) ∈ history

/-- After a message the exit code is set. -/
theorem keeps_failure {history : History} {message : Text} (hpast : Past history 5)
    (hserved : ¬ Served history) (hmessage : message = windowsUnsupportedProfileMessage ∧
      history = [] ∨ message = stdioStartupFailureMessage ∧ ¬ Served history) :
    Keeps (Allowed parseUrl host env) (CliEnds parseUrl host env) history
      (ask (.stderr message) >>= fun _ => ask (.setExitCode 1) >>= fun _ => pure false) := by
  have hafter : ∀ {history : History} {x : Exchange Request Reply}, ¬ Served history →
      x.request ≠ .serveStdio → ¬ Served (history ++ [x]) := by
    intro history x hserved hx hmem
    obtain hmem | hmem := List.mem_append.mp hmem
    · exact hserved hmem
    · exact hx (congrArg Exchange.request (List.mem_singleton.mp hmem)).symm
  refine ⟨⟨(hpast.mono (Nat.le_succ 5)).within, ?_⟩, fun u => ?_⟩
  · exact hmessage.imp_right .inl
  have hpast : Past (history ++ [⟨.stderr message, u⟩]) 6 :=
    hpast.append (Nat.le_succ 5) le_rfl (Nat.succ_ne_zero _)
  have hserved : ¬ Served (history ++ [⟨.stderr message, u⟩]) := hafter hserved (by simp)
  refine ⟨⟨(hpast.mono (Nat.le_succ 6)).within, rfl, hserved⟩, fun u' => ?_⟩
  have hpast : Past (history ++ [⟨.stderr message, u⟩] ++ [⟨.setExitCode 1, u'⟩]) 7 :=
    hpast.append (Nat.le_succ 6) le_rfl (Nat.succ_ne_zero _)
  exact ⟨hpast.closed, fun h => (by cases h), fun _ => ⟨hafter hserved (by simp),
    List.mem_append_right _ (List.mem_singleton_self _)⟩⟩

/-- A server that serves is announced, and is closed by either signal. -/
theorem keeps_ready {history : History} {server : ReadOnlyServer} (hpast : Past history 5)
    (hserved : Served history) (hverified : Verified parseUrl host env history server.principalId) :
    Keeps (Allowed parseUrl host env) (CliEnds parseUrl host env) history
      (reportStart (.ok server)) := by
  refine ⟨⟨(hpast.mono (Nat.le_succ 5)).within, .inr (.inr ⟨rfl, hserved⟩)⟩, fun u => ?_⟩
  have hpast := hpast.append (n := 7) (x := ⟨.stderr stdioReadyMessage, u⟩) (by decide)
    (Nat.le_succ 6) (Nat.succ_ne_zero _)
  have hserved := hserved.append (x := ⟨.stderr stdioReadyMessage, u⟩)
  have hverified := hverified.append (x := ⟨.stderr stdioReadyMessage, u⟩) (Nat.succ_ne_zero _)
  refine ⟨⟨hpast.within, List.mem_cons_self, hserved⟩, fun u' => ?_⟩
  have hpast := hpast.append (x := ⟨.onceSignal (text "SIGINT"), u'⟩) le_rfl le_rfl
    (Nat.succ_ne_zero _)
  have hserved := hserved.append (x := ⟨.onceSignal (text "SIGINT"), u'⟩)
  have hverified := hverified.append (x := ⟨.onceSignal (text "SIGINT"), u'⟩) (Nat.succ_ne_zero _)
  refine ⟨⟨hpast.within, List.mem_cons_of_mem _ List.mem_cons_self, hserved⟩, fun u'' => ?_⟩
  exact ⟨(hpast.append (x := ⟨.onceSignal (text "SIGTERM"), u''⟩) le_rfl le_rfl
    (Nat.succ_ne_zero _)).closed, fun _ => ⟨hserved.append,
    server.principalId, hverified.append (Nat.succ_ne_zero _)⟩, fun h => by cases h⟩

theorem keeps_reportStart {history : History} {result : Except StartupError ReadOnlyServer}
    (hends : StartEnds parseUrl host env history result) :
    Keeps (Allowed parseUrl host env) (CliEnds parseUrl host env) history (reportStart result) := by
  cases result with
  | error e => exact keeps_failure hends.past (hends.failed e rfl) (.inr ⟨rfl, hends.failed e rfl⟩)
  | ok server =>
    obtain ⟨hserved, -, hverified⟩ := hends.served server rfl
    exact keeps_ready hends.past hserved hverified

theorem keeps_runReadOnlyStdioCli (parseUrl : Text → Option ParsedUrl) (host : Host)
    (env : Environment) : Keeps (Allowed parseUrl host env) (CliEnds parseUrl host env) []
      (runReadOnlyStdioCli parseUrl host env) := by
  rw [runReadOnlyStdioCli]
  split
  · exact keeps_failure (past_nil 5) List.not_mem_nil (.inl ⟨rfl, rfl⟩)
  · exact keeps_bind ((keeps_startReadOnlyStdioFromEnvironment parseUrl host env).mono
      fun history result hends => keeps_reportStart hends)

end Server

/-- In every run of the command, whatever the host and the origin answer: the token of a
protected file goes to the user endpoint of the configured origin and nowhere else, no tool is
registered and nothing is served before that origin has confirmed the user, exactly the
memory tools are served, what is written on the standard error is one of three fixed texts,
and the command ends serving a verified user or with its exit code set. -/
theorem runReadOnlyStdioCli_safe (parseUrl : Text → Option ParsedUrl) (host : Host)
    (env : Environment) :
    Ensures (runReadOnlyStdioCli parseUrl host env) fun trace up =>
      CliEnds parseUrl host env trace up ∧ ∀ before x after, trace = before ++ x :: after →
        Allowed parseUrl host env before x.request :=
  ensures_of_keeps (keeps_runReadOnlyStdioCli parseUrl host env)

end Startup
