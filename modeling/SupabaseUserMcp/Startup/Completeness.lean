import SupabaseUserMcp.Startup.Credentials
import SupabaseUserMcp.Startup.Safety

/- A start that has all it needs succeeds: a credential file that was written for its owner,
   an https origin that confirms the token's user, and a transport that comes up. -/
namespace Startup

open Js
open Process (Ensures Runs ensures_ask ensures_bind ensures_done runs_ask runs_bind runs_done)

/-- A response that confirms the user of a client's token. -/
structure Confirms (client : FixedSupabaseClient) (upstream : Upstream) (principalId : Text) :
    Prop where
  accepted : identityRefusal client upstream = none
  body : ∃ bytes, completeBody client.maxResponseBytes upstream.body = some bytes ∧
    userIdentity bytes = .ok ⟨principalId⟩

/-! ## The identity -/

theorem readBoundedBody_of_le {maximum : ℕ} (chunks : List Bytes) :
    ∀ bytes : Bytes, bytes.length + chunks.flatten.length ≤ maximum →
      readBoundedBody maximum false bytes chunks = .done (.ok (bytes ++ chunks.flatten)) := by
  induction chunks with
  | nil =>
    intro bytes _
    rw [List.flatten_nil, List.append_nil]
    rfl
  | cons chunk rest ih =>
    intro bytes hlength
    rw [List.flatten_cons, List.length_append] at hlength
    rw [readBoundedBody, if_neg (by omega), ih (bytes ++ chunk) (by rw [List.length_append]; omega),
      List.append_assoc, List.flatten_cons]

theorem readIdentityBody_of_complete {client : FixedSupabaseClient} {body : Option Body}
    {bytes : Bytes} (h : completeBody client.maxResponseBytes body = some bytes) :
    readIdentityBody client body = .done (.ok bytes) := by
  cases body with
  | none =>
    rw [← Option.some.inj h]
    rfl
  | some body =>
    obtain ⟨⟨hfails, hlength⟩, hbytes⟩ := Option.ite_none_right_eq_some.mp h
    rw [readIdentityBody, hfails, readBoundedBody_of_le _ _ (by simpa using hlength),
      ← Option.some.inj hbytes]
    rfl

section Start

variable {client : FixedSupabaseClient} {upstream : Upstream} {principalId : Text}
  {parseUrl : Text → Option ParsedUrl} {host : Host} {env : Environment}

theorem Confirms.readIdentity (h : Confirms client upstream principalId) :
    readIdentity client upstream = .done (.ok ⟨principalId⟩) := by
  obtain ⟨bytes, hbytes, huser⟩ := h.body
  rw [Startup.readIdentity, h.accepted]
  show (readIdentityBody client upstream.body >>= _) = _
  rw [readIdentityBody_of_complete hbytes]
  show Process.Program.done ((userIdentity bytes).mapError _) = _
  rw [huser]
  rfl

theorem Confirms.isUuid (h : Confirms client upstream principalId) :
    Startup.isUuid principalId = true := by
  obtain ⟨bytes, -, huser⟩ := h.body
  exact isUuid_of_userIdentity huser

theorem ensures_verifyUserIdentity (h : Confirms client upstream principalId) :
    Ensures (verifyUserIdentity client) fun trace result =>
      (∀ x ∈ trace, Answers upstream x) → result = .ok ⟨principalId⟩ := by
  refine ensures_ask.mpr fun reply trace result hrun hall => ?_
  obtain rfl : reply = .ok upstream := hall _ List.mem_cons_self
  change Runs (readIdentity client upstream >>= catchIdentity) trace result at hrun
  rw [h.readIdentity] at hrun
  exact (runs_done.mp hrun).2

theorem ensures_registerTools (names : List Text) {p : Hosted (Except StartupError ReadOnlyServer)}
    {post : Except StartupError ReadOnlyServer → Prop} (h : Ensures p fun _ result => post result) :
    Ensures (registerTools names >>= fun _ => p) fun _ result => post result := by
  induction names with
  | nil => exact h
  | cons name rest ih => exact ensures_ask.mpr fun _ => ih

theorem ensures_createReadOnlyServer (h : Confirms client upstream principalId) :
    Ensures (createReadOnlyServer client stdioServerOptions) fun trace result =>
      (∀ x ∈ trace, Answers upstream x) → result = .ok ⟨principalId, memoryToolNames⟩ := by
  refine ensures_bind.mpr ((ensures_verifyUserIdentity h).mono fun first identity hidentity => ?_)
  intro rest result hrun hall
  obtain rfl := hidentity fun x hx => hall x (List.mem_append_left _ hx)
  rw [buildServer, h.isUuid] at hrun
  let server : Except StartupError ReadOnlyServer := .ok ⟨principalId, memoryToolNames⟩
  have hbuilt : Ensures (.done server : Hosted (Except StartupError ReadOnlyServer))
      fun _ result => result = server := ensures_done.mpr rfl
  exact ensures_registerTools memoryToolNames hbuilt rest result hrun

theorem ensures_startReadOnlyStdioFromEnvironment {origin path : Text}
    {credentials : LocalCredentials} {file : HostFile} {now : ℤ}
    (henv : env.configuration = some (origin, path))
    (hfile : file.credentials ⟨host, false⟩ now = .ok credentials)
    (hclient : createFixedSupabaseClient parseUrl ⟨origin, credentials, none, none⟩ = .ok client)
    (h : Confirms client upstream principalId) :
    Ensures (startReadOnlyStdioFromEnvironment parseUrl host env) fun trace result =>
      file.Delivers now 0 trace → (∀ x ∈ trace, Answers upstream x) →
        result = .ok ⟨principalId, memoryToolNames⟩ := by
  rw [startReadOnlyStdioFromEnvironment, henv]
  refine ensures_bind.mpr ((@ensures_loadLocalCredentials file now ⟨host, false⟩ path).mono
    fun first loaded hloaded => ?_)
  intro rest result hrun hdelivers hall
  obtain rfl := (hloaded (delivers_append.mp hdelivers).1).trans hfile
  rw [startWithCredentials, hclient] at hrun
  obtain ⟨created, server, last, rfl, hcreated, hserved⟩ := runs_bind.mp hrun
  have hanswers : ∀ x ∈ created, Answers upstream x := fun x hx =>
    hall x (List.mem_append_right _ (List.mem_append_left _ hx))
  obtain rfl := ensures_createReadOnlyServer h created server hcreated hanswers
  obtain ⟨reply, tail, rfl, hreply⟩ := runs_ask.mp hserved
  obtain rfl : reply = .ok () :=
    hall ⟨.serveStdio, reply⟩ (List.mem_append_right _ (List.mem_append_right _ List.mem_cons_self))
  exact (runs_done.mp hreply).2

/-- A command whose start comes to a server serves. -/
theorem ensures_runReadOnlyStdioCli {parseUrl : Text → Option ParsedUrl} {host : Host}
    {env : Environment} {file : HostFile} {upstream : Upstream} {now : ℤ} {server : ReadOnlyServer}
    (hwindows : host.windows = false)
    (hstart : Ensures (startReadOnlyStdioFromEnvironment parseUrl host env) fun trace result =>
      file.Delivers now 0 trace → (∀ x ∈ trace, Answers upstream x) → result = .ok server) :
    Ensures (runReadOnlyStdioCli parseUrl host env) fun trace up =>
      file.Delivers now 0 trace → (∀ x ∈ trace, Answers upstream x) → up = true := by
  rw [runReadOnlyStdioCli, hwindows, if_neg Bool.false_ne_true]
  refine ensures_bind.mpr (hstart.mono fun first result hresult => ?_)
  intro rest up hrun hdelivers hall
  obtain rfl := hresult (delivers_append.mp hdelivers).1
    fun x hx => hall x (List.mem_append_left _ hx)
  obtain ⟨_, _, rfl, hready⟩ := runs_ask.mp hrun
  obtain ⟨_, _, rfl, hsigint⟩ := runs_ask.mp hready
  obtain ⟨_, _, rfl, hsigterm⟩ := runs_ask.mp hsigint
  exact (runs_done.mp hsigterm).2

end Start

/-- A start with a written file, an https origin that confirms the user and a transport that
comes up has a run, and every run of it serves the memory tools to that user. -/
theorem runReadOnlyStdioCli_serves (fractionText : ℚ → Text) (parseUrl : Text → Option ParsedUrl)
    (host : Host) (env : Environment) (origin path key token principalId : Text)
    (now expiresAt : ℤ) (file : HostFile) (upstream : Upstream)
    (hwindows : host.windows = false) (henv : env.configuration = some (origin, path))
    (hfile : WrittenFile fractionText ⟨host, false⟩ now file key token expiresAt)
    (hurl : parseUrl origin = some ⟨text "https:", origin, [], []⟩)
    (hconfirms : Confirms ⟨origin, key, token, defaultMaxResponseBytes⟩ upstream principalId) :
    (∃ trace up, Runs (runReadOnlyStdioCli parseUrl host env) trace up ∧
      file.Delivers now 0 trace ∧ ∀ x ∈ trace, Answers upstream x) ∧
    (Ensures (startReadOnlyStdioFromEnvironment parseUrl host env) fun trace result =>
      file.Delivers now 0 trace → (∀ x ∈ trace, Answers upstream x) →
        result = .ok ⟨principalId, memoryToolNames⟩) ∧
    Ensures (runReadOnlyStdioCli parseUrl host env) fun trace up =>
      file.Delivers now 0 trace → (∀ x ∈ trace, Answers upstream x) → up = true := by
  have hstart := ensures_startReadOnlyStdioFromEnvironment henv hfile.credentials
    (createFixedSupabaseClient_of_loaded hfile.isKey hfile.issued.isToken hurl) hconfirms
  exact ⟨exists_delivers upstream _ 0, hstart, ensures_runReadOnlyStdioCli hwindows hstart⟩

/-! ## A lab -/

def labOrigin : Text := text "https://lab.supabase.co"

def labPrincipal : Text := text "0f0e0d0c-0b0a-4908-8706-050403020100"

def labUser : List (Text × Value) :=
  [(text "id", .string labPrincipal), (text "aud", .string (text "authenticated"))]

/-- A user in two chunks. -/
def labUpstream : Upstream where
  redirected := false
  url := labOrigin ++ text "/auth/v1/user"
  ok := true
  status := 200
  advertisedLength := none
  body := some ⟨[(encodeUtf8 (stringify (fun _ => []) (.object labUser))).take 10,
    (encodeUtf8 (stringify (fun _ => []) (.object labUser))).drop 10], false⟩

theorem userIdentity_labUser :
    userIdentity (encodeUtf8 (stringify (fun _ => []) (.object labUser))) = .ok ⟨labPrincipal⟩ := by
  have hjson : (Value.object labUser).IsJson := by
    refine .object (by decide) (by decide) fun p hp => ?_
    simp only [labUser, List.mem_cons, List.not_mem_nil, or_false] at hp
    obtain rfl | rfl := hp
    · exact .string _
    · exact .string _
  have hnone : ∀ q, (Value.object labUser).HasNumber (.finite q) → Legible (fun _ => []) q := by
    intro q hq
    cases hq with
    | property hp hnumber =>
      simp only [labUser, List.mem_cons, List.not_mem_nil, or_false] at hp
      obtain rfl | rfl := hp
      · cases hnumber
      · cases hnumber
  have hascii : (stringify (fun _ => []) (.object labUser)).all isAscii = true := by
    decide
  rw [userIdentity, decodeLossy_of_decodeUtf8 (IsUtf16.ascii hascii).decodeUtf8_encodeUtf8,
    jsonParse_stringify _ hjson hnone]
  exact if_pos (by decide)

theorem confirms_labUpstream :
    Confirms ⟨labOrigin, labKey, labToken, defaultMaxResponseBytes⟩ labUpstream labPrincipal := by
  refine ⟨by decide, _, ?_, userIdentity_labUser⟩
  rw [labUpstream, completeBody, if_pos ⟨rfl, by decide⟩, List.flatten_cons,
    List.flatten_cons, List.flatten_nil, List.append_nil, List.take_append_drop]

def labUrl (origin : Text) : Option ParsedUrl := some ⟨text "https:", origin, [], []⟩

def labEnvironment : Environment := ⟨[], some labOrigin, some (text "/run/credentials")⟩

theorem runReadOnlyStdioCli_serves_lab :
    (∃ trace up, Runs (runReadOnlyStdioCli labUrl labLoader.host labEnvironment) trace up ∧
      labFile.Delivers 1893456000000 0 trace ∧ ∀ x ∈ trace, Answers labUpstream x) ∧
    (Ensures (startReadOnlyStdioFromEnvironment labUrl labLoader.host labEnvironment)
      fun trace result => labFile.Delivers 1893456000000 0 trace →
        (∀ x ∈ trace, Answers labUpstream x) → result = .ok ⟨labPrincipal, memoryToolNames⟩) ∧
    Ensures (runReadOnlyStdioCli labUrl labLoader.host labEnvironment) fun trace up =>
      labFile.Delivers 1893456000000 0 trace → (∀ x ∈ trace, Answers labUpstream x) → up = true :=
  runReadOnlyStdioCli_serves (fun _ => []) labUrl labLoader.host labEnvironment labOrigin _ labKey
    labToken labPrincipal 1893456000000 4102444800 labFile labUpstream rfl rfl writtenFile_labFile
    rfl confirms_labUpstream

theorem exists_served_lab :
    ∃ trace, Runs (runReadOnlyStdioCli labUrl labLoader.host labEnvironment) trace true := by
  obtain ⟨trace, up, hrun, hdelivers, hall⟩ := @exists_delivers labFile 1893456000000 labUpstream _
    (runReadOnlyStdioCli labUrl labLoader.host labEnvironment) 0
  have hclient : createFixedSupabaseClient labUrl ⟨labOrigin, ⟨labKey, labToken⟩, none, none⟩ =
      .ok ⟨labOrigin, labKey, labToken, defaultMaxResponseBytes⟩ :=
    createFixedSupabaseClient_of_loaded writtenFile_labFile.isKey
      writtenFile_labFile.issued.isToken rfl
  have hstart : Ensures (startReadOnlyStdioFromEnvironment labUrl labLoader.host labEnvironment)
      fun trace result => labFile.Delivers 1893456000000 0 trace →
        (∀ x ∈ trace, Answers labUpstream x) → result = .ok ⟨labPrincipal, memoryToolNames⟩ :=
    ensures_startReadOnlyStdioFromEnvironment rfl writtenFile_labFile.credentials hclient
      confirms_labUpstream
  have hup := ensures_runReadOnlyStdioCli rfl hstart trace up hrun hdelivers hall
  exact ⟨trace, hup ▸ hrun⟩

theorem runReadOnlyStdioCli_safe_lab :
    ∃ trace, Runs (runReadOnlyStdioCli labUrl labLoader.host labEnvironment) trace true ∧
      Served trace ∧
      (∃ principalId, Verified labUrl labLoader.host labEnvironment trace principalId) ∧
      ∀ before x after, trace = before ++ x :: after →
        Allowed labUrl labLoader.host labEnvironment before x.request := by
  obtain ⟨trace, hrun⟩ := exists_served_lab
  obtain ⟨hends, hallowed⟩ :=
    runReadOnlyStdioCli_safe labUrl labLoader.host labEnvironment trace _ hrun
  obtain ⟨hserved, hverified⟩ := hends.served rfl
  exact ⟨trace, hrun, hserved, hverified, hallowed⟩

end Startup
