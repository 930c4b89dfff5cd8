import Mathlib.Data.List.Sort
import SupabaseUserMcp.FixedClient
import SupabaseUserMcp.Js.Base64
import SupabaseUserMcp.Js.JsonParse
import SupabaseUserMcp.Js.LossyUtf8
import SupabaseUserMcp.Process.Program

/- How the process comes up: `local-credential-loader.ts`, `createFixedSupabaseClient` and
   `verifyUserIdentity`, `createReadOnlyServer` and `stdio-startup.ts`, as one computation
   that asks its host for all it does. `new URL` is a parameter. -/
namespace Startup

open Js
open FixedClient (ClientErrorCode Thrown requestError)
open Process (Program)

/-! ## The host -/

/-- Why `open` fails, by the code of its error: `ENOENT`, `ELOOP` or another. -/
inductive OpenError where
  | missing
  | loop
  | other
  deriving DecidableEq

structure Metadata where
  isFile : Bool
  size : ℕ
  mode : ℕ
  uid : ℕ

inductive PermissionInspection where
  | secure
  | insecure
  | unsupported
  deriving DecidableEq

/-- A body as it arrives: its chunks, and whether the stream fails after them. -/
structure Body where
  chunks : List Bytes
  fails : Bool

structure Upstream where
  redirected : Bool
  url : Text
  ok : Bool
  status : ℕ
  /-- `Number(headers.get('content-length'))`, where there is one. -/
  advertisedLength : Option Number
  body : Option Body

inductive Request where
  | openFile (path : Text) (noFollow : Bool)
  | stat
  | inspectPermission (path : Text) (mode ownerUid : ℕ)
  | read (limit : ℕ)
  | closeFile
  | now
  | fetch (url : Text) (headers : List (Text × Text))
  | cancelBody
  | signalAborted
  | registerTool (name : Text)
  | serveStdio
  | closeServer
  | stderr (message : Text)
  | setExitCode (code : ℕ)
  | onceSignal (signal : Text)

abbrev Reply : Request → Type
  | .openFile _ _ => Except OpenError Unit
  | .stat => Except Unit Metadata
  | .inspectPermission _ _ _ => Except Unit PermissionInspection
  | .read limit => Except Unit { chunk : Bytes // chunk.length ≤ limit }
  | .now => ℤ
  | .fetch _ _ => Except Unit Upstream
  | .cancelBody => Except Unit Unit
  | .signalAborted => Bool
  | .serveStdio => Except Unit Unit
  | _ => Unit

abbrev Hosted (α : Type) : Type := Program Request Reply α

def ask (request : Request) : Hosted (Reply request) := Program.request request

/-- `process.platform === 'win32'` and `process.getuid?.()`. -/
structure Host where
  windows : Bool
  currentUid : Option ℕ

/-! ## `local-credential-loader.ts` -/

inductive LocalCredentialErrorCode where
  | fileMissing
  | symlink
  | notFile
  | fileTooLarge
  | insecurePermissions
  | permissionCheckUnsupported
  | readFailed
  | malformed
  | schemaInvalid
  | blank
  | conflated
  | tokenInvalid
  | tokenExpired
  deriving DecidableEq

structure LocalCredentials where
  projectPublishableKey : Text
  userAccessToken : Text
  deriving DecidableEq

def maxCredentialBytes : ℕ := 16384

def defaultPermissionInspector (host : Host) (mode ownerUid : ℕ) : PermissionInspection :=
  if host.windows then .unsupported
  else match host.currentUid with
  | none => .unsupported
  | some currentUid =>
    if ownerUid = currentUid ∧ mode &&& 0o077 = 0 then .secure else .insecure

/-- `s.split('.')`. -/
def splitDots (s : Text) : List Text := s.splitOn 0x2E

/-- The payload of a token: `Buffer.from(parts[1], 'base64url')`, parsed. -/
def tokenPayload (part : Text) : Option Value := jsonParse (decodeLossy (fromBase64 part))

def parseTokenExpiry (token : Text) : Except LocalCredentialErrorCode ℤ :=
  let parts := splitDots token
  if parts.length ≠ 3 || parts.any (·.isEmpty) then .error .tokenInvalid
  else match tokenPayload (parts.getD 1 []) with
  | some (.object payload) =>
    match Value.property payload (text "exp") with
    | some (.number (.finite exp)) =>
      if Number.isSafeInteger (.finite exp) then .ok exp.num else .error .tokenInvalid
    | _ => .error .tokenInvalid
  | _ => .error .tokenInvalid

/-- `Object.keys(record).sort()`. -/
def sortedKeys (record : List (Text × Value)) : List Text :=
  (record.map Prod.fst).insertionSort fun left right => left ≤ right

def credentialKeys : List Text := [text "projectPublishableKey", text "userAccessToken"]

/-- What a body says, and when its token expires. -/
def parseCredentials (body : Text) : Except LocalCredentialErrorCode (LocalCredentials × ℤ) :=
  match jsonParse body with
  | none => .error .malformed
  | some (.object record) =>
    if sortedKeys record ≠ credentialKeys then .error .schemaInvalid
    else match Value.property record (text "projectPublishableKey"),
        Value.property record (text "userAccessToken") with
    | some (.string key), some (.string token) => do
      let projectPublishableKey := trim key
      let userAccessToken := trim token
      throwIf (projectPublishableKey.isEmpty || userAccessToken.isEmpty) .blank
      throwIf (projectPublishableKey = userAccessToken ||
        (splitDots projectPublishableKey).length = 3) .conflated
      let expiresAt ← parseTokenExpiry userAccessToken
      return (⟨projectPublishableKey, userAccessToken⟩, expiresAt)
    | _, _ => .error .schemaInvalid
  | some _ => .error .schemaInvalid

/-- The loop that fills the buffer, of one byte more than a file may have. -/
def readFile (bytes : Bytes) : Hosted (Except LocalCredentialErrorCode Bytes) :=
  if bytes.length < maxCredentialBytes + 1 then
    .ask (.read (maxCredentialBytes + 1 - bytes.length)) fun
      | .error _ => .done (.error .readFailed)
      | .ok chunk =>
        if chunk.1 = [] then .done (.ok bytes) else readFile (bytes ++ chunk.1)
  else .done (.ok bytes)
termination_by maxCredentialBytes + 1 - bytes.length
decreasing_by
  rename_i hshort hchunk
  have hpos := List.length_pos_of_ne_nil hchunk
  rw [List.length_append]
  omega

structure LoaderOptions where
  host : Host
  /-- A `permissionInspector` is given. -/
  permissionInspector : Bool

def inspectPermission (options : LoaderOptions) (path : Text) (metadata : Metadata) :
    Hosted (Except Unit PermissionInspection) :=
  if options.permissionInspector then ask (.inspectPermission path metadata.mode metadata.uid)
  else return .ok (defaultPermissionInspector options.host metadata.mode metadata.uid)

def readContents : Hosted (Except LocalCredentialErrorCode Text) := do
  match ← readFile [] with
  | .error code => return .error code
  | .ok bytes =>
    if maxCredentialBytes < bytes.length then return .error .fileTooLarge
    return .ok (decodeLossy bytes)

/-- The `try` block from the permissions on. -/
def readPermitted : Except Unit PermissionInspection →
    Hosted (Except LocalCredentialErrorCode Text)
  | .error _ | .ok .unsupported => return .error .permissionCheckUnsupported
  | .ok .insecure => return .error .insecurePermissions
  | .ok .secure => readContents

/-- The `try` block: the handle is open and whatever happens it is closed after. -/
def readBody (options : LoaderOptions) (path : Text) :
    Hosted (Except LocalCredentialErrorCode Text) := do
  match ← ask .stat with
  | .error _ => return .error .readFailed
  | .ok metadata =>
    if !metadata.isFile then return .error .notFile
    if maxCredentialBytes < metadata.size then return .error .fileTooLarge
    readPermitted (← inspectPermission options path metadata)

/-- After the handle is closed. -/
def acceptCredentials : Except LocalCredentialErrorCode (LocalCredentials × ℤ) →
    Hosted (Except LocalCredentialErrorCode LocalCredentials)
  | .error code => return .error code
  | .ok (credentials, expiresAt) => do
    -- `Math.floor(now() / 1000)`
    if expiresAt ≤ (← ask .now) / 1000 then return .error .tokenExpired
    return .ok credentials

def loadLocalCredentials (options : LoaderOptions) (startupPath : Text) :
    Hosted (Except LocalCredentialErrorCode LocalCredentials) := do
  match ← ask (.openFile startupPath (!options.host.windows)) with
  | .error .missing => return .error .fileMissing
  | .error .loop => return .error .symlink
  | .error .other => return .error .readFailed
  | .ok _ =>
    let body ← readBody options startupPath
    ask .closeFile
    acceptCredentials (body >>= parseCredentials)

/-! ## `fixed-supabase-client.ts` -/

structure ParsedUrl where
  protocol : Text
  origin : Text
  username : Text
  password : Text

structure FixedSupabaseClientConfig where
  origin : Text
  credentials : LocalCredentials
  timeoutMs : Option Number
  maxResponseBytes : Option Number

/-- The client that a configuration makes. -/
structure FixedSupabaseClient where
  origin : Text
  key : Text
  token : Text
  maxResponseBytes : ℕ

def defaultTimeoutMs : ℕ := 5000
def maxTimeoutMs : ℕ := 10000
def defaultMaxResponseBytes : ℕ := 262144
def maxResponseBytes : ℕ := 1048576

def boundedInteger (value : Number) (maximum : ℕ) : Bool :=
  value.isSafeInteger && value.gt (0 : ℕ) && value.le (maximum : ℕ)

def createFixedSupabaseClient (parseUrl : Text → Option ParsedUrl)
    (config : FixedSupabaseClientConfig) : Except ClientErrorCode FixedSupabaseClient :=
  match parseUrl config.origin with
  | none => .error .invalidCredential
  | some parsedOrigin => do
    throwIf (parsedOrigin.protocol ≠ text "https:" || parsedOrigin.origin ≠ config.origin ||
      parsedOrigin.username ≠ [] || parsedOrigin.password ≠ []) .invalidCredential
    let key := trim config.credentials.projectPublishableKey
    let token := trim config.credentials.userAccessToken
    throwIf (key.isEmpty || token.isEmpty || key = token || (splitDots key).length = 3 ||
      (splitDots token).length ≠ 3) .invalidCredential
    let timeoutMs := config.timeoutMs.getD (defaultTimeoutMs : ℕ)
    let responseBytes := config.maxResponseBytes.getD (defaultMaxResponseBytes : ℕ)
    throwIf (!boundedInteger timeoutMs maxTimeoutMs || !boundedInteger responseBytes maxResponseBytes)
      .invalidCredential
    return ⟨parsedOrigin.origin, key, token, responseBytes.toNat⟩

namespace FixedSupabaseClient

variable (client : FixedSupabaseClient)

/-- `${parsedOrigin.origin}${FIXED_USER_PATH}`. -/
def userUrl : Text := client.origin ++ text "/auth/v1/user"

def authHeaders : List (Text × Text) :=
  [(text "Accept", text "application/json"),
    (text "Authorization", text "Bearer" ++ text " " ++ client.token),
    (text "apikey", client.key)]

end FixedSupabaseClient

def isHexUnit (u : UInt16) : Bool := (hexValue u).isSome

/-- `UUID`, of either case. -/
def isUuid (s : Text) : Bool :=
  match s.splitOn 0x2D with
  | [a, b, c, d, e] =>
    a.length = 8 && b.length = 4 && c.length = 4 && d.length = 4 && e.length = 12 &&
      (a ++ b ++ c ++ d ++ e).all isHexUnit &&
      c.head?.any (fun u => 0x31 ≤ u && u ≤ 0x35) && d.head?.any (text "89abAB").contains
  | _ => false

structure VerifiedUserIdentity where
  principalId : Text

/-- `JSON.parse(body)` as an identity. -/
def userIdentity (body : Bytes) : Except ClientErrorCode VerifiedUserIdentity :=
  match jsonParse (decodeLossy body) with
  | some (.object user) =>
    match Value.property user (text "id"), Value.property user (text "aud") with
    | some (.string id), some (.string aud) =>
      if isUuid id && aud = text "authenticated" then .ok ⟨id⟩ else .error .malformedResponse
    | _, _ => .error .malformedResponse
  | _ => .error .malformedResponse

/-- Why a response is refused before its body is read. -/
def identityRefusal (client : FixedSupabaseClient) (upstream : Upstream) :
    Option ClientErrorCode :=
  if upstream.redirected || (upstream.url ≠ [] && upstream.url ≠ client.userUrl) then
    some .invalidCredential
  else if !upstream.ok then
    some (if upstream.status = 401 ∨ upstream.status = 403 then .invalidCredential
      else .upstreamStatus)
  else match upstream.advertisedLength with
  | some length => if length.gt (client.maxResponseBytes : ℕ) then some .responseTooLarge else none
  | none => none

/-- `readBoundedBody`, after what was read. -/
def readBoundedBody (maximum : ℕ) (fails : Bool) : Bytes → List Bytes →
    Hosted (Except Thrown Bytes)
  | bytes, [] => return if fails then .error .other else .ok bytes
  | bytes, chunk :: rest =>
    if maximum < bytes.length + chunk.length then do
      match ← ask .cancelBody with
      | .error _ => return .error .other
      | .ok _ => return .error (.client .responseTooLarge)
    else readBoundedBody maximum fails (bytes ++ chunk) rest

/-- The body of a response that is not refused. -/
def readIdentityBody (client : FixedSupabaseClient) : Option Body → Hosted (Except Thrown Bytes)
  | none => return .ok []
  | some body => readBoundedBody client.maxResponseBytes body.fails [] body.chunks

def readIdentity (client : FixedSupabaseClient) (upstream : Upstream) :
    Hosted (Except Thrown VerifiedUserIdentity) :=
  match identityRefusal client upstream with
  | some code => return .error (.client code)
  | none => do
    let body ← readIdentityBody client upstream.body
    return body >>= fun bytes => (userIdentity bytes).mapError .client

/-- The `try` block of `verifyUserIdentity`. -/
def fetchIdentity (client : FixedSupabaseClient) :
    Hosted (Except Thrown VerifiedUserIdentity) := do
  match ← ask (.fetch client.userUrl client.authHeaders) with
  | .error _ => return .error .other
  | .ok upstream => readIdentity client upstream

/-- Its `catch`. -/
def catchIdentity : Except Thrown VerifiedUserIdentity →
    Hosted (Except ClientErrorCode VerifiedUserIdentity)
  | .ok identity => return .ok identity
  | .error (.client code) => return .error code
  | .error .other => return .error (requestError (← ask .signalAborted) .other)

def verifyUserIdentity (client : FixedSupabaseClient) :
    Hosted (Except ClientErrorCode VerifiedUserIdentity) := do
  catchIdentity (← fetchIdentity client)

/-! ## `server.ts` -/

def memoryToolNames : List Text :=
  [text "memory_search", text "memory_get", text "memory_list_recent"]

def draftToolNames : List Text := [text "memory_retrieve", text "session_capabilities_get"]

def artifactToolNames : List Text :=
  [text "artifact_stat", text "artifact_read_range", text "artifact_read_lines",
    text "artifact_read_heading", text "artifact_search_exact"]

structure ReadOnlyServerOptions where
  registerDraftTwoTools : Bool
  /-- `prepareArtifactMcpRegistration` of the registration that is given. -/
  artifactRegistration : Option (VerifiedUserIdentity → Except Unit Unit)

/-- The tools in the order in which they are registered. -/
def ReadOnlyServerOptions.toolNames (options : ReadOnlyServerOptions) : List Text :=
  memoryToolNames ++ (if options.registerDraftTwoTools then draftToolNames else []) ++
    if options.artifactRegistration.isSome then artifactToolNames else []

def registerTools : List Text → Hosted Unit
  | [] => return ()
  | name :: rest => do
    ask (.registerTool name)
    registerTools rest

inductive StartupError where
  | invalidConfiguration
  | credential (code : LocalCredentialErrorCode)
  | client (code : ClientErrorCode)
  | invalidIdentity
  | artifactRegistration
  | transport
  deriving DecidableEq

structure ReadOnlyServer where
  principalId : Text
  toolNames : List Text

/-- `createReadOnlyServer` from the identity on. -/
def buildServer (options : ReadOnlyServerOptions) : Except ClientErrorCode VerifiedUserIdentity →
    Hosted (Except StartupError ReadOnlyServer)
  | .error code => return .error (.client code)
  | .ok identity =>
    if !isUuid identity.principalId then return .error .invalidIdentity
    else match options.artifactRegistration.elim (.ok ()) (· identity) with
    | .error _ => return .error .artifactRegistration
    | .ok _ => do
      registerTools options.toolNames
      return .ok ⟨identity.principalId, options.toolNames⟩

def createReadOnlyServer (client : FixedSupabaseClient) (options : ReadOnlyServerOptions) :
    Hosted (Except StartupError ReadOnlyServer) := do
  buildServer options (← verifyUserIdentity client)

/-! ## `stdio-startup.ts` -/

/-- The arguments of the process, and its two variables where they are set. -/
structure Environment where
  argv : List Text
  origin : Option Text
  credentialFile : Option Text

/-- The options of the server that the process serves. -/
def stdioServerOptions : ReadOnlyServerOptions := ⟨false, none⟩

/-- The variables, where neither is missing or blank. -/
def Environment.configuration (env : Environment) : Option (Text × Text) :=
  match env.argv, env.origin, env.credentialFile with
  | [], some origin, some credentialFile =>
    if (trim origin).isEmpty || (trim credentialFile).isEmpty then none
    else some (origin, credentialFile)
  | _, _, _ => none

/-- `dependencies.serveStdio`, and `server.close` where it throws. -/
def serveServer : Except StartupError ReadOnlyServer →
    Hosted (Except StartupError ReadOnlyServer)
  | .error e => return .error e
  | .ok server => do
    match ← ask .serveStdio with
    | .ok _ => return .ok server
    | .error _ =>
      ask .closeServer
      return .error .transport

section

variable (parseUrl : Text → Option ParsedUrl) (host : Host)

/-- The start from the credentials on. -/
def startWithCredentials (origin : Text) : Except LocalCredentialErrorCode LocalCredentials →
    Hosted (Except StartupError ReadOnlyServer)
  | .error code => return .error (.credential code)
  | .ok credentials =>
    match createFixedSupabaseClient parseUrl ⟨origin, credentials, none, none⟩ with
    | .error code => return .error (.client code)
    | .ok client => do serveServer (← createReadOnlyServer client stdioServerOptions)

def startReadOnlyStdioFromEnvironment (env : Environment) :
    Hosted (Except StartupError ReadOnlyServer) :=
  match env.configuration with
  | none => return .error .invalidConfiguration
  | some (origin, credentialFile) => do
    startWithCredentials parseUrl origin (← loadLocalCredentials ⟨host, false⟩ credentialFile)

def stdioStartupFailureMessage : Text := text "Supabase User MCP failed to start."
def stdioTransportFailureMessage : Text := text "Supabase User MCP stdio transport failed."
def stdioShutdownFailureMessage : Text := text "Supabase User MCP failed to close cleanly."
def stdioReadyMessage : Text := text "Supabase User MCP read-only stdio server ready."
def windowsUnsupportedProfileMessage : Text :=
  text "Supabase User MCP POSIX credential-permission profile is unavailable on Windows."

/-- `runReadOnlyStdioCli` after the start, and whether the server is up. -/
def reportStart : Except StartupError ReadOnlyServer → Hosted Bool
  | .error _ => do
    ask (.stderr stdioStartupFailureMessage)
    ask (.setExitCode 1)
    return false
  | .ok _ => do
    ask (.stderr stdioReadyMessage)
    ask (.onceSignal (text "SIGINT"))
    ask (.onceSignal (text "SIGTERM"))
    return true

def runReadOnlyStdioCli (env : Environment) : Hosted Bool := do
  if host.windows then
    ask (.stderr windowsUnsupportedProfileMessage)
    ask (.setExitCode 1)
    return false
  reportStart (← startReadOnlyStdioFromEnvironment parseUrl host env)

end

end Startup
