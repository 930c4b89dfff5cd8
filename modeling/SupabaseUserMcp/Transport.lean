import SupabaseUserMcp.Inspector.Sizes
import SupabaseUserMcp.Inspector.Authenticity
import SupabaseUserMcp.Registration.Evidence

/- The transport of `server.ts`: every message of the session is measured, and one
   that is too large closes it. Results of artifact tools were measured before
   with a null id; the transport measures them with the id of their request. -/
namespace Transport

open Js Inspection Inspector Registration
open Process (Ensures Exchange Program Reachable Runs ensures_ask ensures_done)

def maxResponseBytes : ℕ := 65536
def maxRequestIdBytes : ℕ := 1024

section Frames

variable (platform : Platform)

def completeMcpFrameByteLength (message : Value) : ℕ :=
  utf8Length (stringify platform.fractionText message ++ [0x0A])

def requestIdByteLength : Value → ℕ
  | .object properties =>
    match Value.property properties (text "id") with
    | none => 0
    | some id => utf8Length ((stringify? platform.fractionText id).getD [])
  | _ => 0

def frameIsBounded (message : Value) : Bool :=
  completeMcpFrameByteLength platform message ≤ maxResponseBytes &&
    requestIdByteLength platform message ≤ maxRequestIdBytes

end Frames

/-! `BoundedReadOnlyTransport`. -/

/-- What the transport asks of the one inside it and of its owner. -/
inductive Request where
  | send (message : Value)
  | close
  | onmessage (message : Value)
  | onerror

abbrev Reply : Request → Type
  | .send _ => Except Unit Unit
  | .close => Except Unit Unit
  | .onmessage _ => Unit
  | .onerror => Unit

inductive SendError where
  | rangeError
  | inner
  deriving DecidableEq, Repr

def send (platform : Platform) (message : Value) : Program Request Reply (Except SendError Unit) :=
  if !frameIsBounded platform message then do
    match ← Program.request (R := Reply) .close with
    | .error _ => return .error .inner
    | .ok _ => return .error .rangeError
  else do
    match ← Program.request (R := Reply) (.send message) with
    | .error _ => return .error .inner
    | .ok _ => return .ok ()

/-- `inner.onmessage`. -/
def receive (platform : Platform) (message : Value) : Program Request Reply Unit :=
  if !frameIsBounded platform message then do
    match ← Program.request (R := Reply) .close with
    | .error _ => Program.request (R := Reply) .onerror
    | .ok _ => return ()
  else Program.request (R := Reply) (.onmessage message)

/-- Sending a message leaves the session open and is not refused. -/
def Survives (platform : Platform) (message : Value) : Prop :=
  frameIsBounded platform message = true ∧ Ensures (send platform message) fun trace result =>
    result ≠ .error .rangeError ∧ ∀ x ∈ trace, x.request ≠ .close

theorem survives_iff (platform : Platform) (message : Value) :
    Survives platform message ↔ frameIsBounded platform message = true := by
  refine ⟨And.left, fun h => ⟨h, ?_⟩⟩
  simp only [send, h, Bool.not_true, Bool.false_eq_true, if_false, Program.request_bind,
    ensures_ask]
  intro reply
  cases reply <;> exact ensures_done.mpr ⟨nofun, by simp⟩

/-- A message that comes in is handed on as it is where it is bounded, and only then. -/
theorem ensures_receive (platform : Platform) (message : Value) :
    Ensures (receive platform message) fun trace _ =>
      if frameIsBounded platform message then trace.map Exchange.request = [.onmessage message]
      else trace.map Exchange.request = [.close] ∨
        trace.map Exchange.request = [.close, .onerror] := by
  cases hbounded : frameIsBounded platform message with
  | true =>
    simp only [receive, hbounded, Bool.not_true, Bool.false_eq_true, if_false, if_true,
      Program.request, ensures_ask]
    exact fun _ => ensures_done.mpr rfl
  | false =>
    simp only [receive, hbounded, Bool.not_false, if_true, Bool.false_eq_true, if_false,
      Program.request_bind, ensures_ask]
    intro closed
    cases closed with
    | ok _ => exact ensures_done.mpr (.inl rfl)
    | error _ =>
      rw [Program.request, ensures_ask]
      exact fun _ => ensures_done.mpr (.inr rfl)

/-! Results of artifact tools. -/

/-- The call that `register` makes of a request. -/
def registeredCall (platform : Platform) (context : ArtifactInspectorTrustedContext)
    (operation : ArtifactInspectionOperation) (requestId input : Value) (startedAtMs : ℚ) :
    RegisteredCall where
  platform := platform
  operation := operation
  context := { context with
    requestCorrelationId := some (createArtifactRequestCorrelationRef platform requestId) }
  input := input
  startedAtMs := startedAtMs

/-- The message that answers a request. -/
def artifactResponse (platform : Platform) (requestId : Value) (output : InspectionOutput) : Value :=
  jsonRpcResponse requestId (createArtifactInspectionMcpResult platform output.toValue)

section Responses

variable {platform : Platform} {requestId : Value} {idJson : Text}

theorem exists_outputJson (fractionText : ℚ → Text) (output : InspectionOutput) :
    ∃ json, stringify? fractionText output.toValue = some json := by
  cases output <;> exact ⟨_, stringify?_object _ _⟩

theorem frameIsBounded_artifactResponse
    (hid : stringify? platform.fractionText requestId = some idJson)
    (haccepted : utf8Length idJson ≤ maxRequestIdBytes) (output : InspectionOutput) :
    frameIsBounded platform (artifactResponse platform requestId output) = true ↔
      artifactInspectionResponseByteLength platform .null output.toValue + utf8Length idJson ≤
        maxResponseBytes + 4 := by
  obtain ⟨json, hjson⟩ := exists_outputJson platform.fractionText output
  have hlength := responseByteLength_requestId hjson hid
  have hrequest : requestIdByteLength platform (artifactResponse platform requestId output) =
      utf8Length idJson := by
    have hkey : Value.property [property "jsonrpc" (.string (text "2.0")), property "id" requestId,
        property "result" (createArtifactInspectionMcpResult platform output.toValue)] (text "id") =
          some requestId := by
      simp +decide [Value.property, property]
    simp only [requestIdByteLength, artifactResponse, jsonRpcResponse, hkey, hid, Option.getD_some]
  have hframe : completeMcpFrameByteLength platform (artifactResponse platform requestId output) =
      artifactInspectionResponseByteLength platform requestId output.toValue := rfl
  rw [artifactInspectionRequestIdByteLength, stringify, hid, Option.getD_some] at hlength
  simp only [frameIsBounded, hframe, hrequest, Bool.and_eq_true, decide_eq_true_eq]
  omega

/-- What a call returns was measured with the null id. -/
theorem responseByteLength_returned {call : RegisteredCall} {s : State} {output : InspectionOutput}
    (hreachable : Reachable (step call) (initial call) s) (hreturned : s.returned = some output) :
    artifactInspectionResponseByteLength call.platform .null output.toValue ≤ maxResponseBytes := by
  have herror := responseByteLength_error call.platform
  cases (invariant_of_reachable hreachable).returned hreturned with
  | deadline => exact herror .deadlineExceeded
  | journalFailed => exact herror .internalError
  | own run =>
    cases ensures_inspect _ _ _ _ _ _ run with
    | refused h =>
      obtain ⟨-, code, -, houtput, -⟩ := h
      cases houtput
      exact herror code
    | concluded _ _ _ h =>
      cases h with
      | refused | failed => exact herror _
      | succeeded _ _ _ _ _ _ _ _ hfound =>
        obtain ⟨manifest, hres, hfounded⟩ := hfound
        exact of_decide_eq_true hfounded.within

end Responses

/-! A response at the ceiling. -/

/-- A control character is written as six units, and each of these again. -/
def controlSource : HostedSource where
  source := List.replicate 4906 0x01 ++ List.replicate 10 0x61
  chunkSize := 8192
  allowed := by decide
  bounded := by
    rw [List.length_append, List.length_replicate, List.length_replicate]
    decide

def controlText : Text := List.replicate 4906 0x01 ++ List.replicate 10 0x61

theorem length_controlSource : controlSource.source.length = 4916 := by
  rw [controlSource, List.length_append, List.length_replicate, List.length_replicate]

theorem responseByteLength_controlText (platform : Platform) :
    artifactInspectionResponseByteLength platform .null
      (controlSource.rangeOutput platform 0 controlSource.source.length controlText).toValue =
        maxResponseBytes := by
  have hlength := length_controlSource
  have hquotable : controlText.all isQuotable = true := by
    simp only [controlText, List.all_append, List.all_replicate]
    decide
  have hleaf : leafWeight controlText = 63798 := by
    simp only [controlText, leafWeight, List.map_append, List.map_replicate, List.sum_append,
      List.sum_replicate]
    decide
  rw [controlSource.responseByteLength_oneChunk platform (by omega)
    (by rw [hlength]; decide) hquotable, hlength, hleaf]
  decide

theorem decode_controlSource : decodeUtf8 (subarray controlSource.source 0 (0 + 4916)) =
    some controlText ∧ encodeUtf8 controlText = subarray controlSource.source 0 (0 + 4916) := by
  have hall : subarray controlSource.source 0 (0 + 4916) = controlSource.source := by
    rw [subarray, List.drop_zero, List.take_of_length_le]
    rw [length_controlSource]
  have hsmall : ∀ b ∈ controlSource.source, b < 0x80 := by
    intro b hb
    simp only [controlSource, List.mem_append, List.mem_replicate] at hb
    rcases hb with ⟨-, rfl⟩ | ⟨-, rfl⟩ <;> decide
  have htext : (controlSource.source.map fun b => UInt16.ofNat b.toNat) = controlText := by
    simp only [controlSource, controlText, List.map_append, List.map_replicate]
    rfl
  have hdecode := decodeUtf8_ascii hsmall
  rw [hall]
  exact ⟨htext ▸ hdecode, encodeUtf8_of_decodeUtf8 (htext ▸ hdecode)⟩

theorem authorizationIdentifierSchema_correlationRef (platform : Platform) (requestId : Value) :
    authorizationIdentifierSchema
      (.string (createArtifactRequestCorrelationRef platform requestId)) =
        some (createArtifactRequestCorrelationRef platform requestId) := by
  have hhex := platform.isLowerHex_sha256Hex
    (encodeUtf8 (stringify platform.fractionText requestId))
  rw [createArtifactRequestCorrelationRef]
  generalize platform.sha256Hex _ = hex at hhex
  simp only [isLowerHex, Bool.and_eq_true, beq_iff_eq, List.all_eq_true] at hhex
  have hunit : ∀ u, isLowerHexDigit u = true → isIdentifierUnit u = true := by
    intro u hu
    simp only [isLowerHexDigit, isIdentifierUnit, isVersionUnit, isOpaqueUnit, isAlphanumeric,
      isUpper, isLower, isDigit, Bool.or_eq_true, Bool.and_eq_true, decide_eq_true_eq,
      UInt16.le_iff_toNat_le, UInt16.reduceToNat] at hu ⊢
    omega
  have hleading : text "mcp_req:" = [0x6D, 0x63, 0x70, 0x5F, 0x72, 0x65, 0x71, 0x3A] := by decide
  have hall : hex.all isIdentifierUnit = true :=
    List.all_eq_true.mpr fun u hu => hunit u (hhex.2 u hu)
  refine Schema.refine_of (Schema.refine_of rfl ?_) ?_
  · simp [hleading, hhex.1]
  · simp only [hleading, List.cons_append, List.nil_append, Schema.headTail, List.all_cons, hall]
    decide

theorem validateRuntimeContext_correlated {ref : Text}
    (href : authorizationIdentifierSchema (.string ref) = some ref) :
    validateRuntimeContext (contextValue { trustedContext with requestCorrelationId := some ref }) =
      some { trustedContext with requestCorrelationId := some ref } := by
  have hoptional : authorizationIdentifierSchema.optional (.string ref) = some (some ref) := by
    simp [Schema.optional, href]
  have hfields : authorizationIdentifierSchema (.string trustedContext.principalRef) =
        some trustedContext.principalRef ∧
      authorizationIdentifierSchema (.string trustedContext.inspectorClientRef) =
        some trustedContext.inspectorClientRef ∧
      inspectorCapabilityRefSchema (.object
        [property "capability" (.string (text "artifact:inspect")),
          property "ref" (.string trustedContext.inspectorCapabilityRef)]) =
        some trustedContext.inspectorCapabilityRef ∧
      authorizationIdentifierSchema (.string trustedContext.verifierAudience) =
        some trustedContext.verifierAudience ∧
      boundedVersionStringSchema (.string trustedContext.policyVersion) =
        some trustedContext.policyVersion ∧
      gitCommitCoordinateSchema (.string trustedContext.inspectorDeploymentGitCoordinate) =
        some trustedContext.inspectorDeploymentGitCoordinate := by
    decide +kernel
  obtain ⟨hprincipal, hclient, hcapability, haudience, hpolicy, hcoordinate⟩ := hfields
  let context := { trustedContext with requestCorrelationId := some ref }
  let properties := contextProperties context ++
    [property "requestCorrelationId" (.string ref)]
  have hkeys : properties.map Prod.fst = [text "principalRef", text "inspectorClientRef",
      text "inspectorCapabilityRef", text "verifierAudience", text "policyVersion",
      text "inspectorDeploymentGitCoordinate", text "requestCorrelationId"] := rfl
  have hnodup : (properties.map Prod.fst).Nodup := by
    rw [hkeys]
    decide +kernel
  have hproperty : ∀ {key v} (i : ℕ), properties[i]? = some (key, v) →
      (Value.property properties key).getD .undefined = v := by
    intro key v i h
    rw [Value.property_of_getElem? hnodup h]
    rfl
  have hknown : (properties.all fun p => [text "principalRef", text "inspectorClientRef",
      text "inspectorCapabilityRef", text "verifierAudience", text "policyVersion",
      text "inspectorDeploymentGitCoordinate", text "requestCorrelationId"].contains p.1) =
        true := by
    rw [← hkeys, List.all_eq_true]
    exact fun p hp => List.contains_iff_mem.mpr (List.mem_map_of_mem hp)
  change artifactInspectorTrustedContextSchema (.object properties) = _
  simp only [artifactInspectorTrustedContextSchema, Schema.strictObject, hknown, if_true]
  rw [hproperty 0 rfl, hproperty 1 rfl, hproperty 2 rfl, hproperty 3 rfl, hproperty 4 rfl,
    hproperty 5 rfl, hproperty 6 rfl, hoptional]
  simp only [context, hprincipal, hclient, hcapability, haudience, hpolicy, hcoordinate]
  rfl

/-- Under any request id a call may return a response at the ceiling. -/
theorem exists_returned_ceiling (platform : Platform) (requestId : Value) :
    ∃ s output, Reachable
        (step (registeredCall platform trustedContext .artifactReadRange requestId
          (HostedSource.rangeInput 0 4916) 0))
        (initial (registeredCall platform trustedContext .artifactReadRange requestId
          (HostedSource.rangeInput 0 4916) 0)) s ∧ s.returned = some output ∧
      artifactInspectionResponseByteLength platform .null output.toValue = maxResponseBytes := by
  have hcontext := validateRuntimeContext_correlated
    (authorizationIdentifierSchema_correlationRef platform requestId)
  obtain ⟨hdecode, hencode⟩ := decode_controlSource
  have hlength := length_controlSource
  have hsize := responseByteLength_controlText platform
  rw [hlength] at hsize
  have hinside : 0 + 4916 ≤ controlSource.source.length := by omega
  have hrun := controlSource.run_artifactReadRange platform (by decide) (by decide) hinside hcontext
    hdecode (by rw [hsize]; decide)
  have hgated : ((registeredCall platform trustedContext .artifactReadRange requestId
      (HostedSource.rangeInput 0 4916) 0).inspection.run (gatedReply (controlSource.answer platform))).2
      = .ok (controlSource.rangeOutput platform 0 4916 controlText) := by
    rw [gatedReply_answer]
    exact hrun
  obtain ⟨s, hreachable, hreturned⟩ := exists_returned (controlSource.answer platform) hgated
  exact ⟨s, _, hreachable, hreturned, hsize⟩

/-- Every result of every call leaves the session open exactly when the JSON of the
request id is at most the four bytes that the null id stands for. -/
theorem survives_iff_requestId {platform : Platform} {requestId : Value} {idJson : Text}
    (hid : stringify? platform.fractionText requestId = some idJson)
    (haccepted : utf8Length idJson ≤ maxRequestIdBytes) :
    (∀ context operation input startedAtMs s output,
      Reachable (step (registeredCall platform context operation requestId input startedAtMs))
          (initial (registeredCall platform context operation requestId input startedAtMs)) s →
        s.returned = some output → Survives platform (artifactResponse platform requestId output)) ↔
      utf8Length idJson ≤ 4 := by
  constructor
  · intro hall
    obtain ⟨s, output, hreachable, hreturned, hsize⟩ := exists_returned_ceiling platform requestId
    have hsurvives := hall _ _ _ _ s output hreachable hreturned
    rw [survives_iff, frameIsBounded_artifactResponse hid haccepted, hsize] at hsurvives
    omega
  · intro hshort context operation input startedAtMs s output hreachable hreturned
    rw [survives_iff, frameIsBounded_artifactResponse hid haccepted]
    have hlimit := responseByteLength_returned hreachable hreturned
    change artifactInspectionResponseByteLength platform .null output.toValue ≤ _ at hlimit
    omega

theorem survives_iff_requestId_oneDigit :
    (∀ context operation input startedAtMs s output,
      Reachable (step (registeredCall asciiPlatform context operation (natValue 7) input startedAtMs))
          (initial (registeredCall asciiPlatform context operation (natValue 7) input startedAtMs))
          s →
        s.returned = some output →
          Survives asciiPlatform (artifactResponse asciiPlatform (natValue 7) output)) ↔
      utf8Length (text "7") ≤ 4 :=
  @survives_iff_requestId asciiPlatform (natValue 7) (text "7") (by decide +kernel) (by decide)

/-- Three letters are an id that closes the session. -/
theorem not_survives_threeLetters : ¬ ∀ context operation input startedAtMs s output,
    Reachable (step (registeredCall asciiPlatform context operation (.string (text "abc")) input
          startedAtMs))
        (initial (registeredCall asciiPlatform context operation (.string (text "abc")) input
          startedAtMs)) s →
      s.returned = some output →
        Survives asciiPlatform (artifactResponse asciiPlatform (.string (text "abc")) output) := by
  intro hall
  obtain ⟨s, output, hreachable, hreturned, hsize⟩ :=
    exists_returned_ceiling asciiPlatform (.string (text "abc"))
  have hsurvives := hall _ _ _ _ s output hreachable hreturned
  have hid : stringify? asciiPlatform.fractionText (.string (text "abc")) =
      some (quote (text "abc")) := rfl
  rw [survives_iff, frameIsBounded_artifactResponse hid (by decide), hsize] at hsurvives
  exact absurd hsurvives (by decide)

end Transport
