import SupabaseUserMcp.Js.JsonParse
import SupabaseUserMcp.Js.LossyUtf8
import SupabaseUserMcp.Js.Utf16
import SupabaseUserMcp.MemoryCall.Delivery
import SupabaseUserMcp.MemoryRpc.Serving

/- The client's reads of a deployment, from the check of their input to what they return. An
   answer goes to the client as a text, and one that is too long is refused unread. -/
namespace MemoryRpc

open Sql PolicyLab
open Js (Platform Value)
open FixedClient (Answer ClientErrorCode MemoryRead parsePayload)
open Inspection (property)
open Process (Along execute)

/-! ## Wires -/

/-- How a gateway writes its answers, the length it announces, and the client's bound. What
is written of an answer JSON.parse reads back. -/
structure Wire (deployment : Deployment) where
  maxResponseBytes : ℕ
  write : Jsonb → Js.Bytes
  contentLength : Jsonb → Option Js.Number
  parse_write : ∀ read input json, deployment.answer read input = .ok json →
    Js.jsonParse (Js.decodeLossy (write json)) = some (valueOf json)

namespace Wire

variable {deployment : Deployment} (wire : Wire deployment)

def client : FixedClient.Client where
  maxResponseBytes := wire.maxResponseBytes
  parseBody body := Js.jsonParse (Js.decodeLossy body)

def response : Except ℕ Jsonb → FixedClient.Response
  | .ok json => ⟨true, 200, wire.contentLength json, true⟩
  | .error status => ⟨false, status, none, true⟩

def body : Except ℕ Jsonb → Js.Bytes
  | .ok json => wire.write json
  | .error _ => []

/-- Neither the length that is announced nor the text goes over the bound. -/
def fits (json : Jsonb) : Bool :=
  (wire.contentLength json).all (fun length => !length.gt (wire.maxResponseBytes : ℕ)) &&
    decide ((wire.write json).length ≤ wire.maxResponseBytes)

/-- `searchMemoryRows`, `getMemoryRow` and `listRecentMemoryRows` where nothing fails on
the way. -/
def reply (platform : Platform) (read : MemoryRead) (unsafeInput : Value) :
    Except ClientErrorCode (Answer read) :=
  match (read.tool.descriptor platform).inputSchema unsafeInput with
  | none => .error .invalidRequest
  | some input => do
    let answer := deployment.answer read input
    let payload ← wire.client.receive (wire.response answer) (wire.body answer)
    parsePayload read input payload

/-- What a read comes to, by its input, the database and the length of the answer. -/
inductive Settles (platform : Platform) (read : MemoryRead) (unsafeInput : Value) :
    Except ClientErrorCode (Answer read) → Prop
  | invalidRequest : (read.tool.descriptor platform).inputSchema unsafeInput = none →
    Settles platform read unsafeInput (.error .invalidRequest)
  | refused {input : Value} {status : ℕ} :
    (read.tool.descriptor platform).inputSchema unsafeInput = some input →
    deployment.answer read input = .error status →
    Settles platform read unsafeInput
      (.error (if status = 400 then .invalidCursor else .upstreamStatus))
  | tooLarge {input : Value} {json : Jsonb} :
    (read.tool.descriptor platform).inputSchema unsafeInput = some input →
    deployment.answer read input = .ok json → wire.fits json = false →
    Settles platform read unsafeInput (.error .responseTooLarge)
  | served {input : Value} {json : Jsonb} {answer : Answer read} :
    (read.tool.descriptor platform).inputSchema unsafeInput = some input →
    deployment.answer read input = .ok json → wire.fits json = true →
    deployment.Serves read input answer → Settles platform read unsafeInput (.ok answer)

variable {wire}

/-- An answer that fits is served, and one that does not is too large. -/
theorem Settles.of_answer {platform : Platform} {read : MemoryRead} {unsafeInput input : Value}
    {json : Jsonb} {result : Except ClientErrorCode (Answer read)}
    (h : wire.Settles platform read unsafeInput result)
    (hinput : (read.tool.descriptor platform).inputSchema unsafeInput = some input)
    (hanswer : deployment.answer read input = .ok json) :
    if wire.fits json then ∃ answer, result = .ok answer ∧ deployment.Serves read input answer
    else result = .error .responseTooLarge := by
  cases h with
  | invalidRequest hnone => cases hinput.symm.trans hnone
  | refused hsome herror =>
    obtain rfl := Option.some.inj (hinput.symm.trans hsome)
    cases hanswer.symm.trans herror
  | tooLarge hsome hok hfits =>
    obtain rfl := Option.some.inj (hinput.symm.trans hsome)
    obtain rfl := Except.ok.inj (hanswer.symm.trans hok)
    rw [hfits]
    rfl
  | served hsome hok hfits hserves =>
    obtain rfl := Option.some.inj (hinput.symm.trans hsome)
    obtain rfl := Except.ok.inj (hanswer.symm.trans hok)
    rw [if_pos hfits]
    exact ⟨_, rfl, hserves⟩

variable (wire)

theorem receive_of_error (status : ℕ) :
    wire.client.receive (wire.response (.error status)) (wire.body (.error status)) =
      .error (if status = 400 then .invalidCursor else .upstreamStatus) := rfl

theorem receive_of_ok {read : MemoryRead} {input : Value} {json : Jsonb}
    (h : deployment.answer read input = .ok json) :
    wire.client.receive (wire.response (.ok json)) (wire.body (.ok json)) =
      if wire.fits json then .ok (valueOf json) else .error .responseTooLarge := by
  have hrefusal : wire.client.refusal (wire.response (.ok json)) =
      if (wire.contentLength json).all fun length => !length.gt (wire.maxResponseBytes : ℕ) then none
      else some .responseTooLarge := by
    rw [FixedClient.Client.refusal]
    cases hlength : wire.contentLength json with
    | none => simp [response, hlength]
    | some length =>
      by_cases hlarge : length.gt (wire.maxResponseBytes : ℕ) = true
      · simp [response, hlength, client, hlarge]
      · simp [response, hlength, client, hlarge]
  have hparse : wire.client.parseBody (wire.body (.ok json)) = some (valueOf json) :=
    wire.parse_write read input json h
  -- the announced length is looked at first, and the text only where it is not too long
  rw [FixedClient.Client.receive, hrefusal, fits]
  cases (wire.contentLength json).all fun length => !length.gt (wire.maxResponseBytes : ℕ) with
  | false => rfl
  | true =>
    rw [Bool.true_and, if_pos rfl]
    by_cases hlarge : wire.maxResponseBytes < (wire.write json).length
    · rw [decide_eq_false (Nat.not_le.mpr hlarge)]
      exact if_pos hlarge
    · rw [decide_eq_true (Nat.not_lt.mp hlarge), if_pos rfl]
      refine Eq.trans (if_neg hlarge) ?_
      rw [hparse]

/-- An answer that fits is served. -/
theorem served_of_fits {platform : Platform} {read : MemoryRead} {unsafeInput input : Value}
    {json : Jsonb} (hrecent : read = .listRecent → deployment.RecentCursors)
    (hinput : (read.tool.descriptor platform).inputSchema unsafeInput = some input)
    (hanswer : deployment.answer read input = .ok json) (hfits : wire.fits json = true) :
    ∃ answer, wire.reply platform read unsafeInput = .ok answer ∧
      deployment.Serves read input answer := by
  obtain ⟨answer, hparse, hserves⟩ := deployment.serves_of_answer hrecent hanswer
  refine ⟨answer, ?_, hserves⟩
  rw [reply, hinput]
  dsimp only
  rw [hanswer, wire.receive_of_ok hanswer, if_pos hfits, Js.ok_bind, hparse]

theorem settles_reply (platform : Platform) {read : MemoryRead} (unsafeInput : Value)
    (hrecent : read = .listRecent → deployment.RecentCursors) :
    wire.Settles platform read unsafeInput (wire.reply platform read unsafeInput) := by
  cases hinput : (read.tool.descriptor platform).inputSchema unsafeInput with
  | none =>
    rw [reply, hinput]
    exact .invalidRequest hinput
  | some input =>
    cases hanswer : deployment.answer read input with
    | error status =>
      rw [reply, hinput]
      dsimp only
      rw [hanswer, wire.receive_of_error]
      exact .refused hinput hanswer
    | ok json =>
      cases hfits : wire.fits json with
      | false =>
        rw [reply, hinput]
        dsimp only
        rw [hanswer, wire.receive_of_ok hanswer, hfits]
        exact .tooLarge hinput hanswer hfits
      | true =>
        obtain ⟨answer, hreply, hserves⟩ := wire.served_of_fits hrecent hinput hanswer hfits
        rw [hreply]
        exact .served hinput hanswer hfits hserves

/-- In whatever pieces a response arrives, a governed call of the client comes to its reply. -/
theorem answered_eq_reply {platform : Platform} (governed : MemoryCall.Governed platform)
    (hclient : governed.client = wire.client) {aborted : Bool}
    {s : MemoryCall.Execution governed.read} {labels : List MemoryCall.Label}
    {result : Except ClientErrorCode (Answer governed.read)}
    (hdelivers : Along (MemoryCall.step governed)
      (MemoryCall.Delivers (wire.response (deployment.answer governed.read governed.input))
        (wire.body (deployment.answer governed.read governed.input)))
      (MemoryCall.start governed aborted) labels)
    (h : execute (MemoryCall.step governed) (MemoryCall.start governed aborted) labels = some s)
    (hphase : s.phase = .answered result) :
    result = wire.reply platform governed.read governed.input := by
  have hbody : (wire.response (deployment.answer governed.read governed.input)).hasBody = false →
      wire.body (deployment.answer governed.read governed.input) = [] := by
    cases deployment.answer governed.read governed.input with
    | ok _ => exact fun hhas => (by cases hhas)
    | error _ => exact fun _ => rfl
  have harrives := MemoryCall.arrives_of_execute hbody hdelivers h
  rw [hphase, MemoryCall.Arrives, hclient] at harrives
  rw [harrives, reply, show (governed.read.tool.descriptor platform).inputSchema governed.input =
    some governed.input from MemoryCall.reparse_input governed]
  rfl

end Wire

/-- A read returns a page or a record of what the caller may read, and otherwise says which
of its input, the database and the length of the answer is to blame. -/
theorem serving_exact (platform : Platform) (deployment : Deployment) (wire : Wire deployment)
    (read : MemoryRead) (unsafeInput : Value)
    (hrecent : read = .listRecent → deployment.RecentCursors) :
    wire.Settles platform read unsafeInput (wire.reply platform read unsafeInput) :=
  wire.settles_reply platform unsafeInput hrecent

/-! ## A wire for every deployment -/

/-- The one rank that is no integer. -/
def rankText (_ : ℚ) : Js.Text := Js.text "0.75"

/-- `0.75`. -/
def threeQuarters : Js.NumberLiteral :=
  { Js.NumberLiteral.ofInt 0 with
    fraction := some ⟨Js.text "75", List.cons_ne_nil _ _, List.all_eq_true.mp rfl⟩ }

theorem legible_rankText : Js.Legible rankText (3 / 4) :=
  ⟨threeQuarters, by decide +kernel, by decide +kernel⟩

/-- A JSON value whose numbers are printed as they are read. -/
structure Printable (v : Value) : Prop where
  isJson : v.IsJson
  legible : ∀ q, v.HasNumber (.finite q) → Js.Legible rankText q

namespace Printable

theorem null : Printable .null := ⟨.null, fun _ h => (by cases h)⟩

theorem string (s : Js.Text) : Printable (.string s) := ⟨.string s, fun _ h => (by cases h)⟩

theorem rank (server : Server) (query : Text) (m : Memory) :
    Printable (.number (rankNumber server query m)) := by
  refine ⟨.number _, fun q h => ?_⟩
  cases h
  rw [MemoryRpc.rank]
  split
  · exact Js.legible_intCast rankText (n := 1) (by decide)
  · exact legible_rankText

theorem array {items : List Value} (h : ∀ v ∈ items, Printable v) : Printable (.array items) := by
  refine ⟨.array fun v hv => (h v hv).isJson, fun q hq => ?_⟩
  cases hq with
  | item hv hnumber => exact (h _ hv).legible q hnumber

theorem object {properties : List (Js.Text × Value)} (hnodup : (properties.map Prod.fst).Nodup)
    (horder : (properties.map Prod.fst).Pairwise fun first second => Js.precedes first second = true)
    (h : ∀ p ∈ properties, Printable p.2) : Printable (.object properties) := by
  refine ⟨.object hnodup horder fun p hp => (h p hp).isJson, fun q hq => ?_⟩
  cases hq with
  | property hp hnumber => exact (h _ hp).legible q hnumber

theorem searchRow (server : Server) (query : Text) (m : Memory) :
    Printable (valueOf (.buildObject (searchMembers server query m))) := by
  have hnodup : [Js.text "id", Js.text "rank", Js.text "title", Js.text "content",
    Js.text "createdAt", Js.text "provenanceSummary"].Nodup := by decide
  have horder : [Js.text "id", Js.text "rank", Js.text "title", Js.text "content",
    Js.text "createdAt", Js.text "provenanceSummary"].Pairwise
      fun first second => Js.precedes first second = true := by decide
  rw [valueOf_searchRow]
  refine object hnodup horder ?_
  simp only [List.forall_mem_cons]
  exact ⟨.string _, .rank server query m, .string _, .string _, .string _, .string _,
    List.forall_mem_nil _⟩

theorem row (server : Server) (m : Memory) : Printable (rowOf server m) := by
  have hnodup : [Js.text "id", Js.text "title", Js.text "content", Js.text "createdAt",
    Js.text "provenanceSummary"].Nodup := by decide
  have horder : [Js.text "id", Js.text "title", Js.text "content", Js.text "createdAt",
    Js.text "provenanceSummary"].Pairwise fun first second => Js.precedes first second = true := by
    decide
  rw [rowOf_eq]
  refine object hnodup horder ?_
  simp only [List.forall_mem_cons]
  exact ⟨.string _, .string _, .string _, .string _, .string _, List.forall_mem_nil _⟩

theorem page (page : Page) {members : Memory → List (Text × Jsonb)}
    (h : ∀ m, Printable (valueOf (.buildObject (members m)))) :
    Printable (valueOf (page.toJson members)) := by
  have hrows : Printable (.array (page.rows.map fun m => valueOf (.buildObject (members m)))) :=
    array (List.forall_mem_map.mpr fun m _ => h m)
  have hnext : Printable (valueOf (page.nextToken.elim Jsonb.null Jsonb.string)) := by
    cases page.nextToken with
    | none => exact null
    | some token => exact string _
  have hnodup : [Js.text "rows", Js.text "nextCursor"].Nodup := by decide
  have horder : [Js.text "rows", Js.text "nextCursor"].Pairwise
      fun first second => Js.precedes first second = true := by decide
  rw [valueOf_toJson]
  cases page.hasMore with
  | false =>
    exact object (List.nodup_singleton _) (List.pairwise_singleton _ _)
      (List.forall_mem_singleton.mpr hrows)
  | true =>
    refine object hnodup horder ?_
    simp only [if_true, List.forall_mem_cons]
    exact ⟨hrows, hnext, List.forall_mem_nil _⟩

theorem record (server : Server) (record : Option Memory) :
    Printable (valueOf (.buildObject [("record", record.elim .null fun m =>
      .buildObject (memoryMembers server m))])) := by
  rw [valueOf_record]
  refine object (List.nodup_singleton _) (List.pairwise_singleton _ _)
    (List.forall_mem_singleton.mpr ?_)
  cases record with
  | none => exact null
  | some m => exact row server m

theorem answer {deployment : Deployment} {read : MemoryRead} {input : Value} {json : Jsonb}
    (h : deployment.answer read input = .ok json) : Printable (valueOf json) := by
  cases read with
  | search =>
    obtain ⟨terms, -, page, -, -, -, rfl⟩ := Deployment.answer_search h
    exact .page page fun m => .searchRow deployment.server terms.query m
  | listRecent =>
    obtain ⟨-, -, page, -, -, -, rfl⟩ := Deployment.answer_listRecent h
    exact .page page fun m => .row deployment.server m
  | get =>
    obtain ⟨id, -, rfl⟩ := Deployment.answer_get h
    exact .record deployment.server _

theorem parse_stringify {v : Value} (h : Printable v) :
    Js.jsonParse (Js.decodeLossy (Js.encodeUtf8 (Js.stringify rankText v))) = some v := by
  have hdecoded := (Js.isUtf16_stringify h.isJson h.legible).decodeUtf8_encodeUtf8
  rw [Js.decodeLossy_of_decodeUtf8 hdecoded]
  exact Js.jsonParse_stringify rankText h.isJson h.legible

end Printable

/-- A gateway that writes as `JSON.stringify` does, with the length of what it writes. -/
def Wire.stringified (deployment : Deployment) (maxResponseBytes : ℕ) : Wire deployment where
  maxResponseBytes := maxResponseBytes
  write json := Js.encodeUtf8 (Js.stringify rankText (valueOf json))
  contentLength json := some ((Js.encodeUtf8 (Js.stringify rankText (valueOf json))).length : ℕ)
  parse_write _ _ _ h := (Printable.answer h).parse_stringify

theorem Wire.fits_stringified (deployment : Deployment) (maxResponseBytes : ℕ) (json : Jsonb) :
    (Wire.stringified deployment maxResponseBytes).fits json =
      decide ((Js.encodeUtf8 (Js.stringify rankText (valueOf json))).length ≤ maxResponseBytes) := by
  generalize hlength : (Js.encodeUtf8 (Js.stringify rankText (valueOf json))).length = length
  have hfits : (Wire.stringified deployment maxResponseBytes).fits json =
      (!Js.Number.gt (length : ℕ) (maxResponseBytes : ℕ) && decide (length ≤ maxResponseBytes)) := by
    rw [← hlength]
    rfl
  rw [hfits, Js.Number.gt_ofNat]
  by_cases hle : length ≤ maxResponseBytes
  · simp [hle]
  · simp [hle]

theorem Wire.length_stringified_pos {deployment : Deployment} {read : MemoryRead} {input : Value}
    {json : Jsonb} (h : deployment.answer read input = .ok json) :
    0 < (Js.encodeUtf8 (Js.stringify rankText (valueOf json))).length := by
  refine List.length_pos_iff.mpr fun hnil => ?_
  have hparse := (Printable.answer h).parse_stringify
  have hnone : Js.jsonParse (Js.decodeLossy []) = none := rfl
  rw [hnil, hnone] at hparse
  cases hparse

/-! ## A lab -/

/-- A caller with both capabilities in `alpha`, and a memory in another workspace. -/
def labSearched : Tables :=
  { labHidden with
    capabilityGrants := [⟨labUid, "smp-lab-inspector", "alpha", .read, .active, 1⟩,
      ⟨labUid, "smp-lab-inspector", "alpha", .search, .active, 1⟩] }

/-- The digest is that of the one text that the lab's search asks for. -/
def labHexServer : Server :=
  { labServer with
    md5 := fun text =>
      if text = "mem_01JTESTALPHA000000000001|2000-01-01 00:00:00+00|network" then
        "2c9a9bc091630879c4e18d384c3a2dc6"
      else "d41d8cd98f00b204e9800998ecf8427e" }

def labTextOf (s : Js.Text) : Option Text :=
  let text := String.ofList (Js.scalars s)
  if Js.text text = s then some text else none

/-- A gateway of texts without filters. -/
def labGateway : Gateway where
  textOf := labTextOf
  textOf_eq := by
    intro s text h
    rw [labTextOf, Option.ite_none_right_eq_some] at h
    obtain ⟨heq, htext⟩ := h
    rw [← Option.some.inj htext, heq]
  jsonbOf _ := none
  status _ := 400
  unreadable := 400

theorem visibleMemories_labSearched : labSearched.visibleMemories labSession =
    [labMemory "mem_01JTESTALPHA000000000001" "alpha" 0] := by decide

theorem isOpaqueCursor_labHexServer (text : Text) :
    FixedClient.isOpaqueCursor (Js.text ("cur_" ++ labHexServer.md5 text)) = true := by
  simp only [labHexServer]
  split
  · decide
  · decide

def labDeployment : Deployment where
  server := labHexServer
  tables := labSearched
  session := labSession
  gateway := labGateway
  cursors _ _ _ := isOpaqueCursor_labHexServer _
  distinct := by
    intro query m m' hm hm' h
    rw [visibleMemories_labSearched, List.mem_singleton] at hm hm'
    rw [hm, hm']

theorem recentCursors_labDeployment : labDeployment.RecentCursors where
  cursors _ _ := isOpaqueCursor_labHexServer _
  distinct := by
    intro m hm m' hm' _
    have hvisible : labDeployment.tables.visibleMemories labDeployment.session =
        [labMemory "mem_01JTESTALPHA000000000001" "alpha" 0] := visibleMemories_labSearched
    rw [hvisible, List.mem_singleton] at hm hm'
    rw [hm, hm']

/-- What a listing's first page holds. -/
def labRecent (input : Value) : List (Option Js.Text) × Option Js.Text :=
  let page := (labDeployment.listing (Js.fieldOf "filters" input)).page 0
    (FixedClient.limitOf input)
  (page.1.map (ReadTools.stringOf "id"), page.2)

/-- The recent memories of the lab's caller, over a wire as wide as the answer and over one
that is a byte too narrow. -/
theorem serving_exact_labDeployment : ∃ (json : Jsonb) (length : ℕ) (page : Answer .listRecent),
    (Js.encodeUtf8 (Js.stringify rankText (valueOf json))).length = length + 1 ∧
    page.1.map (ReadTools.stringOf "id") = [some (Js.text "mem_01JTESTALPHA000000000001")] ∧
    page.2 = none ∧
    (Wire.stringified labDeployment (length + 1)).reply Js.asciiPlatform .listRecent (.object []) =
      .ok page ∧
    (Wire.stringified labDeployment length).reply Js.asciiPlatform .listRecent (.object []) =
      .error .responseTooLarge := by
  have hrun : ((ReadTools.memoryListRecentInputSchema (.object [])).bind fun input =>
      (labDeployment.answer .listRecent input).toOption.map fun _ =>
        (ReadTools.stringOf "cursor" input, labRecent input)) =
      some (none, [some (Js.text "mem_01JTESTALPHA000000000001")], none) := by
    decide +kernel
  obtain ⟨input, hinput, hrun⟩ := Option.bind_eq_some_iff.mp hrun
  obtain ⟨json, hjson, hpage⟩ := Option.map_eq_some_iff.mp hrun
  obtain ⟨hcursor, hpage⟩ := Prod.mk.inj hpage
  obtain ⟨hids, hnext⟩ := Prod.mk.inj hpage
  have hanswer := Js.eq_ok_of_toOption hjson
  obtain ⟨length, hlength⟩ :=
    Nat.exists_eq_add_one_of_ne_zero (Wire.length_stringified_pos hanswer).ne'
  have hwide := (serving_exact Js.asciiPlatform labDeployment
    (Wire.stringified labDeployment (length + 1)) .listRecent (.object [])
    fun _ => recentCursors_labDeployment).of_answer hinput hanswer
  have hnarrow := (serving_exact Js.asciiPlatform labDeployment
    (Wire.stringified labDeployment length) .listRecent (.object [])
    fun _ => recentCursors_labDeployment).of_answer hinput hanswer
  rw [Wire.fits_stringified, hlength, if_pos (decide_eq_true le_rfl)] at hwide
  rw [Wire.fits_stringified, hlength, if_neg (by simp)] at hnarrow
  obtain ⟨page, hreply, k, hposition, rfl⟩ := hwide
  rw [hcursor] at hposition
  obtain rfl := Option.some.inj hposition
  exact ⟨json, length, _, hlength, hids, hnext, hreply, hnarrow⟩

end MemoryRpc
