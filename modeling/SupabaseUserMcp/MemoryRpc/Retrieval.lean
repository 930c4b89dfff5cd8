import SupabaseUserMcp.MemoryRpc.Wire

/- A retrieval over the database. Whatever happens to the client's calls, what it tells of
   the memories is so by the tables themselves: a hit is one that the caller may read and
   search and that matches, the only one where there was no cursor, and where it tells of
   no match there is none. -/
namespace MemoryRpc

open Sql PolicyLab
open Js (Platform Value)
open DefensiveRetrieval
open ReadTools (memorySearchInputSchema stringOf)
open Process (Along execute play)

/-- The client's method behind a tool. -/
def readOf : Tool → FixedClient.MemoryRead
  | .search => .search
  | .get => .get

/-- What the client's promise of a call settles with when nothing fails on the way. -/
def Wire.dispatch {deployment : Deployment} (wire : Wire deployment) (platform : Platform) :
    Dispatch → ClientReply
  | ⟨.search, input⟩ => .searched ((wire.reply platform .search input).mapError .client)
  | ⟨.get, input⟩ => .got ((wire.reply platform .get input).mapError .client)

/-- What the client's promise of a call may settle with. -/
inductive Deployment.Answers (deployment : Deployment) (platform : Platform) :
    Dispatch → ClientReply → Prop
  | replied (wire : Wire deployment) (call : Dispatch) :
    deployment.Answers platform call (wire.dispatch platform call)
  | searchFailed (call : Dispatch) (cause : Cause) :
    deployment.Answers platform call (.searched (.error cause))
  | getFailed (call : Dispatch) (cause : Cause) :
    deployment.Answers platform call (.got (.error cause))

/-- A memory that a search may return, by the tables themselves. -/
structure Deployment.Candidate (deployment : Deployment) (terms : SearchTerms) (m : Memory) :
    Prop where
  stored : m ∈ deployment.tables.memories
  read : (activeContext deployment.tables.unfiltered deployment.session .read m.workspaceId).Holds
  matched : SearchMatch deployment.server deployment.tables deployment.session terms.query
    terms.filters m

/-- What an output tells of the memories is so. -/
structure Deployment.Truthful (deployment : Deployment) (input output : Value) : Prop where
  found : stringOf "outcome" output = some Outcome.found.name →
    ∃ query terms m, stringOf "lastSearchQuery" output = some query ∧
      deployment.gateway.termsOf (termsOf query input) = some terms ∧
      resultRecord output = some (clientRow deployment.server m).record ∧
      deployment.Candidate terms m ∧
      (stringOf "cursor" input = none → ∀ m', deployment.Candidate terms m' → m' = m)
  noMatch : stringOf "outcome" output = some Outcome.noMatchWithinSearchedScope.name →
    ∃ query terms, stringOf "lastSearchQuery" output = some query ∧
      deployment.gateway.termsOf (termsOf query input) = some terms ∧
      (stringOf "cursor" input = none → ∀ m, ¬ deployment.Candidate terms m)

namespace Deployment

section Answering

variable {deployment : Deployment} {platform : Platform}

/-- A search that is served is one that the database returned a page for. -/
theorem served_of_reply {read : FixedClient.MemoryRead} (wire : Wire deployment) {input : Value}
    {answer : FixedClient.Answer read} (hread : read ≠ .listRecent)
    (hinput : (read.tool.descriptor platform).inputSchema input = some input)
    (h : wire.reply platform read input = .ok answer) :
    (∃ json, deployment.answer read input = .ok json) ∧ deployment.Serves read input answer := by
  have hsettles := wire.settles_reply platform input fun hrecent => absurd hrecent hread
  rw [h] at hsettles
  cases hsettles with
  | served hsome hanswer _ hserves =>
    obtain rfl := Option.some.inj (hinput.symm.trans hsome)
    exact ⟨⟨_, hanswer⟩, hserves⟩

theorem inputSchema_of_eq_some {tool : Tool} {input data : Value}
    (h : tool.inputSchema platform input = some data) :
    tool.inputSchema platform data = some data := by
  cases tool with
  | search => exact ReadTools.stable_memorySearchInputSchema platform _ _ h
  | get => exact ReadTools.stable_memoryGetInputSchema _ _ h

theorem faithful_dispatch (wire : Wire deployment) {call : Dispatch}
    (hinput : call.tool.inputSchema platform call.input = some call.input) :
    deployment.snapshot.Faithful call (wire.dispatch platform call) := by
  obtain ⟨tool, input⟩ := call
  cases tool with
  | search =>
    rw [Wire.dispatch]
    cases hreply : wire.reply platform .search input with
    | error _ => trivial
    | ok answer =>
      exact (@served_of_reply _ _ .search wire input answer (by decide) hinput hreply).2
  | get =>
    rw [Wire.dispatch]
    cases hreply : wire.reply platform .get input with
    | error _ => trivial
    | ok answer => exact (@served_of_reply _ _ .get wire input answer (by decide) hinput hreply).2

theorem Answers.faithful {call : Dispatch} {reply : ClientReply}
    (hinput : call.tool.inputSchema platform call.input = some call.input)
    (h : deployment.Answers platform call reply) : deployment.snapshot.Faithful call reply := by
  cases h with
  | replied wire => exact faithful_dispatch wire hinput
  | searchFailed cause =>
    obtain ⟨tool, input⟩ := call
    cases tool with
    | search => trivial
    | get => trivial
  | getFailed cause =>
    obtain ⟨tool, input⟩ := call
    cases tool with
    | search => trivial
    | get => trivial

/-- What the database accepts is served, where the wire is wide enough. -/
theorem exists_dispatch {call : Dispatch} {data : Value}
    (hdata : call.tool.inputSchema platform call.input = some data)
    (h : (deployment.answer (readOf call.tool) data).toOption.isSome = true) :
    ∃ wire : Wire deployment,
      wire.dispatch platform call = deployment.snapshot.serve ⟨call.tool, data⟩ := by
  obtain ⟨tool, input⟩ := call
  obtain ⟨json, hjson⟩ := Option.isSome_iff_exists.mp h
  have hanswer := Js.eq_ok_of_toOption hjson
  let wire := Wire.stringified deployment
    (Js.encodeUtf8 (Js.stringify rankText (valueOf json))).length
  have hfits : wire.fits json = true :=
    (Wire.fits_stringified deployment _ json).trans (decide_eq_true le_rfl)
  refine ⟨wire, ?_⟩
  cases tool with
  | search =>
    obtain ⟨page, hreply, k, hposition, rfl⟩ :=
      @Wire.served_of_fits _ wire platform .search input data json (fun h => (by cases h)) hdata
        hanswer hfits
    rw [Wire.dispatch, hreply, DefensiveRetrieval.Snapshot.serve, hposition]
    rfl
  | get =>
    obtain ⟨row, hreply, rfl⟩ :=
      @Wire.served_of_fits _ wire platform .get input data json (fun h => (by cases h)) hdata
        hanswer hfits
    rw [Wire.dispatch, hreply, DefensiveRetrieval.Snapshot.serve]
    rfl

theorem mayReturn_faithful {tool : Tool} {input : Value} {output : Except Unit Value}
    (h : MayReturn platform (deployment.Answers platform) tool input output) :
    MayReturn platform deployment.snapshot.Faithful tool input output := by
  obtain hrefused | ⟨data, reply, toolAborted, hdata, htool, hreply, houtput⟩ := h
  · exact .inl hrefused
  · exact .inr ⟨data, reply, toolAborted, hdata, htool,
      hreply.faithful (inputSchema_of_eq_some hdata), houtput⟩

theorem candidate_iff {terms : SearchTerms} {m : Memory} : deployment.Candidate terms m ↔
    m ∈ deployment.tables.visibleMemories deployment.session ∧
      SearchMatch deployment.server deployment.tables deployment.session terms.query
        terms.filters m := by
  rw [mem_visibleMemories, hasActiveCapability, activeContext_secured]
  constructor
  · intro h
    exact ⟨⟨h.stored, h.read⟩, h.matched⟩
  · intro h
    exact ⟨h.1.1, h.1.2, h.2⟩

/-- Where the database returns a page, its results are the candidates. -/
theorem mem_results {input : Value} {json : Jsonb}
    (h : deployment.answer .search input = .ok json) :
    ∃ terms, deployment.gateway.termsOf (termsOf (queryOf input) input) = some terms ∧
      ∀ m, m ∈ deployment.results terms ↔ deployment.Candidate terms m := by
  obtain ⟨terms, cursor, page, hterms, -, hpage, -⟩ := answer_search h
  refine ⟨terms, hterms, fun m => ?_⟩
  rw [searchPage_eq] at hpage
  split at hpage
  · cases hpage
  · obtain ⟨rows, hrows, -⟩ := bind_eq_ok.mp hpage
    have heligible : searchEligible deployment.server deployment.tables deployment.session
      terms.query terms.filters = .ok rows := hrows
    rw [results, Keyset.mem_orderDesc, searchRows, candidate_iff, ← mem_searchEligible heligible,
      heligible]
    rfl

/-- A search that a call got an answer to is one that the database returned a page for. -/
theorem searched_page {input output : Value}
    (h : MayReturn platform (deployment.Answers platform) .search input (.ok output))
    (hok : isOk output = true) : ∃ data json, memorySearchInputSchema platform input = some data ∧
      deployment.answer .search data = .ok json := by
  obtain ⟨-, houtput⟩ | ⟨data, reply, toolAborted, hdata, htool, hreply, houtput⟩ := h
  · rw [Except.ok.inj houtput, isOk_createReadToolError] at hok
    cases hok
  · cases hreply with
    | searchFailed cause => cases (isOk_caught houtput.symm).symm.trans hok
    | getFailed cause => cases htool
    | replied wire =>
      rw [Wire.dispatch] at houtput
      cases hwire : wire.reply platform .search data with
      | error code =>
        rw [hwire] at houtput
        have hcaught : caught toolAborted (.client code) = .ok output := houtput.symm
        cases (isOk_caught hcaught).symm.trans hok
      | ok answer =>
        obtain ⟨json, hanswer⟩ :=
          (@served_of_reply _ _ .search wire data answer (by decide) (inputSchema_of_eq_some hdata)
            hwire).1
        exact ⟨data, json, hdata, hanswer⟩

end Answering

section Run

variable {deployment : Deployment} {platform : Platform} {unsafeInput input : Value}

theorem truthful_of_mem {output : Value} {outcome : Outcome}
    (hmem : outcome ∈ [Outcome.ambiguous, .partialResult, .error])
    (houtcome : stringOf "outcome" output = some outcome.name) :
    deployment.Truthful input output := by
  refine ⟨fun hfound => ?_, fun hnone => ?_⟩
  · obtain rfl := Outcome.name_injective (Option.some.inj (houtcome.symm.trans hfound))
    simp at hmem
  · obtain rfl := Outcome.name_injective (Option.some.inj (houtcome.symm.trans hnone))
    simp at hmem

theorem fails_truthful : Fails (deployment.Truthful input) :=
  ⟨fun _ => truthful_of_mem (List.mem_cons_of_mem _ (List.mem_cons_of_mem _ List.mem_cons_self)) rfl,
    fun _ _ => @truthful_of_mem _ _ _ .error (by simp) rfl⟩

/-- What is left of a search without a cursor is all candidates. -/
theorem candidates_of_remaining {terms : SearchTerms} {searchedTerms : Terms}
    {rest : List (Row × Js.Number)}
    (hterms : deployment.gateway.termsOf searchedTerms = some terms)
    (hresults : ∀ m, m ∈ deployment.results terms ↔ deployment.Candidate terms m)
    {cursor : Option Js.Text} (h : deployment.snapshot.remaining searchedTerms cursor = some rest) :
    (∀ p ∈ rest, ∃ m, deployment.Candidate terms m ∧ p = rankedRow deployment.server terms.query m) ∧
      (cursor = none → rest.length = (deployment.results terms).length) := by
  constructor
  · intro p hp
    have hmem := mem_of_remaining h p hp
    rw [snapshot_results hterms] at hmem
    obtain ⟨m, hm, rfl⟩ := List.mem_map.mp hmem
    exact ⟨m, (hresults m).mp hm, rfl⟩
  · rintro rfl
    obtain rfl : deployment.snapshot.results searchedTerms = rest := Option.some.inj h
    rw [snapshot_results hterms, List.length_map]

theorem resolves_truthful (hinput : memorySearchInputSchema platform unsafeInput = some input)
    {searched result : Value} {query : Js.Text} (hsearch : Searches platform unsafeInput searched query)
    (hreply : MayReturn platform (deployment.Answers platform) .search searched (.ok result))
    (hok : isOk result = true) :
    Resolves platform (deployment.Answers platform) (deployment.Truthful input) result query := by
  obtain ⟨data, json, hdata, hanswer⟩ := searched_page hreply hok
  obtain ⟨data', rest, hdata', hrest⟩ := foundRest_search (mayReturn_faithful hreply) hok
  obtain rfl : data = data' := Option.some.inj (hdata.symm.trans hdata')
  obtain ⟨terms, hterms, hresults⟩ := mem_results hanswer
  obtain ⟨heq, hcursors⟩ := termsOf_searches hinput hsearch hdata
  have hremaining := hrest.remaining
  rw [heq, hcursors] at hremaining
  rw [heq] at hterms
  obtain ⟨hcandidates, hall⟩ := candidates_of_remaining hterms hresults hremaining
  refine ⟨fun _ => ?_, fun hcursor hitems => ?_, fun _ _ => ?_, ?_⟩
  · exact @truthful_of_mem _ _ _ .partialResult (by simp) rfl
  · have hnil := hrest.items hcursor
    rw [hitems, List.forall₂_nil_right_iff] at hnil
    refine ⟨fun hfound => ?_, fun _ => ⟨query, terms, rfl, hterms, fun hnone m hm => ?_⟩⟩
    · cases Outcome.name_injective (Option.some.inj hfound)
    · have hlength := hall hnone
      rw [hnil] at hlength
      rw [← hresults, List.eq_nil_of_length_eq_zero hlength.symm] at hm
      cases hm
  · exact @truthful_of_mem _ _ _ .ambiguous (by simp) rfl
  · intro hcursor candidate exact hitems hget hexact
    have hone := hrest.items hcursor
    rw [hitems] at hone
    obtain ⟨p, others, hid, hothers, hcons⟩ := List.forall₂_cons_right_iff.mp hone
    obtain rfl := List.forall₂_nil_right_iff.mp hothers
    obtain ⟨m, hm, rfl⟩ := hcandidates p (by rw [hcons]; exact List.mem_singleton_self p)
    rw [hid] at hget
    obtain ⟨row, hrow, hrowid, rfl⟩ := found_get (mayReturn_faithful hget) hexact
    -- ids are unique, so the record is the hit
    obtain rfl : row = clientRow deployment.server m :=
      List.inj_on_of_nodup_map deployment.snapshot.nodup_ids hrow
        (List.mem_map_of_mem (candidate_iff.mp hm).1) hrowid
    refine ⟨fun _ => ⟨query, terms, m, rfl, hterms, rfl, hm, fun hnone m' hm' => ?_⟩, fun hmiss => ?_⟩
    · have hlength := hall hnone
      rw [hcons] at hlength
      obtain ⟨only, honly⟩ := List.length_eq_one_iff.mp hlength.symm
      rw [← hresults, honly, List.mem_singleton] at hm hm'
      rw [hm, hm']
    · cases Outcome.name_injective (Option.some.inj hmiss)

end Run

end Deployment

/-- Whatever happens to a retrieval, what it tells of the memories is so. -/
theorem retrieval_truthful (platform : Platform) (deployment : Deployment)
    (requestId unsafeInput input : Value) (aborted : Bool) (s₀ s : Execution) (labels : List Label)
    (output : Value) (hinput : memorySearchInputSchema platform unsafeInput = some input)
    (hstart : start platform requestId unsafeInput aborted = .ok s₀)
    (hclient : Along (step platform) (Answered (deployment.Answers platform)) s₀ labels)
    (h : execute (step platform) s₀ labels = some s) (hresult : s.result = some output) :
    deployment.Truthful input output := by
  have hrun : Yields platform (deployment.Answers platform) (Holds (deployment.Truthful input))
      (run platform requestId unsafeInput) :=
    yields_run Deployment.fails_truthful unsafeInput fun _ _ _ hsearch hreply hok =>
      Deployment.resolves_truthful hinput hsearch hreply hok
  obtain htruthful | rfl | rfl := result_of_execute hrun hstart hclient h hresult
  · exact htruthful output rfl
  · exact Deployment.fails_truthful.failure _
  · exact Deployment.fails_truthful.failure _

/-! ## A lab -/

/-- The next step of a call that nobody aborts, and that the database answers at once. -/
def Deployment.nextLabel (deployment : Deployment) (platform : Platform) (s : Execution) :
    Option Label :=
  match s.phase with
  | .pending _ _ => (lastCall s.log).bind fun call =>
      (call.tool.inputSchema platform call.input).bind fun data =>
        if (deployment.answer (readOf call.tool) data).toOption.isSome then
          some (.client (deployment.snapshot.serve ⟨call.tool, data⟩))
        else none
  | .answered _ _ | .returned _ _ => some .resume
  | .settled => if s.result.isNone then some .finish else none

theorem Deployment.answered_nextLabel {deployment : Deployment} {platform : Platform}
    {s : Execution} {label : Label} (h : deployment.nextLabel platform s = some label) :
    Answered (deployment.Answers platform) s label := by
  rw [nextLabel] at h
  split at h
  · obtain ⟨call, hcall, hlabel⟩ := Option.bind_eq_some_iff.mp h
    obtain ⟨data, hdata, hlabel⟩ := Option.bind_eq_some_iff.mp hlabel
    rw [Option.ite_none_right_eq_some] at hlabel
    obtain ⟨haccepted, hlabel⟩ := hlabel
    obtain rfl := Option.some.inj hlabel
    obtain ⟨wire, hwire⟩ := exists_dispatch hdata haccepted
    intro other hother
    obtain rfl : call = other := Option.some.inj (hcall.symm.trans hother)
    rw [← hwire]
    exact .replied wire call
  · cases h
    trivial
  · cases h
    trivial
  · split at h
    · cases h
      trivial
    · cases h

def labInput : Value := .object [Inspection.property "query" (.string (Js.text "network"))]

theorem retrieval_truthful_labInput : ∃ input output,
    memorySearchInputSchema Js.asciiPlatform labInput = some input ∧
    stringOf "outcome" output = some Outcome.found.name ∧ labDeployment.Truthful input output := by
  have hinput : (memorySearchInputSchema Js.asciiPlatform labInput).isSome = true := by
    decide
  obtain ⟨input, hinput⟩ := Option.isSome_iff_exists.mp hinput
  have hrun : ((start Js.asciiPlatform .null labInput false).toOption.bind fun s₀ =>
      (play (step Js.asciiPlatform) (labDeployment.nextLabel Js.asciiPlatform) 8 s₀).2.result.map
        (stringOf "outcome")) = some (some Outcome.found.name) := by
    decide +kernel
  obtain ⟨s₀, hstart, hrun⟩ := Option.bind_eq_some_iff.mp hrun
  obtain ⟨output, hresult, houtcome⟩ := Option.map_eq_some_iff.mp hrun
  obtain ⟨hexecute, halong⟩ := @Process.execute_play _ _ (step Js.asciiPlatform) _ _
    (@Deployment.answered_nextLabel labDeployment Js.asciiPlatform) 8 s₀
  exact ⟨input, output, hinput, houtcome, retrieval_truthful Js.asciiPlatform labDeployment .null
    labInput input false s₀ _ _ output hinput (Js.eq_ok_of_toOption hstart) halong hexecute hresult⟩

end MemoryRpc
