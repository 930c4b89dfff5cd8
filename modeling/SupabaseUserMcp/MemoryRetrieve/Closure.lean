import SupabaseUserMcp.DefensiveRetrieval.Results
import SupabaseUserMcp.MemoryRetrieve
import SupabaseUserMcp.ReadTools.Outputs

/- The mapping of `memory-retrieve.ts` is closed. None of its `INTERNAL_ERROR` branches is
   reached but by an internal error, and what it adds is refused only where the frame
   becomes too long. -/
namespace MemoryRetrieve

open Js ReadTools DefensiveRetrieval
open FixedClient (MemoryRead respond refusedCandidate)
open Inspection (property contentTrust)
open Process (Along execute)

/-! ## What a call returns -/

/-- The outputs of a call. -/
inductive IsOutput : Value → Prop
  | failure (code : ReadToolErrorCode) : IsOutput (failure code)
  | error (code : ReadToolErrorCode) (query : Text) :
    IsOutput (outputOf .error (createReadToolError code) query)
  | found {result : Value} {query : Text} : memoryGetSuccessSchema result = some result →
    query.length ≤ maxQueryLength → IsOutput (outputOf .found result query)
  | noMatch {result : Value} {query : Text} : memorySearchSuccessSchema result = some result →
    query.length ≤ maxQueryLength → itemsOf "items" result = [] →
    isDefined "nextCursor" result = false →
    IsOutput (outputOf .noMatchWithinSearchedScope result query)
  | ambiguous {result : Value} {query : Text} : memorySearchSuccessSchema result = some result →
    query.length ≤ maxQueryLength → 2 ≤ (itemsOf "items" result).length →
    isDefined "nextCursor" result = false → IsOutput (outputOf .ambiguous result query)
  | partialResult {result : Value} {query : Text} :
    memorySearchSuccessSchema result = some result → query.length ≤ maxQueryLength →
    isDefined "nextCursor" result = true → IsOutput (outputOf .partialResult result query)

/-! ## Queries -/

theorem length_trim_le (s : Text) : (trim s).length ≤ s.length :=
  (List.rdropWhile_prefix _ _).length_le.trans (List.dropWhile_suffix _).length_le

theorem length_collapseWhitespace_le (s : Text) :
    ∀ inside, (collapseWhitespace inside s).length ≤ s.length := by
  induction s with
  | nil => exact fun _ => le_rfl
  | cons u rest ih =>
    intro inside
    rw [collapseWhitespace]
    split_ifs
    · exact (ih true).trans (Nat.le_succ _)
    · exact Nat.succ_le_succ (ih true)
    · exact Nat.succ_le_succ (ih false)

theorem length_normalizedQuery_le (query : Text) :
    (normalizedQuery query).length ≤ query.length :=
  (length_trim_le _).trans (length_collapseWhitespace_le query false)

theorem length_query_le {platform : Platform} {v input : Value}
    (h : memorySearchInputSchema platform v = some input) :
    ((stringOf "query" input).getD []).length ≤ maxQueryLength := by
  obtain ⟨properties, w, parsed, rfl, ⟨u, hu⟩, -, rfl⟩ := shape_cons_eq_some h
  obtain ⟨query, hquery, rfl⟩ := Schema.map_eq_some.mp hu
  obtain ⟨-, hbounds⟩ := Schema.refine_eq_some.mp hquery
  rw [Bool.and_eq_true, decide_eq_true_eq, decide_eq_true_eq] at hbounds
  exact hbounds.2

/-! ## What `run` returns -/

theorem fails_isOutput : Fails IsOutput := ⟨.failure, .error⟩

theorem length_searches_le {platform : Platform} {unsafeInput input : Value} {query : Text}
    (h : Searches platform unsafeInput input query) : query.length ≤ maxQueryLength := by
  cases h with
  | first hinput => exact length_query_le hinput
  | retry hinput _ => exact (length_normalizedQuery_le _).trans (length_query_le hinput)

theorem resolves_isOutput {platform : Platform} {answers : Dispatch → ClientReply → Prop}
    {input result : Value} {query : Text} (hquery : query.length ≤ maxQueryLength)
    (hreply : MayReturn platform answers .search input (.ok result)) (hok : isOk result = true) :
    Resolves platform answers IsOutput result query := by
  have hresult := success_of_isOk hreply hok
  refine ⟨?_, ?_, ?_, ?_⟩
  · exact fun hcursor => .partialResult hresult hquery hcursor
  · exact fun hcursor hitems => .noMatch hresult hquery hitems hcursor
  · exact fun hcursor hmany => .ambiguous hresult hquery hmany hcursor
  · exact fun _ _ exact _ hget hok => .found (success_of_isOk hget hok) hquery

/-- Every output of a call is one of these. -/
theorem isOutput_of_execute {platform : Platform} {requestId unsafeInput : Value} {aborted : Bool}
    {s₀ s : Execution} {labels : List Label} {output : Value}
    (hstart : start platform requestId unsafeInput aborted = .ok s₀)
    (h : execute (step platform) s₀ labels = some s) (hresult : s.result = some output) :
    IsOutput output := by
  have hclient : Along (step platform) (Answered fun _ _ => True) s₀ labels := by
    clear h hstart
    induction labels generalizing s₀ with
    | nil => trivial
    | cons label rest ih =>
      refine ⟨?_, fun t _ => ih⟩
      cases label with
      | client reply => exact fun _ _ => trivial
      | _ => trivial
  have hrun : Yields platform (fun _ _ => True) (Holds IsOutput)
      (run platform requestId unsafeInput) :=
    yields_run fails_isOutput unsafeInput fun input query result hsearch hreply hok =>
      resolves_isOutput (length_searches_le hsearch) hreply hok
  obtain houtput | rfl | rfl := result_of_execute hrun hstart hclient h hresult
  · exact houtput output rfl
  · exact .failure _
  · exact .failure _

/-! ## What the schema accepts -/

theorem memoryRetrieveRetrievalBaseSchema_context {query : Text}
    (h : query.length ≤ maxQueryLength) :
    memoryRetrieveRetrievalBaseSchema (retrievalContext query) = some (retrievalContext query) := by
  let members : List FieldValue :=
    [⟨"strategy", literalText "defensive_search_then_get_v1",
        .string (text "defensive_search_then_get_v1")⟩,
      ⟨"query_last_executed", text0 maxQueryLength, .string query⟩,
      ⟨"scope_semantics", literalText "authorized_scope_only",
        .string (text "authorized_scope_only")⟩,
      ⟨"snapshot_semantics", literalText "no_server_snapshot_v1",
        .string (text "no_server_snapshot_v1")⟩,
      ⟨"provenance_currentness", literalText "unknown", .string (text "unknown")⟩]
  have hkeys : [text "strategy", text "query_last_executed", text "scope_semantics",
      text "snapshot_semantics", text "provenance_currentness"].Nodup := by decide
  have hquery : text0 maxQueryLength (.string query) = some (.string query) := by
    refine Schema.map_eq_some.mpr ⟨query, Schema.refine_of rfl ?_, rfl⟩
    rw [Bool.and_eq_true, decide_eq_true_eq, decide_eq_true_eq]
    exact ⟨Nat.zero_le _, h⟩
  have hmembers : ∀ m ∈ members, m.schema m.value = some m.value := by
    simp only [members, List.forall_mem_cons]
    exact ⟨rfl, hquery, rfl, rfl, rfl, List.forall_mem_nil _⟩
  exact @shape_members members hkeys hmembers

theorem memoryRetrieveOutcomeSchema_publicOutput {outcome : String} {schema : Schema Value}
    {query : Text} {result : Value} (hquery : query.length ≤ maxQueryLength)
    (hresult : schema result = some result) :
    memoryRetrieveOutcomeSchema outcome schema (publicOutput outcome query result) =
      some (publicOutput outcome query result) := by
  let members : List FieldValue :=
    [⟨"ok", literalFlag true, .bool true⟩,
      ⟨"outcome", literalText outcome, .string (text outcome)⟩,
      ⟨"completeness", literalText "unknown", .string (text "unknown")⟩,
      ⟨"retrieval", memoryRetrieveRetrievalBaseSchema, retrievalContext query⟩,
      ⟨"result", schema, result⟩]
  have hkeys : [text "ok", text "outcome", text "completeness", text "retrieval",
      text "result"].Nodup := by decide
  have houtcome : literalText outcome (.string (text outcome)) = some (.string (text outcome)) :=
    Schema.map_eq_some.mpr ⟨(), if_pos rfl, rfl⟩
  have hmembers : ∀ m ∈ members, m.schema m.value = some m.value := by
    simp only [members, List.forall_mem_cons]
    exact ⟨rfl, houtcome, rfl, memoryRetrieveRetrievalBaseSchema_context hquery, hresult,
      List.forall_mem_nil _⟩
  exact @shape_members members hkeys hmembers

/-- An output of another outcome is refused. -/
theorem memoryRetrieveOutcomeSchema_other {outcome other : String} {schema : Schema Value}
    {query : Text} {result : Value} (h : text other ≠ text outcome) :
    memoryRetrieveOutcomeSchema outcome schema (publicOutput other query result) = none := by
  have hliteral : literalText outcome (.string (text other)) = none := by
    rw [literalText, literalOf, Schema.map, Schema.literal, if_neg h]
    rfl
  refine Option.eq_none_iff_forall_ne_some.mpr fun data hdata => ?_
  rw [memoryRetrieveOutcomeSchema, successSchema, publicOutput] at hdata
  obtain ⟨properties, parsed, heq, hparsed, -⟩ := shape_eq_some hdata
  cases heq
  rw [List.mapM_cons] at hparsed
  obtain ⟨_, -, hparsed⟩ := Option.bind_eq_some_iff.mp hparsed
  rw [List.mapM_cons] at hparsed
  obtain ⟨rest, hrest, -⟩ := Option.bind_eq_some_iff.mp hparsed
  obtain ⟨second, hsecond, -⟩ := Option.bind_eq_some_iff.mp hrest
  have hlookup : Field.parse [property "ok" (.bool true), property "outcome" (.string (text other)),
      property "completeness" (.string (text "unknown")),
      property "retrieval" (retrievalContext query), property "result" result]
      (required "outcome" (literalText outcome)) =
        (literalText outcome (.string (text other))).map fun parsed => [(text "outcome", parsed)] :=
    rfl
  rw [hlookup, hliteral] at hsecond
  cases hsecond

/-- The public outputs whose result is one that their outcome allows. -/
inductive IsPublic : Value → Prop
  | found {query : Text} {result : Value} : query.length ≤ maxQueryLength →
    memoryGetSuccessSchema result = some result → IsPublic (publicOutput "found" query result)
  | ambiguous {query : Text} {result : Value} : query.length ≤ maxQueryLength →
    memorySearchSuccessSchema result = some result → 2 ≤ (itemsOf "items" result).length →
    isDefined "nextCursor" result = false → IsPublic (publicOutput "ambiguous" query result)
  | noMatch {query : Text} : query.length ≤ maxQueryLength →
    IsPublic (publicOutput "scoped_no_match" query noItems)
  | partialResult {query : Text} {result : Value} : query.length ≤ maxQueryLength →
    memorySearchSuccessSchema result = some result → isDefined "nextCursor" result = true →
    IsPublic (publicOutput "partial" query result)

theorem union_of_none {first second : Schema Value} {v : Value} (h : first v = none) :
    Schema.union first second v = second v := by
  rw [Schema.union, h]
  rfl

theorem union_of_some {first second : Schema Value} {v w : Value} (h : first v = some w) :
    Schema.union first second v = some w := by
  rw [Schema.union, h]
  rfl

theorem memoryRetrieveSuccessOutputSchema_public {candidate : Value} (h : IsPublic candidate) :
    memoryRetrieveSuccessOutputSchema candidate = some candidate := by
  cases h with
  | found hquery hresult =>
    exact union_of_some (memoryRetrieveOutcomeSchema_publicOutput hquery hresult)
  | ambiguous hquery hresult hmany hcursor =>
    refine (union_of_none (memoryRetrieveOutcomeSchema_other (by decide))).trans (union_of_some ?_)
    refine memoryRetrieveOutcomeSchema_publicOutput hquery (Schema.refine_of hresult ?_)
    rw [hcursor, decide_eq_true hmany]
    rfl
  | noMatch hquery =>
    refine (union_of_none (memoryRetrieveOutcomeSchema_other (by decide))).trans ?_
    refine (union_of_none (memoryRetrieveOutcomeSchema_other (by decide))).trans (union_of_some ?_)
    exact memoryRetrieveOutcomeSchema_publicOutput hquery rfl
  | partialResult hquery hresult hcursor =>
    refine (union_of_none (memoryRetrieveOutcomeSchema_other (by decide))).trans ?_
    refine (union_of_none (memoryRetrieveOutcomeSchema_other (by decide))).trans ?_
    refine (union_of_none (memoryRetrieveOutcomeSchema_other (by decide))).trans ?_
    exact memoryRetrieveOutcomeSchema_publicOutput hquery (Schema.refine_of hresult hcursor)

theorem memoryRetrieveOutputSchema_error (platform : Platform) (code : ReadToolErrorCode) :
    memoryRetrieveOutputSchema platform (createReadToolError code) =
      some (createReadToolError code) := by
  apply toolOutputSchema_error
  cases code <;> rfl

/-- A candidate stays as it is, unless its frame is too long. -/
theorem finalizeMemoryRetrieveOutput_public (platform : Platform) {candidate : Value}
    (h : IsPublic candidate) : finalizeMemoryRetrieveOutput platform candidate =
      if maxResponseBytes < readToolWireResponseByteLength platform .null candidate then
        createReadToolError .responseLimitExceeded
      else candidate := by
  have hunion : Schema.union memoryRetrieveSuccessOutputSchema readToolErrorOutputSchema candidate =
      some candidate := union_of_some (memoryRetrieveSuccessOutputSchema_public h)
  have hschema : memoryRetrieveOutputSchema platform candidate =
      if maxResponseBytes < readToolWireResponseByteLength platform .null candidate then none
      else some candidate := by
    rw [memoryRetrieveOutputSchema, toolOutputSchema, Schema.refine, hunion, Option.filter_some,
      withinMinimumWireResponseByteLimit]
    split_ifs with hwithin hlong hlong
    · exact absurd (of_decide_eq_true hwithin) (Nat.not_le.mpr hlong)
    · rfl
    · rfl
    · exact absurd (decide_eq_true (Nat.not_lt.mp hlong)) hwithin
  rw [finalizeMemoryRetrieveOutput, hschema, refusedCandidate]
  split_ifs <;> rfl

theorem finalizeMemoryRetrieveOutput_error (platform : Platform) (code : ReadToolErrorCode) :
    finalizeMemoryRetrieveOutput platform (createReadToolError code) = createReadToolError code := by
  rw [finalizeMemoryRetrieveOutput, memoryRetrieveOutputSchema_error]
  rfl

/-! ## The mapping -/

/-- The public outcome of a retrieval that is no error. -/
def Outcome.publicName : Outcome → Option String
  | .found => some "found"
  | .ambiguous => some "ambiguous"
  | .partialResult => some "partial"
  | .noMatchWithinSearchedScope => some "scoped_no_match"
  | .error => none

/-- The records of a result. -/
def recordsOf : Value → List Value
  | .object properties =>
    (Value.property properties (text "record")).toList ++ itemsOf "items" (.object properties)
  | _ => []

/-- The result a retrieval's outcome is mapped with. -/
def publicResult : Outcome → Value → Value
  | .noMatchWithinSearchedScope, _ => noItems
  | _, result => result

/-- What a retrieval's output is for the public: its error, its outcome with its own result,
or the limit's error where the frame of these is too long. -/
inductive Mapped (platform : Platform) (internal : Value) : Value → Prop
  | error {code : ReadToolErrorCode} : stringOf "outcome" internal = some Outcome.error.name →
    resultOf internal = createReadToolError code →
    Mapped platform internal (createReadToolError code)
  | success {outcome : Outcome} {name : String} {query : Text} :
    stringOf "outcome" internal = some outcome.name → Outcome.publicName outcome = some name →
    stringOf "lastSearchQuery" internal = some query →
    recordsOf (publicResult outcome (resultOf internal)) = recordsOf (resultOf internal) →
    readToolWireResponseByteLength platform .null
      (publicOutput name query (publicResult outcome (resultOf internal))) ≤ maxResponseBytes →
    Mapped platform internal (publicOutput name query (publicResult outcome (resultOf internal)))
  | limit {outcome : Outcome} {name : String} {query : Text} :
    stringOf "outcome" internal = some outcome.name → Outcome.publicName outcome = some name →
    stringOf "lastSearchQuery" internal = some query →
    recordsOf (publicResult outcome (resultOf internal)) = recordsOf (resultOf internal) →
    maxResponseBytes < readToolWireResponseByteLength platform .null
      (publicOutput name query (publicResult outcome (resultOf internal))) →
    Mapped platform internal (createReadToolError .responseLimitExceeded)

structure Closed (platform : Platform) (internal output : Value) : Prop where
  accepted : memoryRetrieveOutputSchema platform output = some output
  mapped : Mapped platform internal output
  internalError : output = createReadToolError .internalError →
    resultOf internal = createReadToolError .internalError

section Mapping

variable {platform : Platform}

theorem publicOutput_ne_error {name : String} {query : Text} {result : Value}
    {code : ReadToolErrorCode} : publicOutput name query result ≠ createReadToolError code := by
  intro h
  have hok := (List.cons.inj (Value.object.inj h)).1
  exact absurd (Value.bool.inj (Prod.mk.inj hok).2) (by decide)

theorem closed_error {internal : Value} {code : ReadToolErrorCode}
    (houtcome : stringOf "outcome" internal = some Outcome.error.name)
    (hresult : resultOf internal = createReadToolError code) :
    Closed platform internal (createReadToolError code) := by
  refine ⟨memoryRetrieveOutputSchema_error platform code, .error houtcome hresult, fun h => ?_⟩
  rw [hresult, h]

/-- The public candidate of a retrieval is right as it is finalized. -/
theorem closed_finalize {internal : Value} {outcome : Outcome} {name : String} {query : Text}
    (houtcome : stringOf "outcome" internal = some outcome.name)
    (hname : Outcome.publicName outcome = some name)
    (hquery : stringOf "lastSearchQuery" internal = some query)
    (hrecords : recordsOf (publicResult outcome (resultOf internal)) =
      recordsOf (resultOf internal))
    (hpublic : IsPublic (publicOutput name query (publicResult outcome (resultOf internal)))) :
    Closed platform internal (finalizeMemoryRetrieveOutput platform
      (publicOutput name query (publicResult outcome (resultOf internal)))) := by
  have hfinal := finalizeMemoryRetrieveOutput_public platform hpublic
  rw [hfinal]
  split
  · next hlong =>
    refine ⟨memoryRetrieveOutputSchema_error platform _,
      .limit houtcome hname hquery hrecords hlong, fun h => ?_⟩
    exact absurd (createReadToolError_injective h) (by decide)
  · next hshort =>
    have hwithin := Nat.not_lt.mp hshort
    refine ⟨?_, .success houtcome hname hquery hrecords hwithin, fun h => ?_⟩
    · refine Schema.refine_of (union_of_some ?_) (decide_eq_true hwithin)
      exact memoryRetrieveSuccessOutputSchema_public hpublic
    · exact absurd h publicOutput_ne_error

/-- A success says so and has its first field. -/
theorem isOk_hasProperty {key : String} {schema : Schema Value} {fields : List Field}
    {v result : Value} (h : successSchema (required key schema :: fields) v = some result) :
    isOk result = true ∧ hasProperty key result = true := by
  obtain ⟨_, w, rest, -, rfl⟩ := successSchema_cons_eq_some h
  refine ⟨rfl, ?_⟩
  by_cases hkey : text "ok" = text key
  · simp [hasProperty, property, Value.property, hkey]
  · simp [hasProperty, property, Value.property, hkey]

/-- The records of a search are its items. -/
theorem recordsOf_search {result : Value} (h : memorySearchSuccessSchema result = some result) :
    recordsOf result = itemsOf "items" result := by
  obtain ⟨properties, parsed, -, hparsed, rfl⟩ := shape_eq_some h
  have hnone : Value.property parsed.flatten (text "record") = none := by
    refine Value.property_eq_none fun hkey => ?_
    have hkey := (parsed_keys hparsed).subset hkey
    have hother : text "record" ∉ [text "ok", text "items", text "nextCursor"] := by decide
    exact hother hkey
  rw [recordsOf, hnone]
  rfl

theorem closed_of_isOutput {internal : Value} (h : IsOutput internal) :
    Closed platform internal
      (mapDefensiveRetrievalToMemoryRetrieveOutput platform internal) := by
  -- each branch of the mapping computes, and its guards are what the tools' schemas ensure
  cases h with
  | failure code =>
    have hmap : mapDefensiveRetrievalToMemoryRetrieveOutput platform (failure code) =
        finalizeMemoryRetrieveOutput platform (createReadToolError code) := by
      cases code <;> rfl
    rw [hmap, finalizeMemoryRetrieveOutput_error]
    exact closed_error rfl rfl
  | error code query =>
    have hmap : mapDefensiveRetrievalToMemoryRetrieveOutput platform
        (outputOf .error (createReadToolError code) query) =
          finalizeMemoryRetrieveOutput platform (createReadToolError code) := by
      cases code <;> rfl
    rw [hmap, finalizeMemoryRetrieveOutput_error]
    exact closed_error rfl rfl
  | @found result query hresult hquery =>
    have hmap : mapDefensiveRetrievalToMemoryRetrieveOutput platform
        (outputOf .found result query) =
          if !isOk result || !hasProperty "record" result then createReadToolError .internalError
          else finalizeMemoryRetrieveOutput platform (publicOutput "found" query result) := rfl
    obtain ⟨hok, hhas⟩ := isOk_hasProperty hresult
    rw [hmap, hok, hhas]
    exact @closed_finalize _ (outputOf .found result query) .found _ _ rfl rfl rfl rfl
      (.found hquery hresult)
  | @noMatch result query hresult hquery hitems hcursor =>
    have hmap : mapDefensiveRetrievalToMemoryRetrieveOutput platform
        (outputOf .noMatchWithinSearchedScope result query) =
          if !isOk result || !hasProperty "items" result then createReadToolError .internalError
          else if 0 < (itemsOf "items" result).length || isDefined "nextCursor" result then
            createReadToolError .internalError
          else finalizeMemoryRetrieveOutput platform
            (publicOutput "scoped_no_match" query noItems) := rfl
    obtain ⟨hok, hhas⟩ := isOk_hasProperty hresult
    rw [hmap, hok, hhas, hitems, hcursor]
    have hrecords := (recordsOf_search hresult).trans hitems
    exact @closed_finalize _ (outputOf .noMatchWithinSearchedScope result query)
      .noMatchWithinSearchedScope _ _ rfl rfl rfl hrecords.symm (.noMatch hquery)
  | @ambiguous result query hresult hquery hmany hcursor =>
    have hmap : mapDefensiveRetrievalToMemoryRetrieveOutput platform
        (outputOf .ambiguous result query) =
          if !isOk result || !hasProperty "items" result then createReadToolError .internalError
          else if (itemsOf "items" result).length < 2 || isDefined "nextCursor" result then
            createReadToolError .internalError
          else finalizeMemoryRetrieveOutput platform (publicOutput "ambiguous" query result) := rfl
    obtain ⟨hok, hhas⟩ := isOk_hasProperty hresult
    rw [hmap, hok, hhas, hcursor, decide_eq_false (Nat.not_lt.mpr hmany)]
    exact @closed_finalize _ (outputOf .ambiguous result query) .ambiguous _ _ rfl rfl rfl rfl
      (.ambiguous hquery hresult hmany hcursor)
  | @partialResult result query hresult hquery hcursor =>
    have hmap : mapDefensiveRetrievalToMemoryRetrieveOutput platform
        (outputOf .partialResult result query) =
          if !isOk result || !hasProperty "items" result || !isDefined "nextCursor" result then
            createReadToolError .internalError
          else finalizeMemoryRetrieveOutput platform (publicOutput "partial" query result) := rfl
    obtain ⟨hok, hhas⟩ := isOk_hasProperty hresult
    rw [hmap, hok, hhas, hcursor]
    exact @closed_finalize _ (outputOf .partialResult result query) .partialResult _ _ rfl rfl rfl rfl
      (.partialResult hquery hresult hcursor)

end Mapping

/-- The mapping of whatever a call returns is accepted, says the same with the same result
but for what is too long, and hides no answer behind an internal error. -/
theorem mapDefensiveRetrieval_closed (platform : Platform) (requestId unsafeInput : Value)
    (aborted : Bool) (s₀ s : Execution) (labels : List Label) (internal : Value)
    (hstart : start platform requestId unsafeInput aborted = .ok s₀)
    (h : execute (step platform) s₀ labels = some s) (hresult : s.result = some internal) :
    Closed platform internal
      (mapDefensiveRetrievalToMemoryRetrieveOutput platform internal) :=
  closed_of_isOutput (isOutput_of_execute hstart h hresult)

/-- A search for a word, by a client that finds one memory. -/
def wordInput : Value := .object [property "query" (.string (text "network"))]

def labMembers : List (Text × Value) :=
  [property "id" (.string (text "mem_1234567890123456789012")),
    property "title" (.string (text "Network note")), property "content" (.string (text "alpha")),
    property "createdAt" (.string (text "2026-08-23T12:00:00.000Z")),
    property "provenanceSummary" (.string (text "synthetic fixture"))]

def foundSearch : List Label :=
  [.client (.searched (.ok ([.object (labMembers ++ [property "rank" (.number (1 : ℕ))])], none))),
    .resume, .resume, .client (.got (.ok (some (.object labMembers)))), .resume, .resume, .finish]

/-- What the tool returns of the memory. -/
def foundRecord : Value :=
  .object [property "ok" (.bool true), property "record" (.object
    [property "id" (.string (text "mem_1234567890123456789012")),
      property "title" (.string (text "Network note")), property "content" (.string (text "alpha")),
      contentTrust, property "createdAt" (.string (text "2026-08-23T12:00:00.000Z")),
      property "provenanceSummary" (.string (text "synthetic fixture"))])]

set_option maxRecDepth 8000 in
theorem mapDefensiveRetrieval_closed_found : ∃ s₀ s,
    start asciiPlatform .null wordInput false = .ok s₀ ∧
    execute (step asciiPlatform) s₀ foundSearch = some s ∧
    s.result = some (outputOf .found foundRecord (text "network")) ∧
    mapDefensiveRetrievalToMemoryRetrieveOutput asciiPlatform
      (outputOf .found foundRecord (text "network")) =
        publicOutput "found" (text "network") foundRecord ∧
    Closed asciiPlatform (outputOf .found foundRecord (text "network"))
      (mapDefensiveRetrievalToMemoryRetrieveOutput asciiPlatform
        (outputOf .found foundRecord (text "network"))) := by
  have hrun : (((start asciiPlatform .null wordInput false).toOption.bind fun s₀ =>
      execute (step asciiPlatform) s₀ foundSearch).bind Execution.result) =
        some (outputOf .found foundRecord (text "network")) := rfl
  obtain ⟨s, hrun, hresult⟩ := Option.bind_eq_some_iff.mp hrun
  obtain ⟨s₀, hstart, h⟩ := Option.bind_eq_some_iff.mp hrun
  have hs₀ := eq_ok_of_toOption hstart
  exact ⟨s₀, s, hs₀, h, hresult, rfl,
    mapDefensiveRetrieval_closed asciiPlatform .null wordInput false s₀ s foundSearch _ hs₀ h
      hresult⟩

end MemoryRetrieve
