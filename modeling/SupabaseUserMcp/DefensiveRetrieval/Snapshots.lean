import SupabaseUserMcp.DefensiveRetrieval.Discipline
import SupabaseUserMcp.DefensiveRetrieval.Results
import SupabaseUserMcp.Js.Reading
import SupabaseUserMcp.ReadTools.Outputs

/- A fixed set of memories, and a client that is faithful to it: every search has one
   ordered list of results, a page is cut from it by the limit and the cursor, and a cursor
   comes back exactly when rows remain. What the tools return is read back to the rows. -/
namespace DefensiveRetrieval

open Js ReadTools
open FixedClient (rowsCandidate recordCandidate withContentTrust limitOf respond)
open Inspection (property contentTrust)

/-! ## Snapshots -/

/-- A memory as the client returns it. -/
structure Row where
  id : Text
  title : Text
  content : Text
  createdAt : Text
  provenanceSummary : Text
  deriving DecidableEq

def Row.members (row : Row) : List (Text × Value) :=
  [property "id" (.string row.id), property "title" (.string row.title),
    property "content" (.string row.content), property "createdAt" (.string row.createdAt),
    property "provenanceSummary" (.string row.provenanceSummary)]

def Row.toValue (row : Row) : Value := .object row.members

/-- A row of a search. -/
def Row.ranked (row : Row) (rank : Number) : Value :=
  .object (row.members ++ [property "rank" (.number rank)])

/-- The record of a tool's output. -/
def Row.record (row : Row) : Value :=
  .object [property "id" (.string row.id), property "title" (.string row.title),
    property "content" (.string row.content), contentTrust,
    property "createdAt" (.string row.createdAt),
    property "provenanceSummary" (.string row.provenanceSummary)]

/-- What a search looks for. -/
structure Terms where
  query : Text
  mode : Option Value
  filters : Option Value

/-- The terms of an input under a query. -/
def termsOf (query : Text) (input : Value) : Terms :=
  ⟨query, fieldOf "mode" input, fieldOf "filters" input⟩

/-- The memories that a caller is authorized for, and all results of every search. -/
structure Snapshot where
  memories : List Row
  nodup_ids : (memories.map Row.id).Nodup
  results : Terms → List (Row × Number)
  results_memories : ∀ terms, ∀ p ∈ results terms, p.1 ∈ memories
  nodup_results : ∀ terms, ((results terms).map fun p => p.1.id).Nodup
  /-- The cursor after so many results. -/
  token : Terms → ℕ → Text
  token_injective : ∀ terms, Function.Injective (token terms)

namespace Snapshot

variable (snapshot : Snapshot)

/-- How many results a cursor has left behind, where it is one of this search. -/
def position (terms : Terms) : Option Text → Option ℕ
  | none => some 0
  | some cursor => (List.range' 1 (snapshot.results terms).length).find? fun k =>
      snapshot.token terms k = cursor

/-- The results from a cursor on. -/
def remaining (terms : Terms) (cursor : Option Text) : Option (List (Row × Number)) :=
  (snapshot.position terms cursor).map fun k => (snapshot.results terms).drop k

/-- The page after so many results. -/
def page (terms : Terms) (k limit : ℕ) : List Value × Option Text :=
  ((((snapshot.results terms).drop k).take limit).map fun p => p.1.ranked p.2,
    if k + limit < (snapshot.results terms).length then some (snapshot.token terms (k + limit))
    else none)

def find? (id : Text) : Option Row := snapshot.memories.find? fun row => row.id = id

/-- The replies of a faithful client. It may fail. -/
def Faithful : Dispatch → ClientReply → Prop
  | ⟨.search, input⟩, .searched (.ok answer) =>
    ∃ k, snapshot.position (termsOf (queryOf input) input) (stringOf "cursor" input) = some k ∧
      answer = snapshot.page (termsOf (queryOf input) input) k (limitOf input)
  | ⟨.get, input⟩, .got (.ok row) =>
    row = (snapshot.find? ((stringOf "id" input).getD [])).map Row.toValue
  | _, _ => True

/-- A client that answers every call. -/
def serve : Dispatch → ClientReply
  | ⟨.search, input⟩ =>
    match snapshot.position (termsOf (queryOf input) input) (stringOf "cursor" input) with
    | none => .searched (.error (.client .invalidCursor))
    | some k => .searched (.ok (snapshot.page (termsOf (queryOf input) input) k (limitOf input)))
  | ⟨.get, input⟩ =>
    .got (.ok ((snapshot.find? ((stringOf "id" input).getD [])).map Row.toValue))

theorem faithful_serve (call : Dispatch) : snapshot.Faithful call (snapshot.serve call) := by
  obtain ⟨tool, input⟩ := call
  cases tool with
  | search =>
    rw [serve]
    cases hposition : snapshot.position (termsOf (queryOf input) input) (stringOf "cursor" input) with
    | none => trivial
    | some k => exact ⟨k, hposition, rfl⟩
  | get => rfl

end Snapshot

/-! ## What the tools make of rows -/

section Tools

variable {platform : Platform} {snapshot : Snapshot}

def Row.recordMembers (row : Row) : List FieldValue :=
  [⟨"id", opaqueMemoryIdSchema, .string row.id⟩, ⟨"title", text0 256, .string row.title⟩,
    ⟨"content", text0 8192, .string row.content⟩,
    ⟨"contentTrust", literalText "untrusted", .string (text "untrusted")⟩,
    ⟨"createdAt", stringValue Inspection.isoDatetimeSchema, .string row.createdAt⟩,
    ⟨"provenanceSummary", text0 512, .string row.provenanceSummary⟩]

theorem Row.exact_recordMembers (row : Row) :
    ∀ m ∈ row.recordMembers, ∀ w, m.schema m.value = some w → w = m.value := by
  simp only [Row.recordMembers, List.forall_mem_cons]
  exact ⟨fun _ => exact_opaqueString, fun _ => exact_refinedString, fun _ => exact_refinedString,
    fun _ => literalOf_eq_some, fun _ => exact_refinedString, fun _ => exact_refinedString,
    List.forall_mem_nil _⟩

/-- A row that the schema of records accepts is the record of the row. -/
theorem memoryRecordSchema_row {row : Row} {data : Value}
    (h : memoryRecordSchema (withContentTrust row.toValue) = some data) : data = row.record := by
  have hlookup : ∀ m ∈ row.recordMembers,
      Value.property (row.members ++ [contentTrust]) (text m.key) = some m.value := by
    simp only [Row.recordMembers, List.forall_mem_cons]
    exact ⟨rfl, rfl, rfl, rfl, rfl, rfl, List.forall_mem_nil _⟩
  exact eq_of_shape (fun m hm => ⟨_, hlookup m hm, row.exact_recordMembers m hm⟩) h

def Row.resultMembers (row : Row) (rank : Number) : List FieldValue :=
  row.recordMembers ++ [⟨"rank", rankSchema, .number rank⟩]

theorem searchResultSchema_row {row : Row} {rank : Number} {item : Value}
    (h : searchResultSchema (withContentTrust (row.ranked rank)) = some item) :
    stringOf "id" item = some row.id := by
  have hlookup : ∀ m ∈ row.resultMembers rank, Value.property
      (row.members ++ [property "rank" (.number rank)] ++ [contentTrust]) (text m.key) =
        some m.value := by
    simp only [Row.resultMembers, Row.recordMembers, List.cons_append, List.nil_append,
      List.forall_mem_cons]
    exact ⟨rfl, rfl, rfl, rfl, rfl, rfl, rfl, List.forall_mem_nil _⟩
  have hexact : ∀ m ∈ row.resultMembers rank, ∀ w, m.schema m.value = some w → w = m.value := by
    intro m hm
    cases List.mem_append.mp hm with
    | inl hm => exact row.exact_recordMembers m hm
    | inr hm =>
      rw [List.mem_singleton.mp hm]
      exact fun _ => exact_rankSchema
  have hitem := @eq_of_shape (row.resultMembers rank) _ item
    (fun m hm => ⟨_, hlookup m hm, hexact m hm⟩) h
  have hid : Value.property ((row.resultMembers rank).map fun m => property m.key m.value)
      (text "id") = some (.string row.id) := Value.property_cons_self (by dsimp only [property])
  rw [hitem, stringOf, hid]

/-- The success of a get of a row. -/
theorem memoryGetSuccessSchema_row {row : Row} {output : Value}
    (h : memoryGetSuccessSchema (recordCandidate row.toValue) = some output) :
    output = .object [property "ok" (.bool true), property "record" row.record] := by
  let members : List FieldValue :=
    [⟨"ok", literalFlag true, .bool true⟩, ⟨"record", memoryRecordSchema, row.record⟩]
  have hshape : shape (members.map fun m => required m.key m.schema)
      (.object [property "ok" (.bool true), property "record" (withContentTrust row.toValue)]) =
        some output := h
  refine @eq_of_shape members _ output ?_ hshape
  simp only [members, List.forall_mem_cons]
  exact ⟨⟨_, rfl, fun _ => literalFlag_eq_some⟩, ⟨_, rfl, fun _ => memoryRecordSchema_row⟩,
    List.forall_mem_nil _⟩

/-- The success of a search: an item for each row, and the cursor. -/
theorem memorySearchSuccessSchema_rows {rows : List Value} {nextCursor : Option Text}
    {output : Value} (h : memorySearchSuccessSchema (rowsCandidate rows nextCursor) = some output) :
    (rows.map withContentTrust).mapM searchResultSchema = some (itemsOf "items" output) ∧
      isDefined "nextCursor" output = nextCursor.isSome := by
  rw [memorySearchSuccessSchema, successSchema, rowsCandidate] at h
  obtain ⟨properties, parsed, heq, hparsed, rfl⟩ := shape_eq_some h
  obtain rfl := Value.object.inj heq
  rw [List.mapM_cons] at hparsed
  obtain ⟨first, hok, hparsed⟩ := Option.bind_eq_some_iff.mp hparsed
  obtain ⟨rest, hrest, hparsed⟩ := Option.bind_eq_some_iff.mp hparsed
  cases hparsed
  rw [List.mapM_cons] at hrest
  obtain ⟨second, hitems, hrest⟩ := Option.bind_eq_some_iff.mp hrest
  obtain ⟨third, hcursor, hrest⟩ := Option.bind_eq_some_iff.mp hrest
  cases hrest
  rw [List.mapM_cons] at hcursor
  obtain ⟨last, hlast, hnil⟩ := Option.bind_eq_some_iff.mp hcursor
  cases hnil
  obtain ⟨_, ok, -, rfl⟩ := Field.parse_required hok
  have hitems : (arrayValue maxSearchRows searchResultSchema
      (.array (rows.map withContentTrust))).map (fun w => [(text "items", w)]) = some second := hitems
  obtain ⟨w, hw, rfl⟩ := Option.map_eq_some_iff.mp hitems
  obtain ⟨items, harray, rfl⟩ := Schema.map_eq_some.mp hw
  obtain ⟨harray, -⟩ := Schema.refine_eq_some.mp harray
  refine ⟨harray, ?_⟩
  cases nextCursor with
  | none =>
    obtain rfl : [] = last := Option.some.inj hlast
    rfl
  | some cursor =>
    have hlast : ((Schema.optional opaqueCursorSchema (.string cursor)).map
        fun parsed => parsed.getD .undefined).map (fun w => [(text "nextCursor", w)]) = some last :=
      hlast
    obtain ⟨v, hv, rfl⟩ := Option.map_eq_some_iff.mp hlast
    obtain ⟨parsed, hoptional, rfl⟩ := Option.map_eq_some_iff.mp hv
    obtain ⟨u, hu, rfl⟩ := Option.map_eq_some_iff.mp hoptional
    obtain rfl := exact_opaqueString hu
    rfl

/-- A tool's success is what its schema makes of the candidate. -/
theorem success_of_validated {read : FixedClient.MemoryRead} {success : Schema Value}
    {candidate : Value} {fallback : ReadToolErrorCode}
    (hschema : (read.tool.descriptor platform).outputSchema = toolOutputSchema platform success)
    (hok : isOk (FixedClient.validated platform read candidate fallback) = true) :
    success candidate = some (FixedClient.validated platform read candidate fallback) := by
  rw [FixedClient.validated, hschema] at hok ⊢
  cases hdata : toolOutputSchema platform success candidate with
  | none =>
    rw [hdata] at hok
    cases (isOk_createReadToolError fallback).symm.trans hok
  | some data =>
    rw [hdata] at hok
    refine (toolOutputSchema_eq_some hdata).resolve_right fun herror => ?_
    obtain ⟨code, rfl⟩ := herror
    cases (isOk_createReadToolError code).symm.trans hok

theorem isOk_caught {toolAborted : Bool} {cause : Cause} {output : Value}
    (h : caught toolAborted cause = .ok output) : isOk output = false := by
  obtain ⟨code, rfl⟩ := caught_cases h
  exact isOk_createReadToolError code

theorem respond_search {answer : List Value × Option Text}
    (hok : isOk (respond platform .search answer) = true) :
    memorySearchSuccessSchema (rowsCandidate answer.1 answer.2) =
      some (respond platform .search answer) := by
  obtain ⟨rows, nextCursor⟩ := answer
  simp only [respond] at hok ⊢
  split at hok
  · rw [isOk_createReadToolError] at hok
    cases hok
  · next hshort =>
    rw [if_neg hshort]
    exact success_of_validated rfl hok

/-- What is left of a search from its cursor on; it is all on a page without a cursor. -/
structure FoundRest (snapshot : Snapshot) (data output : Value)
    (rest : List (Row × Number)) : Prop where
  remaining : snapshot.remaining (termsOf (queryOf data) data) (stringOf "cursor" data) = some rest
  items : isDefined "nextCursor" output = false →
    List.Forall₂ (fun p item => stringOf "id" item = some p.1.id) rest (itemsOf "items" output)

theorem foundRest_search {input output : Value}
    (h : MayReturn platform snapshot.Faithful .search input (.ok output)) (hok : isOk output = true) :
    ∃ data rest, memorySearchInputSchema platform input = some data ∧
      FoundRest snapshot data output rest := by
  obtain ⟨-, houtput⟩ | ⟨data, reply, toolAborted, hdata, htool, hfaithful, houtput⟩ := h
  · rw [Except.ok.inj houtput, isOk_createReadToolError] at hok
    cases hok
  · cases reply with
    | got reply => cases htool
    | searched reply =>
      cases reply with
      | error cause => cases (isOk_caught houtput.symm).symm.trans hok
      | ok answer =>
        obtain ⟨k, hposition, hanswer⟩ := hfaithful
        have heq : output = respond platform .search answer := Except.ok.inj houtput
        rw [heq] at hok
        have hsuccess := respond_search hok
        rw [← heq] at hsuccess
        obtain ⟨hitems, hdefined⟩ := memorySearchSuccessSchema_rows hsuccess
        let results := snapshot.results (termsOf (queryOf data) data)
        refine ⟨data, results.drop k, hdata, ?_, fun hcursor => ?_⟩
        · rw [Snapshot.remaining, hposition]
          rfl
        · -- no cursor: the page reaches the end
          have hend : ¬ k + limitOf data < results.length := by
            intro hlt
            rw [hdefined, hanswer, Snapshot.page, if_pos hlt] at hcursor
            cases hcursor
          have htake : (results.drop k).take (limitOf data) = results.drop k := by
            rw [List.take_eq_self_iff, List.length_drop]
            omega
          have hrows : answer.1.map withContentTrust =
              (results.drop k).map fun p => withContentTrust (p.1.ranked p.2) := by
            rw [hanswer, Snapshot.page, htake, List.map_map]
            rfl
          rw [hrows, Schema.mapM_eq_some_iff, List.forall₂_map_left_iff] at hitems
          exact hitems.imp fun _ _ hitem => searchResultSchema_row hitem

theorem found_get {id : Text} {output : Value}
    (h : MayReturn platform snapshot.Faithful .get (.object [property "id" (.string id)])
      (.ok output)) (hok : isOk output = true) :
    ∃ row ∈ snapshot.memories, row.id = id ∧
      output = .object [property "ok" (.bool true), property "record" row.record] := by
  obtain ⟨-, houtput⟩ | ⟨data, reply, toolAborted, hdata, htool, hfaithful, houtput⟩ := h
  · rw [Except.ok.inj houtput, isOk_createReadToolError] at hok
    cases hok
  · cases reply with
    | searched reply => cases htool
    | got reply =>
      cases reply with
      | error cause => cases (isOk_caught houtput.symm).symm.trans hok
      | ok answer =>
        obtain ⟨-, rfl⟩ := eq_of_memoryGetInputSchema hdata
        have hanswer : answer = (snapshot.find? id).map Row.toValue := hfaithful
        cases hfind : snapshot.find? id with
        | none =>
          rw [hfind] at hanswer
          rw [hanswer] at houtput
          rw [Except.ok.inj houtput] at hok
          cases (isOk_createReadToolError _).symm.trans hok
        | some row =>
          rw [hfind] at hanswer
          rw [hanswer] at houtput
          rw [Except.ok.inj houtput] at hok ⊢
          have hsuccess := success_of_validated rfl hok
          refine ⟨row, List.mem_of_find?_eq_some hfind, by simpa using List.find?_some hfind, ?_⟩
          exact memoryGetSuccessSchema_row hsuccess

end Tools

end DefensiveRetrieval
