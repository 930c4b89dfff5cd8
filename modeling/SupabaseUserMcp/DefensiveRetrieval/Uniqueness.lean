import SupabaseUserMcp.DefensiveRetrieval.Snapshots

/- What a retrieval tells of a snapshot, by a client that is faithful to it. A single hit is
   the only result that is left from the cursor on, which is all of them where there is no
   cursor; the page before a cursor is not looked at again. -/
namespace DefensiveRetrieval

open Js ReadTools
open Inspection (property)
open Process (Along execute execute_play play)

/-! ## What a call tells -/

/-- `output.result.record`. -/
def resultRecord (output : Value) : Option Value := (fieldOf "result" output).bind (fieldOf "record")

/-- A hit is the only result that is left under the query it was found with, and two that
are left are no hit and no miss. -/
structure Settles (snapshot : Snapshot) (input output : Value) : Prop where
  found : stringOf "outcome" output = some Outcome.found.name →
    ∃ query p, stringOf "lastSearchQuery" output = some query ∧
      snapshot.remaining (termsOf query input) (stringOf "cursor" input) = some [p] ∧
      resultRecord output = some p.1.record
  several : ∀ query rest, stringOf "lastSearchQuery" output = some query →
    snapshot.remaining (termsOf query input) (stringOf "cursor" input) = some rest →
    2 ≤ rest.length → ∃ outcome ∈ [Outcome.ambiguous, .partialResult, .error],
      stringOf "outcome" output = some outcome.name

theorem Outcome.name_injective : Function.Injective Outcome.name := by
  intro outcome other h
  cases outcome <;> cases other <;> first | rfl | exact absurd h (by decide)

section Settling

variable {platform : Platform} {snapshot : Snapshot} {input : Value}

theorem settles_of_mem {output : Value} {outcome : Outcome}
    (hmem : outcome ∈ [Outcome.ambiguous, .partialResult, .error])
    (houtcome : stringOf "outcome" output = some outcome.name) : Settles snapshot input output := by
  refine ⟨fun hfound => ?_, fun _ _ _ _ _ => ⟨outcome, hmem, houtcome⟩⟩
  obtain rfl := Outcome.name_injective (Option.some.inj (houtcome.symm.trans hfound))
  simp at hmem

theorem settles_failure (code : ReadToolErrorCode) : Settles snapshot input (failure code) :=
  settles_of_mem (List.mem_cons_of_mem _ (List.mem_cons_of_mem _ List.mem_cons_self)) rfl

theorem settles_noMatch {result : Value} {query : Text}
    (hremaining : snapshot.remaining (termsOf query input) (stringOf "cursor" input) = some []) :
    Settles snapshot input (outputOf .noMatchWithinSearchedScope result query) := by
  refine ⟨fun hfound => ?_, fun query' rest hquery hrest hmany => ?_⟩
  · cases Outcome.name_injective (Option.some.inj hfound)
  · obtain rfl : query = query' := Option.some.inj hquery
    cases hremaining.symm.trans hrest
    cases hmany

theorem settles_found {row : Row} {rank : Number} {query : Text}
    (hremaining : snapshot.remaining (termsOf query input) (stringOf "cursor" input) =
      some [(row, rank)]) : Settles snapshot input (outputOf .found
        (.object [property "ok" (.bool true), property "record" row.record]) query) := by
  refine ⟨fun _ => ⟨query, _, rfl, hremaining, rfl⟩, fun query' rest hquery hrest hmany => ?_⟩
  obtain rfl : query = query' := Option.some.inj hquery
  obtain rfl := Option.some.inj (hremaining.symm.trans hrest)
  simp at hmany

end Settling

/-! ## A run -/

section Run

variable {platform : Platform} {snapshot : Snapshot} {unsafeInput input : Value}

theorem fails_settles : Fails (Settles snapshot input) :=
  ⟨settles_failure, fun code _ => @settles_of_mem _ _ _ .error (by simp) rfl⟩

/-- The second search has its query, and all other terms of the first. -/
theorem termsOf_searches (hinput : memorySearchInputSchema platform unsafeInput = some input)
    {data : Value} {searched : Value} {query : Text}
    (hsearch : Searches platform unsafeInput searched query)
    (hdata : memorySearchInputSchema platform searched = some data) :
    termsOf (queryOf data) data = termsOf query input ∧
      stringOf "cursor" data = stringOf "cursor" input := by
  cases hsearch with
  | first hfirst =>
    obtain rfl := Option.some.inj (hinput.symm.trans hfirst)
    have hstable := stable_memorySearchInputSchema platform _ _ hinput
    obtain rfl := Option.some.inj (hstable.symm.trans hdata)
    exact ⟨rfl, rfl⟩
  | @retry other hother hcursor =>
    obtain rfl : input = other := Option.some.inj (hinput.symm.trans hother)
    obtain rfl := eq_retried hinput hdata
    obtain ⟨properties, w, parsed, -, -, -, rfl⟩ := shape_cons_eq_some hinput
    have hquery : queryOf (retried (.object ((text "query", w) :: parsed.flatten))) =
        normalizedQuery (queryOf (.object ((text "query", w) :: parsed.flatten))) := by
      have hfirst : ∀ q : Text, stringOf "query" (withQuery q
          (.object ((text "query", w) :: parsed.flatten))) = some q := by
        intro q
        rw [withQuery, List.map_cons, if_pos rfl, stringOf, Value.property_cons_self rfl]
      rw [retried, queryOf, hfirst]
      rfl
    have hother : ∀ {key : String} (q : Text), text "query" ≠ text key →
        Value.property (((text "query", w) :: parsed.flatten).map fun p =>
          if p.1 = text "query" then (p.1, Value.string q) else p) (text key) =
            Value.property ((text "query", w) :: parsed.flatten) (text key) :=
      fun q hkey => property_withQuery hkey q _
    refine ⟨?_, ?_⟩
    · rw [termsOf, hquery, termsOf, retried, withQuery, fieldOf, fieldOf, fieldOf, fieldOf,
        hother _ (by decide), hother _ (by decide)]
      rfl
    · rw [retried, withQuery, stringOf, hother _ (by decide), stringOf]

theorem mem_of_remaining {terms : Terms} {cursor : Option Text} {rest : List (Row × Number)}
    (h : snapshot.remaining terms cursor = some rest) : ∀ p ∈ rest, p ∈ snapshot.results terms := by
  obtain ⟨k, -, rfl⟩ := Option.map_eq_some_iff.mp h
  exact fun p hp => List.mem_of_mem_drop hp

theorem resolves_settles (hinput : memorySearchInputSchema platform unsafeInput = some input)
    {searched result : Value} {query : Text} (hsearch : Searches platform unsafeInput searched query)
    (hreply : MayReturn platform snapshot.Faithful .search searched (.ok result))
    (hok : isOk result = true) :
    Resolves platform snapshot.Faithful (Settles snapshot input) result query := by
  obtain ⟨data, rest, hdata, hrest⟩ := foundRest_search hreply hok
  obtain ⟨hterms, hcursors⟩ := termsOf_searches hinput hsearch hdata
  have hremaining := hrest.remaining
  rw [hterms, hcursors] at hremaining
  refine ⟨fun _ => ?_, fun hcursor hitems => ?_, fun _ _ => ?_, ?_⟩
  · exact @settles_of_mem _ _ _ .partialResult (by simp) rfl
  · have hnil := hrest.items hcursor
    rw [hitems, List.forall₂_nil_right_iff] at hnil
    rw [hnil] at hremaining
    exact settles_noMatch hremaining
  · exact @settles_of_mem _ _ _ .ambiguous (by simp) rfl
  · intro hcursor candidate exact hitems hget hexact
    have hone := hrest.items hcursor
    rw [hitems] at hone
    obtain ⟨p, others, hid, hothers, rfl⟩ := List.forall₂_cons_right_iff.mp hone
    obtain rfl := List.forall₂_nil_right_iff.mp hothers
    rw [hid] at hget
    obtain ⟨row, hrow, hrowid, rfl⟩ := found_get hget hexact
    -- ids are unique, so the record is the hit
    have hmem := mem_of_remaining hremaining p (List.mem_singleton_self p)
    obtain rfl : row = p.1 := List.inj_on_of_nodup_map snapshot.nodup_ids hrow
      (snapshot.results_memories _ p hmem) hrowid
    exact settles_found hremaining

end Run

/-- Whatever happens to a call by a faithful client, a hit is the only result left under its
query from the cursor on, with its record; and where two or more are left it is ambiguous, a
part or an error. -/
theorem found_unique (platform : Platform) (snapshot : Snapshot)
    (requestId unsafeInput input : Value) (aborted : Bool) (s₀ s : Execution) (labels : List Label)
    (output : Value) (hinput : memorySearchInputSchema platform unsafeInput = some input)
    (hstart : start platform requestId unsafeInput aborted = .ok s₀)
    (hclient : Along (step platform) (Answered snapshot.Faithful) s₀ labels)
    (h : execute (step platform) s₀ labels = some s) (hresult : s.result = some output) :
    Settles snapshot input output := by
  have hrun : Yields platform snapshot.Faithful (Holds (Settles snapshot input))
      (run platform requestId unsafeInput) :=
    yields_run fails_settles unsafeInput fun searched query result hsearch hreply hok =>
      resolves_settles hinput hsearch hreply hok
  obtain hsettles | rfl | rfl := result_of_execute hrun hstart hclient h hresult
  · exact hsettles output rfl
  · exact settles_failure _
  · exact settles_failure _

/-! ## A faithful client that answers at once -/

/-- The next step of a call that nobody aborts. -/
def nextLabel (snapshot : Snapshot) (s : Execution) : Option Label :=
  match s.phase with
  | .pending _ _ => (lastCall s.log).map fun call => .client (snapshot.serve call)
  | .answered _ _ | .returned _ _ => some .resume
  | .settled => if s.result.isNone then some .finish else none

theorem answered_nextLabel {snapshot : Snapshot} {s : Execution} {label : Label}
    (h : nextLabel snapshot s = some label) : Answered snapshot.Faithful s label := by
  rw [nextLabel] at h
  split at h
  · obtain ⟨call, hcall, rfl⟩ := Option.map_eq_some_iff.mp h
    intro other hother
    obtain rfl : call = other := Option.some.inj (hcall.symm.trans hother)
    exact snapshot.faithful_serve call
  · cases h
    trivial
  · cases h
    trivial
  · split at h
    · cases h
      trivial
    · cases h

def labRow (id : String) : Row where
  id := text id
  title := text "Network note"
  content := text "alpha"
  createdAt := text "2026-08-23T12:00:00.000Z"
  provenanceSummary := text "synthetic fixture"

/-- Two memories, which every search finds. -/
def labPair : Snapshot where
  memories := [labRow "mem_1234567890123456789012", labRow "mem_abcdefghijklmnopqrstuv"]
  nodup_ids := by decide
  results _ := [labRow "mem_1234567890123456789012", labRow "mem_abcdefghijklmnopqrstuv"].map
    fun row => (row, ((1 : ℕ) : Number))
  results_memories _ p hp := by
    obtain ⟨row, hrow, rfl⟩ := List.mem_map.mp hp
    exact hrow
  nodup_results _ := by decide
  token _ k := text "cur_AAAAAAAAAAAAAAAA" ++ decimal k
  token_injective _ k l h := decimal_injective (List.append_cancel_left h)

/-- The second page of one row. -/
def labContinued : Value :=
  .object [property "query" (.string (text "network")), property "limit" (.number (1 : ℕ)),
    property "cursor" (.string (labPair.token ⟨[], none, none⟩ 1))]

/-- A call with an input that is parsed, from its start to what it returns. -/
theorem exists_labCall : ∃ input s₀ s labels output,
    memorySearchInputSchema asciiPlatform labContinued = some input ∧
    start asciiPlatform .null labContinued false = .ok s₀ ∧
    Along (step asciiPlatform) (Answered labPair.Faithful) s₀ labels ∧
    execute (step asciiPlatform) s₀ labels = some s ∧ s.result = some output ∧
    stringOf "outcome" output = some Outcome.found.name ∧
    stringOf "lastSearchQuery" output = some (text "network") := by
  have hinput : (memorySearchInputSchema asciiPlatform labContinued).isSome = true := by
    decide +kernel
  obtain ⟨input, hinput⟩ := Option.isSome_iff_exists.mp hinput
  have hrun : ((start asciiPlatform .null labContinued false).toOption.bind fun s₀ =>
      (play (step asciiPlatform) (nextLabel labPair) 8 s₀).2.result.map fun output =>
        (stringOf "outcome" output, stringOf "lastSearchQuery" output)) =
          some (some Outcome.found.name, some (text "network")) := by
    decide +kernel
  obtain ⟨s₀, hstart, hrun⟩ := Option.bind_eq_some_iff.mp hrun
  obtain ⟨output, hresult, houtput⟩ := Option.map_eq_some_iff.mp hrun
  obtain ⟨houtcome, hquery⟩ := Prod.mk.inj houtput
  obtain ⟨hexecute, halong⟩ :=
    @execute_play _ _ (step asciiPlatform) _ (Answered labPair.Faithful) answered_nextLabel 8 s₀
  exact ⟨input, s₀, _, _, output, hinput, eq_ok_of_toOption hstart, halong, hexecute, hresult,
    houtcome, hquery⟩

/-- A hit on a page that a cursor begins is not the only match. -/
theorem not_found_unique : ∃ input s₀ s labels output query,
    memorySearchInputSchema asciiPlatform labContinued = some input ∧
    start asciiPlatform .null labContinued false = .ok s₀ ∧
    Along (step asciiPlatform) (Answered labPair.Faithful) s₀ labels ∧
    execute (step asciiPlatform) s₀ labels = some s ∧ s.result = some output ∧
    stringOf "outcome" output = some Outcome.found.name ∧
    stringOf "lastSearchQuery" output = some query ∧
    (labPair.results (termsOf query input)).length = 2 := by
  obtain ⟨input, s₀, s, labels, output, hinput, hstart, hclient, h, hresult, houtcome, hquery⟩ :=
    exists_labCall
  exact ⟨input, s₀, s, labels, output, _, hinput, hstart, hclient, h, hresult, houtcome, hquery, rfl⟩

theorem found_unique_labContinued : ∃ input output,
    memorySearchInputSchema asciiPlatform labContinued = some input ∧
    stringOf "outcome" output = some Outcome.found.name ∧ Settles labPair input output := by
  obtain ⟨input, s₀, s, labels, output, hinput, hstart, hclient, h, hresult, houtcome, -⟩ :=
    exists_labCall
  exact ⟨input, output, hinput, houtcome, found_unique asciiPlatform labPair .null labContinued input
    false s₀ s labels output hinput hstart hclient h hresult⟩

end DefensiveRetrieval
