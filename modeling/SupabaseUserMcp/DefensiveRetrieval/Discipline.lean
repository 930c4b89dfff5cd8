import SupabaseUserMcp.DefensiveRetrieval.Dispatch
import SupabaseUserMcp.ReadTools.Inputs

/- What one call of a retrieval dispatches. Its sequence is followed once, with an
   abort allowed at every await; what it may dispatch is listed with all that has
   happened before, and an abort is never part of that. -/
namespace DefensiveRetrieval

open Js ReadTools
open Inspection (property)
open Process (execute execute_cons invariant_execute)

/-- `input.data.query`. -/
def queryOf (input : Value) : Text := (stringOf "query" input).getD []

/-- A search may be repeated: it found nothing, there is no more of it, it was no
continuation, and its query can be normalized. -/
structure MayRetry (input output : Value) : Prop where
  ok : isOk output = true
  items : itemsOf "items" output = []
  nextCursor : isDefined "nextCursor" output = false
  cursor : isDefined "cursor" input = false
  query : normalizedQuery (queryOf input) ≠ queryOf input

/-- A search names one record: it found one item, the one with the id, and there is no more. -/
structure Names (output : Value) (id : Text) : Prop where
  ok : isOk output = true
  nextCursor : isDefined "nextCursor" output = false
  item : ∃ item, itemsOf "items" output = [item] ∧ stringOf "id" item = some id

/-- A search and what it returned. -/
def searched (input output : Value) : List Event :=
  [.dispatched ⟨.search, input⟩, .returned (.ok output)]

/-- The input of the second search. -/
def retried (input : Value) : Value := withQuery (normalizedQuery (queryOf input)) input

def getOf (id : Text) : Dispatch := ⟨.get, .object [property "id" (.string id)]⟩

/-- The calls of the client, each after everything that happens before it. -/
inductive Allowed (platform : Platform) (unsafeInput : Value) : List Event → Dispatch → Prop where
  | first {input : Value} (hinput : memorySearchInputSchema platform unsafeInput = some input) :
    Allowed platform unsafeInput [] ⟨.search, input⟩
  | retry {input output : Value} (hinput : memorySearchInputSchema platform unsafeInput = some input)
      (hretry : MayRetry input output) :
    Allowed platform unsafeInput (searched input output) ⟨.search, retried input⟩
  | get {input output : Value} {id : Text}
      (hinput : memorySearchInputSchema platform unsafeInput = some input) (hid : Names output id) :
    Allowed platform unsafeInput (searched input output) (getOf id)
  | getRetried {input output output' : Value} {id : Text}
      (hinput : memorySearchInputSchema platform unsafeInput = some input)
      (hretry : MayRetry input output) (hid : Names output' id) :
    Allowed platform unsafeInput (searched input output ++ searched (retried input) output') (getOf id)

/-! The sequence. -/

section Sequence

variable {platform : Platform} {allowed : List Event → Dispatch → Prop}

@[simp] theorem isAborted_append (first second : List Event) :
    isAborted (first ++ second) = (isAborted first || isAborted second) := List.any_append

@[simp] theorem isAborted_cons (event : Event) (rest : List Event) :
    isAborted (event :: rest) = (event.isAborted || isAborted rest) := List.any_cons

theorem aborts_eq_nil {aborts : List Event} (haborts : Aborts aborts)
    (h : isAborted aborts = false) : aborts = [] := by
  cases aborts with
  | nil => rfl
  | cons event rest =>
    obtain rfl := haborts event List.mem_cons_self
    cases h

/-- A look at the signal. -/
theorem obeys_look {log : List Event} {late : Except Unit Value}
    {p : Retrieval (Except Unit Value)} (h : isAborted log = false → Obeys platform allowed p log) :
    Obeys platform allowed (.ask .aborted fun aborted => if aborted then .done late else p) log := by
  show Obeys platform allowed (if isAborted log = true then .done late else p) log
  split
  · trivial
  · next hlook => exact h (Bool.not_eq_true _ ▸ hlook)

/-- A call that is followed by a look at the signal: where that is not aborted, nothing
has happened since but the call. -/
theorem callObeys_of {tool : Tool} {input : Value} {log : List Event} {late : Except Unit Value}
    {after : Except Unit Value → Retrieval (Except Unit Value)}
    {next : Value → Retrieval (Except Unit Value)} (herror : after (.error ()) = .done (.error ()))
    (hlook : ∀ output, after (.ok output) =
      .ask .aborted fun aborted => if aborted then .done late else next output)
    (hnone : Obeys platform allowed (next (createReadToolError .invalidRequest))
      (log ++ [.returned (.ok (createReadToolError .invalidRequest))]))
    (hsome : ∀ data, tool.inputSchema platform input = some data → allowed log ⟨tool, data⟩ ∧
      ∀ output, Obeys platform allowed (next output)
        (log ++ [.dispatched ⟨tool, data⟩, .returned (.ok output)])) :
    CallObeys platform allowed tool input log fun reply log =>
      Obeys platform allowed (after reply) log := by
  constructor
  · intro _ aborts haborts
    rw [hlook]
    refine obeys_look fun hseen => ?_
    simp only [isAborted_append, isAborted_cons, Bool.or_eq_false_iff] at hseen
    obtain rfl := aborts_eq_nil haborts hseen.2.2
    exact hnone
  · intro data hdata
    obtain ⟨hallowed, hnext⟩ := hsome data hdata
    refine ⟨hallowed, fun reply before after hbefore hafter => ?_⟩
    cases reply with
    | error _ =>
      rw [herror]
      trivial
    | ok output =>
      rw [hlook]
      refine obeys_look fun hseen => ?_
      simp only [isAborted_append, isAborted_cons, Bool.or_eq_false_iff] at hseen
      obtain rfl := aborts_eq_nil hbefore hseen.1.2.2
      obtain rfl := aborts_eq_nil hafter hseen.2.2
      simpa using hnext output

theorem obeys_ite_done {c : Prop} [Decidable c] {first second : Except Unit Value}
    (log : List Event) :
    Obeys platform allowed (if c then .done first else .done second) log := by
  split
  · trivial
  · trivial

/-- A record is asked for by an id, and by that id alone. -/
theorem eq_of_memoryGetInputSchema {s : Text} {data : Value}
    (h : memoryGetInputSchema (.object [property "id" (.string s)]) = some data) :
    s ≠ [] ∧ data = .object [property "id" (.string s)] := by
  obtain ⟨properties, parsed, heq, hparsed, rfl⟩ := shape_eq_some h
  cases heq
  rw [List.mapM_cons] at hparsed
  obtain ⟨first, hfirst, hparsed⟩ := Option.bind_eq_some_iff.mp hparsed
  cases hparsed
  have hlookup : Value.property [property "id" (.string s)] (text "id") = some (.string s) := by
    simp [Value.property, property]
  simp only [Field.parse, required, hlookup] at hfirst
  obtain ⟨w, hw, rfl⟩ := Option.map_eq_some_iff.mp hfirst
  obtain ⟨t, ht, rfl⟩ := Schema.map_eq_some.mp hw
  obtain ⟨hlength, -⟩ := Schema.refine_eq_some.mp ht
  obtain ⟨hstring, hbounds⟩ := Schema.refine_eq_some.mp hlength
  cases hstring
  refine ⟨?_, rfl⟩
  rintro rfl
  simp at hbounds

variable {unsafeInput input : Value} (requestId : Value)

/-- The get of a single item, after the last search. -/
theorem obeys_resolveCandidate {log : List Event} {result : Value} {lastSearchQuery : Text}
    (hok : isOk result = true)
    (hget : ∀ id, Names result id → Allowed platform unsafeInput log (getOf id)) :
    Obeys platform (Allowed platform unsafeInput)
      (resolveCandidate platform requestId result lastSearchQuery) log := by
  rw [resolveCandidate]
  split
  · trivial
  · next hcursor =>
    cases hitems : itemsOf "items" result with
    | nil => trivial
    | cons candidate rest =>
      cases rest with
      | cons _ _ => trivial
      | nil =>
        refine @callObeys_of _ _ .get _ log _ _ _ rfl (fun _ => rfl) (obeys_ite_done _)
          fun data hdata => ⟨?_, fun exact => obeys_ite_done _⟩
        obtain ⟨hne, rfl⟩ := eq_of_memoryGetInputSchema hdata
        cases hid : stringOf "id" candidate with
        | none => exact absurd (by rw [hid]; rfl) hne
        | some id => exact hget id ⟨hok, Bool.not_eq_true _ ▸ hcursor, candidate, hitems, hid⟩

theorem trim_normalizedQuery (query : Text) :
    trim (normalizedQuery query) = normalizedQuery query := trim_trim _

/-- The second search is the first under the normalized query. -/
theorem eq_retried {input data : Value}
    (hinput : memorySearchInputSchema platform unsafeInput = some input)
    (h : memorySearchInputSchema platform (retried input) = some data) : data = retried input := by
  have hshape := hinput
  obtain ⟨properties, w, parsed, rfl, -, hparsed, rfl⟩ := shape_cons_eq_some hshape
  have hkeys := List.nodup_cons.mp (nodup_memorySearchFields platform)
  have hrest : parsed.flatten.map (fun p => if p.1 = text "query" then
      (p.1, Value.string (normalizedQuery (queryOf (.object ((text "query", w) :: parsed.flatten)))))
      else p) = parsed.flatten := by
    refine (List.map_congr_left fun p hp => if_neg fun hkey => hkeys.1 ?_).trans (List.map_id _)
    exact (parsed_keys hparsed).subset (List.mem_map.mpr ⟨p, hp, hkey⟩)
  have hretried : retried (.object ((text "query", w) :: parsed.flatten)) = .object ((text "query",
      .string (normalizedQuery (queryOf (.object ((text "query", w) :: parsed.flatten))))) ::
        parsed.flatten) := by
    rw [retried, withQuery, List.map_cons, if_pos rfl, hrest]
  rw [hretried] at h ⊢
  rw [memorySearchInputSchema_replaced hinput h, trim_normalizedQuery]

/-- Whatever happens, the sequence dispatches only what is allowed. -/
theorem obeys_run (unsafeInput : Value) (aborted : Bool) :
    Obeys platform (Allowed platform unsafeInput) (run platform requestId unsafeInput)
      (if aborted then [.aborted] else []) := by
  refine obeys_look fun hlook => ?_
  obtain rfl : aborted = false := by
    cases aborted with
    | false => rfl
    | true => cases hlook
  cases hinput : memorySearchInputSchema platform unsafeInput with
  | none => trivial
  | some input =>
    have hstable := stable_memorySearchInputSchema platform unsafeInput input hinput
    refine @callObeys_of _ _ .search _ _ _ _ _ rfl (fun _ => rfl) trivial fun data hdata =>
      ⟨?_, fun output => ?_⟩
    · cases hdata.symm.trans hstable
      exact .first hinput
    · cases hdata.symm.trans hstable
      show Obeys platform _ (if _ then _ else _) (searched input output)
      split
      · trivial
      · next hok =>
        have hok : isOk output = true := by simpa using hok
        show Obeys platform _ (if _ then _ else _) (searched input output)
        split
        · next hretry =>
          simp only [Bool.and_eq_true, List.isEmpty_iff, Bool.not_eq_true', decide_eq_true_eq]
            at hretry
          obtain ⟨⟨⟨hitems, hcursor⟩, hinputCursor⟩, hquery⟩ := hretry
          have hmay : MayRetry input output := ⟨hok, hitems, hcursor, hinputCursor, hquery⟩
          refine @callObeys_of _ _ .search _ _ _ _ _ rfl (fun _ => rfl) trivial fun data hdata =>
            ⟨?_, fun other => ?_⟩
          · obtain rfl := eq_retried hinput hdata
            exact .retry hinput hmay
          · obtain rfl := eq_retried hinput hdata
            show Obeys platform _ (if _ then _ else _) _
            split
            · trivial
            · next hok' =>
              exact obeys_resolveCandidate requestId (by simpa using hok')
                fun id hid => .getRetried hinput hmay hid
        · exact obeys_resolveCandidate requestId hok fun id hid => .get hinput hid

end Sequence

/-! The race. -/

/-- The signal is aborted before the promise of `run` settles. -/
def AbortedFirst (log : List Event) : Prop :=
  ∃ before after, log = before ++ .aborted :: after ∧ .settled ∉ before

theorem abortedFirst_append {log : List Event} {event : Event} (h : AbortedFirst (log ++ [event])) :
    AbortedFirst log ∨ event = .aborted ∧ .settled ∉ log := by
  obtain ⟨before, after, hsplit, hbefore⟩ := h
  rcases List.eq_nil_or_concat after with rfl | ⟨init, last, rfl⟩
  · obtain ⟨rfl, hlast⟩ := List.append_inj' hsplit rfl
    exact .inr ⟨(List.cons.inj hlast).1, hbefore⟩
  · rw [List.concat_eq_append, ← List.cons_append, ← List.append_assoc] at hsplit
    obtain ⟨rfl, -⟩ := List.append_inj' hsplit rfl
    exact .inl ⟨before, init, rfl, hbefore⟩

/-- Who won the race. -/
structure Raced (s : Execution) : Prop where
  unsettled : .settled ∉ s.log → s.raced = none ∨ s.raced = some (.ok (failure .deadlineExceeded))
  aborted : AbortedFirst s.log → s.raced = some (.ok (failure .deadlineExceeded))
  result : ∀ output, s.result = some output →
    s.raced = some (.ok output) ∨ s.raced = some (.error ())

section Race

variable {platform : Platform}

/-- An event that is no abort decides nothing. -/
theorem Raced.next {s : Execution} {event : Event} {phase : Phase} {toolAborted : Bool}
    (h : Raced s) (habort : event ≠ .aborted) :
    Raced { s with phase, toolAborted, log := s.log ++ [event] } := by
  refine ⟨fun hsettled => h.unsettled fun hmem => ?_, fun hfirst => ?_, h.result⟩
  · exact hsettled (List.mem_append_left _ hmem)
  · rcases abortedFirst_append hfirst with hfirst | ⟨heq, -⟩
    · exact h.aborted hfirst
    · exact absurd heq habort

theorem Raced.callTool {s : Execution} {tool : Tool} {input : Value}
    {next : Except Unit Value → Retrieval (Except Unit Value)} (h : Raced s) :
    Raced (callTool platform s tool input next) := by
  unfold DefensiveRetrieval.callTool
  split
  · exact h.next (by simp)
  · exact h.next (by simp)

theorem Raced.advance : ∀ {p : Retrieval (Except Unit Value)} {s : Execution}, Raced s →
    Raced (advance platform s p) := by
  intro p
  induction p with
  | done result =>
    intro s h
    refine ⟨fun hsettled => absurd (List.mem_append_right _ List.mem_cons_self) hsettled,
      fun hfirst => ?_, fun output houtput => ?_⟩
    · rcases abortedFirst_append hfirst with hfirst | ⟨heq, -⟩
      · show s.raced.or _ = _
        rw [h.aborted hfirst]
        rfl
      · cases heq
    · show s.raced.or _ = _ ∨ s.raced.or _ = _
      rcases h.result output houtput with hraced | hraced
      · rw [hraced]
        exact .inl rfl
      · rw [hraced]
        exact .inr rfl
  | ask request next ih =>
    intro s h
    cases request with
    | aborted => exact ih _ h
    | cancelled => exact ih _ h
    | search input => exact h.callTool
    | get input => exact h.callTool

theorem Raced.step {s t : Execution} {label : Label} (h : Raced s)
    (hstep : step platform s label = some t) : Raced t := by
  cases label with
  | abort =>
    rw [DefensiveRetrieval.step] at hstep
    split at hstep
    · cases hstep
    · next hopen =>
      cases hstep
      have hwon : .settled ∉ s.log →
          s.raced.or (some (.ok (failure .deadlineExceeded))) = some (.ok (failure .deadlineExceeded)) := by
        intro hsettled
        rcases h.unsettled hsettled with hraced | hraced
        · rw [hraced]
          rfl
        · rw [hraced]
          rfl
      refine ⟨fun hsettled => .inr (hwon fun hmem => hsettled (List.mem_append_left _ hmem)),
        fun hfirst => ?_, fun output houtput => ?_⟩
      · rcases abortedFirst_append hfirst with hfirst | ⟨-, hsettled⟩
        · show s.raced.or _ = _
          rw [h.aborted hfirst]
          rfl
        · exact hwon hsettled
      · have hnone : s.result = none := by
          simp only [Bool.or_eq_true, not_or, Bool.not_eq_true, Option.isSome_eq_false_iff,
            Option.isNone_iff_eq_none] at hopen
          exact hopen.1
        cases hnone.symm.trans houtput
  | toolTimer =>
    cases hstep
    exact ⟨h.unsettled, h.aborted, h.result⟩
  | client reply =>
    rw [DefensiveRetrieval.step] at hstep
    split at hstep
    · split at hstep
      · cases hstep
        exact ⟨h.unsettled, h.aborted, h.result⟩
      · cases hstep
    · cases hstep
  | resume =>
    rw [DefensiveRetrieval.step] at hstep
    split at hstep
    · cases hstep
      exact h.next (by simp)
    · cases hstep
      exact h.advance
    · cases hstep
  | finish =>
    rw [DefensiveRetrieval.step] at hstep
    split at hstep
    · next output hraced _ =>
      cases hstep
      refine ⟨h.unsettled, h.aborted, fun other hother => .inl ?_⟩
      cases hother
      exact hraced
    · next error hraced _ =>
      cases hstep
      exact ⟨h.unsettled, h.aborted, fun _ _ => .inr hraced⟩
    · cases hstep

theorem raced_start {requestId unsafeInput : Value} {aborted : Bool} {s₀ : Execution}
    (hstart : start platform requestId unsafeInput aborted = .ok s₀) : Raced s₀ := by
  obtain ⟨-, -, hstart⟩ := bind_eq_ok.mp hstart
  cases hstart
  refine Raced.advance ⟨fun _ => ?_, fun hfirst => ?_, fun output houtput => by cases houtput⟩
  · cases aborted with
    | false => exact .inl rfl
    | true => exact .inr rfl
  · cases aborted with
    | false =>
      obtain ⟨before, after, hsplit, -⟩ := hfirst
      simp at hsplit
    | true => rfl

/-- Once an abort has won, the call returns the failure of its deadline and nothing else. -/
theorem Raced.deadline {s : Execution} (h : Raced s) (hfirst : AbortedFirst s.log) :
    (∀ output, s.result = some output → output = failure .deadlineExceeded) ∧
      (s.result = none → DefensiveRetrieval.step platform s .finish =
        some { s with result := some (failure .deadlineExceeded) }) := by
  have hraced := h.aborted hfirst
  constructor
  · intro output houtput
    rcases h.result output houtput with heq | heq
    · cases hraced.symm.trans heq
      rfl
    · cases hraced.symm.trans heq
  · intro hnone
    simp only [DefensiveRetrieval.step, hraced, hnone]

end Race

/-! The calls of a log. -/

def dispatches : List Event → List Dispatch
  | [] => []
  | .dispatched call :: rest => call :: dispatches rest
  | _ :: rest => dispatches rest

theorem dispatches_append (first second : List Event) :
    dispatches (first ++ second) = dispatches first ++ dispatches second := by
  induction first with
  | nil => rfl
  | cons event rest ih => cases event <;> simp [dispatches, ih]

theorem exists_split_of_mem {log : List Event} {call : Dispatch} (h : call ∈ dispatches log) :
    ∃ before after, log = before ++ .dispatched call :: after := by
  induction log with
  | nil => cases h
  | cons event rest ih =>
    cases event with
    | dispatched other =>
      rcases List.mem_cons.mp h with rfl | h
      · exact ⟨[], rest, rfl⟩
      · obtain ⟨before, after, rfl⟩ := ih h
        exact ⟨.dispatched other :: before, after, rfl⟩
    | _ =>
      obtain ⟨before, after, rfl⟩ := ih h
      exact ⟨_ :: before, after, rfl⟩

/-- A log without calls, or one whose last call is known. -/
theorem eq_nil_or_last (log : List Event) : dispatches log = [] ∨
    ∃ before call after, log = before ++ .dispatched call :: after ∧ dispatches after = [] := by
  induction log with
  | nil => exact .inl rfl
  | cons event rest ih =>
    rcases ih with hnone | ⟨before, call, after, rfl, hafter⟩
    · cases event with
      | dispatched call => exact .inr ⟨[], call, rest, rfl, hnone⟩
      | _ => exact .inl hnone
    · exact .inr ⟨event :: before, call, after, rfl, hafter⟩

/-- At most two searches, then at most one get. -/
def Counted (calls : List Dispatch) : Prop :=
  ∃ searches gets : List Value, calls = searches.map (⟨.search, ·⟩) ++ gets.map (⟨.get, ·⟩) ∧
    searches.length ≤ 2 ∧ gets.length ≤ 1

/-- The other properties stay as they are. -/
theorem property_withQuery {key : String} (hkey : text "query" ≠ text key) (query : Text)
    (properties : List (Text × Value)) : Value.property (properties.map fun p =>
      if p.1 = text "query" then (p.1, Value.string query) else p) (text key) =
        Value.property properties (text key) := by
  induction properties with
  | nil => rfl
  | cons p rest ih =>
    rw [List.map_cons]
    by_cases hp : p.1 = text "query"
    · have hne : p.1 ≠ text key := fun heq => hkey (hp.symm.trans heq)
      rw [if_pos hp, Value.property_cons_of_ne hne, ← ih]
      exact Value.property_cons_of_ne (p := (p.1, .string query)) hne
    · rw [if_neg hp]
      by_cases hkey : p.1 = text key
      · rw [Value.property_cons_self hkey, Value.property_cons_self hkey]
      · rw [Value.property_cons_of_ne hkey, ih, Value.property_cons_of_ne hkey]

theorem isDefined_withQuery {key : String} (hkey : text "query" ≠ text key) (query : Text)
    (input : Value) : isDefined key (withQuery query input) = isDefined key input := by
  cases input with
  | object properties => simp only [withQuery, isDefined, property_withQuery hkey query properties]
  | _ => rfl

section Calls

variable {platform : Platform} {unsafeInput : Value} {before : List Event} {call : Dispatch}

/-- What happens before a call is known, and an abort is no part of it. -/
theorem Allowed.isAborted (h : Allowed platform unsafeInput before call) :
    isAborted before = false := by
  cases h <;> rfl

theorem Allowed.counted (h : Allowed platform unsafeInput before call) :
    Counted (dispatches before ++ [call]) := by
  cases h with
  | @first input => exact ⟨[input], [], rfl, by simp, by simp⟩
  | @retry input => exact ⟨[input, retried input], [], rfl, by simp, by simp⟩
  | @get input _ id => exact ⟨[input], [_], rfl, by simp, by simp⟩
  | @getRetried input => exact ⟨[input, retried input], [_], rfl, by simp, by simp⟩

/-- A cursor is sent under the query it came with. -/
theorem Allowed.cursor (h : Allowed platform unsafeInput before call) (htool : call.tool = .search)
    (hcursor : isDefined "cursor" call.input = true) :
    memorySearchInputSchema platform unsafeInput = some call.input := by
  cases h with
  | first hinput => exact hinput
  | retry hinput hretry =>
    rw [retried, isDefined_withQuery (by decide), hretry.cursor] at hcursor
    cases hcursor
  | get => cases htool
  | getRetried => cases htool

end Calls

/-- The calls of a log, and what happened before each. -/
structure Disciplined (platform : Platform) (unsafeInput : Value) (log : List Event) : Prop where
  allowed : AllAllowed (Allowed platform unsafeInput) log
  counted : Counted (dispatches log)
  aborted : ∀ before after, log = before ++ .aborted :: after → dispatches after = []
  cursor : ∀ call ∈ dispatches log, call.tool = .search → isDefined "cursor" call.input = true →
    memorySearchInputSchema platform unsafeInput = some call.input

theorem disciplined_of_allAllowed {platform : Platform} {unsafeInput : Value} {log : List Event}
    (h : AllAllowed (Allowed platform unsafeInput) log) : Disciplined platform unsafeInput log := by
  refine ⟨h, ?_, ?_, ?_⟩
  · rcases eq_nil_or_last log with hnone | ⟨before, call, after, rfl, hafter⟩
    · exact hnone ▸ ⟨[], [], rfl, by decide, by decide⟩
    · have hcounted := (h before call after rfl).counted
      rwa [dispatches_append, dispatches, hafter]
  · rintro before after rfl
    rcases eq_nil_or_last after with hnone | ⟨middle, call, rest, rfl, -⟩
    · exact hnone
    · have hseen := (h (before ++ .aborted :: middle) call rest (by simp)).isAborted
      simp [Event.isAborted] at hseen
  · intro call hcall htool hcursor
    obtain ⟨before, after, hsplit⟩ := exists_split_of_mem hcall
    exact (h before call after hsplit).cursor htool hcursor

/-- Over any client and any timing, one call dispatches at most two searches and then at
most one get, each only where it is allowed and none once the signal is aborted; and where
the signal is aborted before the sequence settles, the call returns that its deadline is
exceeded, and can return at once. -/
theorem dispatch_discipline (platform : Platform) {requestId unsafeInput : Value} {aborted : Bool}
    {s₀ s : Execution} {labels : List Label}
    (hstart : start platform requestId unsafeInput aborted = .ok s₀)
    (h : execute (step platform) s₀ labels = some s) :
    Disciplined platform unsafeInput s.log ∧
      (AbortedFirst s.log →
        (∀ output, s.result = some output → output = failure .deadlineExceeded) ∧
          (s.result = none →
            step platform s .finish = some { s with result := some (failure .deadlineExceeded) })) := by
  constructor
  · exact disciplined_of_allAllowed (execute_obeys (obeys_run requestId unsafeInput aborted) hstart h)
  · intro hfirst
    exact (invariant_execute Raced.step (raced_start hstart) h).deadline hfirst

/-- A search under a query that can be normalized, aborted while the client is silent. -/
theorem dispatch_discipline_silent : ∃ s : Execution,
    Disciplined asciiPlatform (.object [property "query" (.string (text "two  words"))]) s.log ∧
      (dispatches s.log).length = 1 ∧ s.result = some (failure .deadlineExceeded) := by
  have hdiscipline := @dispatch_discipline asciiPlatform .null
    (.object [property "query" (.string (text "two  words"))]) false _ _ [.abort, .finish] rfl rfl
  exact ⟨_, hdiscipline.1, rfl, rfl⟩

end DefensiveRetrieval
