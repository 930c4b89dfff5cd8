import SupabaseUserMcp.MemoryRpc.Payloads

/- The database behind the fixed client. A deployment is a database, the session of a
   caller and the gateway in front of its functions. What the client parses of an answer is
   a page of one list or a record: of the results of a search, of the recent memories, or
   of the caller's memories. So what holds of faithful clients holds of the database. -/
namespace MemoryRpc

open Sql PolicyLab
open Js (Value fieldOf)
open DefensiveRetrieval (Row Terms queryOf termsOf)
open FixedClient (Answer MemoryRead limitOf parsePayload)
open ReadTools (stringOf)

/-! ## Deployments -/

/-- What a search is given besides its limit and its cursor. -/
structure SearchTerms where
  query : Text
  mode : Option Text
  filters : Option Jsonb

/-- The gateway in front of the functions: it reads the members of a body as the arguments of
those names, and reports an error of the database with a status of its own. -/
structure Gateway where
  /-- A JSON string as a text, where the database has one. -/
  textOf : Js.Text → Option Text
  textOf_eq : ∀ {s text}, textOf s = some text → Js.text text = s
  jsonbOf : Value → Option Jsonb
  status : SqlError → ℕ
  /-- Of a body with an argument that cannot be read. -/
  unreadable : ℕ

namespace Gateway

variable (gateway : Gateway)

/-- An argument that is not there has its default. -/
def modeOf : Option Value → Option (Option Text)
  | none => some (some "text")
  | some (.string s) => (gateway.textOf s).map some
  | some _ => none

def filtersOf : Option Value → Option (Option Jsonb)
  | none => some none
  | some filters => (gateway.jsonbOf filters).map some

def termsOf (terms : Terms) : Option SearchTerms := do
  let query ← gateway.textOf terms.query
  let mode ← gateway.modeOf terms.mode
  let filters ← gateway.filtersOf terms.filters
  return ⟨query, mode, filters⟩

def cursorOf : Option Js.Text → Option (Option Text)
  | none => some none
  | some cursor => (gateway.textOf cursor).map some

def searchArgs (input : Value) : Option SearchArgs := do
  let terms ← gateway.termsOf (DefensiveRetrieval.termsOf (queryOf input) input)
  let cursor ← gateway.cursorOf (stringOf "cursor" input)
  return ⟨some terms.query, terms.mode, terms.filters, some (limitOf input), cursor⟩

def listRecentArgs (input : Value) : Option ListRecentArgs := do
  let filters ← gateway.filtersOf (fieldOf "filters" input)
  let cursor ← gateway.cursorOf (stringOf "cursor" input)
  return ⟨filters, some (limitOf input), cursor⟩

theorem text_cursorOf {gateway : Gateway} {s : Option Js.Text} {cursor : Option Text}
    (h : gateway.cursorOf s = some cursor) : cursor.map Js.text = s := by
  cases s with
  | none =>
    cases h
    rfl
  | some s =>
    obtain ⟨c, hc, rfl⟩ := Option.map_eq_some_iff.mp h
    exact congrArg some (gateway.textOf_eq hc)

end Gateway

/-- A row of a search and its rank. -/
def rankedRow (server : Server) (query : Text) (m : Memory) : Row × Js.Number :=
  (clientRow server m, rankNumber server query m)

/-- A database, a caller and a gateway. Cursors are digests: they have the form of a cursor,
and no two memories of the caller have one digest. -/
structure Deployment where
  server : Server
  tables : Tables
  session : Session
  gateway : Gateway
  cursors : ∀ query m, m ∈ tables.visibleMemories session →
    FixedClient.isOpaqueCursor (Js.text (searchToken server query m)) = true
  distinct : ∀ query m m', m ∈ tables.visibleMemories session →
    m' ∈ tables.visibleMemories session →
    searchToken server query m = searchToken server query m' → m.memoryId = m'.memoryId

namespace Deployment

variable (deployment : Deployment)

/-- What the gateway answers to a request of the client: a value or a status. -/
def answer (read : MemoryRead) (input : Value) : Except ℕ Jsonb :=
  match read with
  | .search =>
    match deployment.gateway.searchArgs input with
    | none => .error deployment.gateway.unreadable
    | some args => (authorizedMemorySearchV1 deployment.server deployment.tables
        deployment.session args).mapError deployment.gateway.status
  | .get =>
    match deployment.gateway.textOf ((stringOf "id" input).getD []) with
    | none => .error deployment.gateway.unreadable
    | some id => .ok
        (authorizedMemoryGetV1 deployment.server deployment.tables deployment.session (some id))
  | .listRecent =>
    match deployment.gateway.listRecentArgs input with
    | none => .error deployment.gateway.unreadable
    | some args => (authorizedMemoryListRecentV1 deployment.server deployment.tables
        deployment.session args).mapError deployment.gateway.status

/-- All results of a search, in their order. -/
def results (terms : SearchTerms) : List Memory :=
  Keyset.orderDesc (searchKey deployment.server terms.query)
    (searchRows deployment.server terms.query terms.filters ⟨deployment.tables, deployment.session⟩)

/-- The recent memories, in their order. -/
def recents (filters : Option Jsonb) : List Memory :=
  Keyset.orderDesc (listRecentKey deployment.server)
    (listRecentEligible deployment.tables deployment.session filters)

/-- The digests of `memory_list_recent` are cursors, and no two memories of the caller have
one digest. -/
structure RecentCursors : Prop where
  cursors : ∀ m ∈ deployment.tables.visibleMemories deployment.session,
    FixedClient.isOpaqueCursor (Js.text (listRecentToken deployment.server m)) = true
  distinct : ∀ m ∈ deployment.tables.visibleMemories deployment.session,
    ∀ m' ∈ deployment.tables.visibleMemories deployment.session,
    listRecentToken deployment.server m = listRecentToken deployment.server m' →
      m.memoryId = m'.memoryId

end Deployment

/-! ## Cursors -/

theorem isOpaqueCursor_decimal (n : ℕ) : FixedClient.isOpaqueCursor (Js.decimal n) = false := by
  rw [Bool.eq_false_iff, FixedClient.isOpaqueCursor]
  intro h
  simp only [Bool.and_eq_true, Js.Schema.prefixed] at h
  obtain ⟨-, ⟨hstart, -⟩, -⟩ := h
  -- a cursor begins with a letter
  have hletter : 0x63 ∈ Js.decimal n := (List.isPrefixOf_iff_prefix.mp hstart).subset (by decide)
  exact absurd (Js.isDigit_of_mem_decimal hletter) (by decide)

/-- The cursor after so many rows of a list; after none and past the last it is a number. -/
def tokenAfter (token : Memory → Text) (sorted : List Memory) (k : ℕ) : Js.Text :=
  (if k = 0 then none else sorted[k - 1]?).elim (Js.decimal k) fun m => Js.text (token m)

section Tokens

variable {token : Memory → Text} {sorted : List Memory}

theorem tokenAfter_of_getElem? {k : ℕ} {m : Memory} (h : sorted[k]? = some m) :
    tokenAfter token sorted (k + 1) = Js.text (token m) := by
  rw [tokenAfter, if_neg (Nat.succ_ne_zero k), Nat.add_sub_cancel, h]
  rfl

theorem tokenAfter_cases (k : ℕ) : tokenAfter token sorted k = Js.decimal k ∨
    ∃ j m, k = j + 1 ∧ sorted[j]? = some m ∧ tokenAfter token sorted k = Js.text (token m) := by
  rw [tokenAfter]
  split
  · exact .inl rfl
  · next hk =>
    cases helem : sorted[k - 1]? with
    | none => exact .inl rfl
    | some m => exact .inr ⟨k - 1, m, by omega, helem, rfl⟩

theorem tokenAfter_injective (hids : (sorted.map Memory.memoryId).Nodup)
    (hcursors : ∀ m ∈ sorted, FixedClient.isOpaqueCursor (Js.text (token m)) = true)
    (hdistinct : ∀ m ∈ sorted, ∀ m' ∈ sorted, token m = token m' → m.memoryId = m'.memoryId) :
    Function.Injective (tokenAfter token sorted) := by
  have hcursor : ∀ {j n : ℕ} {m : Memory}, sorted[j]? = some m →
      Js.decimal n ≠ Js.text (token m) := by
    intro j n m hm heq
    have hopaque := hcursors m (List.mem_of_getElem? hm)
    rw [← heq, isOpaqueCursor_decimal] at hopaque
    cases hopaque
  intro k l h
  obtain hk | ⟨i, m, rfl, hm, hk⟩ := @tokenAfter_cases token sorted k
  · obtain hl | ⟨j, m', rfl, hm', hl⟩ := @tokenAfter_cases token sorted l
    · exact Js.decimal_injective (hk.symm.trans (h.trans hl))
    · exact absurd (hk.symm.trans (h.trans hl)) (hcursor hm')
  · obtain hl | ⟨j, m', rfl, hm', hl⟩ := @tokenAfter_cases token sorted l
    · exact absurd (hl.symm.trans (h.symm.trans hk)) (hcursor hm)
    · have hid := hdistinct m (List.mem_of_getElem? hm) m' (List.mem_of_getElem? hm')
        (text_injective (hk.symm.trans (h.trans hl)))
      have hsame : (sorted.map Memory.memoryId)[i]? = (sorted.map Memory.memoryId)[j]? := by
        rw [List.getElem?_map, List.getElem?_map, hm, hm']
        exact congrArg some hid
      have hi := (List.getElem?_eq_some_iff.mp hm).1
      rw [List.getElem?_inj (by simpa using hi) hids] at hsame
      rw [hsame]

end Tokens

/-- How many rows a cursor has left behind, where it is one of the list. -/
def positionOf (token : ℕ → Js.Text) (length : ℕ) : Option Js.Text → Option ℕ
  | none => some 0
  | some cursor => (List.range' 1 length).find? fun k => token k = cursor

theorem positionOf_token {token : ℕ → Js.Text} (hinj : Function.Injective token) {length k : ℕ}
    (hpos : 1 ≤ k) (hle : k ≤ length) : positionOf token length (some (token k)) = some k := by
  have hmem : k ∈ List.range' 1 length := by
    rw [List.mem_range'_1]
    omega
  rw [positionOf]
  cases hfind : (List.range' 1 length).find? fun j => decide (token j = token k) with
  | none => exact absurd (List.find?_eq_none.mp hfind k hmem) (by simp)
  | some j =>
    have htoken : token j = token k := by simpa using List.find?_some hfind
    rw [hinj htoken]

/-- A list of rows that is read page by page. -/
structure Listing where
  rows : List Row
  token : ℕ → Js.Text

namespace Listing

variable (listing : Listing)

def position (cursor : Option Js.Text) : Option ℕ :=
  positionOf listing.token listing.rows.length cursor

/-- The page after so many rows. -/
def page (k limit : ℕ) : List Value × Option Js.Text :=
  (((listing.rows.drop k).take limit).map Row.toValue,
    if k + limit < listing.rows.length then some (listing.token (k + limit)) else none)

end Listing

/-! ## The snapshot of a deployment -/

theorem searchRows_sublist (server : Server) (query : Text) (filters : Option Jsonb) (db : Snapshot) :
    List.Sublist (searchRows server query filters db) (db.tables.visibleMemories db.session) := by
  rw [searchRows]
  cases heligible : searchEligible server db.tables db.session query filters with
  | error e => exact List.nil_sublist _
  | ok rows => exact filterExcept_sublist heligible

section Results

variable {deployment : Deployment} {terms : SearchTerms}

theorem visible_of_mem_results {m : Memory} (h : m ∈ deployment.results terms) :
    m ∈ deployment.tables.visibleMemories deployment.session := by
  rw [Deployment.results, Keyset.mem_orderDesc] at h
  exact (searchRows_sublist deployment.server terms.query terms.filters
    ⟨deployment.tables, deployment.session⟩).subset h

theorem nodup_searchRows (deployment : Deployment) (terms : SearchTerms) :
    ((searchRows deployment.server terms.query terms.filters
      ⟨deployment.tables, deployment.session⟩).map Memory.memoryId).Nodup :=
  ((searchRows_sublist deployment.server terms.query terms.filters
    ⟨deployment.tables, deployment.session⟩).map Memory.memoryId).nodup nodup_visibleMemories

theorem nodup_results (deployment : Deployment) (terms : SearchTerms) :
    ((deployment.results terms).map Memory.memoryId).Nodup :=
  ((Keyset.orderDesc_perm _).map _).nodup_iff.mpr (nodup_searchRows deployment terms)

theorem visible_of_mem_recents {filters : Option Jsonb} {m : Memory}
    (h : m ∈ deployment.recents filters) :
    m ∈ deployment.tables.visibleMemories deployment.session := by
  rw [Deployment.recents, Keyset.mem_orderDesc] at h
  exact List.mem_of_mem_filter h

theorem nodup_listRecentEligible (deployment : Deployment) (filters : Option Jsonb) :
    ((listRecentEligible deployment.tables deployment.session filters).map
      Memory.memoryId).Nodup :=
  (List.filter_sublist.map _).nodup nodup_visibleMemories

theorem nodup_recents (deployment : Deployment) (filters : Option Jsonb) :
    ((deployment.recents filters).map Memory.memoryId).Nodup :=
  ((Keyset.orderDesc_perm _).map _).nodup_iff.mpr (nodup_listRecentEligible deployment filters)

end Results

namespace Deployment

variable {deployment : Deployment}

/-- The cursor after so many results. -/
def token (deployment : Deployment) (terms : SearchTerms) : ℕ → Js.Text :=
  tokenAfter (searchToken deployment.server terms.query) (deployment.results terms)

theorem token_injective (terms : SearchTerms) : Function.Injective (deployment.token terms) :=
  tokenAfter_injective (nodup_results deployment terms)
    (fun m hm => deployment.cursors _ m (visible_of_mem_results hm))
    fun m hm m' hm' => deployment.distinct _ m m' (visible_of_mem_results hm)
      (visible_of_mem_results hm')

theorem RecentCursors.token_injective (h : deployment.RecentCursors) (filters : Option Jsonb) :
    Function.Injective
      (tokenAfter (listRecentToken deployment.server) (deployment.recents filters)) :=
  tokenAfter_injective (nodup_recents deployment filters)
    (fun m hm => h.cursors m (visible_of_mem_recents hm))
    fun m hm m' hm' => h.distinct m (visible_of_mem_recents hm) m' (visible_of_mem_recents hm')

variable (deployment)

/-- The caller's memories and the results of every search. -/
def snapshot : DefensiveRetrieval.Snapshot where
  memories := (deployment.tables.visibleMemories deployment.session).map
    (clientRow deployment.server)
  nodup_ids := by
    have hids := (@nodup_visibleMemories deployment.tables deployment.session).map text_injective
    rw [List.map_map] at hids ⊢
    exact hids
  results terms := ((deployment.gateway.termsOf terms).elim [] fun terms =>
    (deployment.results terms).map (rankedRow deployment.server terms.query))
  results_memories terms p hp := by
    cases hterms : deployment.gateway.termsOf terms with
    | none =>
      rw [hterms] at hp
      cases hp
    | some terms =>
      rw [hterms] at hp
      obtain ⟨m, hm, rfl⟩ := List.mem_map.mp hp
      exact List.mem_map_of_mem (visible_of_mem_results hm)
  nodup_results terms := by
    cases deployment.gateway.termsOf terms with
    | none => exact List.nodup_nil
    | some terms =>
      have hids := (nodup_results deployment terms).map text_injective
      rw [List.map_map] at hids
      show (((deployment.results terms).map _).map _).Nodup
      rw [List.map_map]
      exact hids
  token terms := (deployment.gateway.termsOf terms).elim Js.decimal deployment.token
  token_injective terms := by
    cases deployment.gateway.termsOf terms with
    | none => exact Js.decimal_injective
    | some terms => exact token_injective terms

/-- The recent memories under an input's filters. -/
def listing (filters : Option Value) : Listing :=
  (deployment.gateway.filtersOf filters).elim ⟨[], Js.decimal⟩ fun filters =>
    ⟨(deployment.recents filters).map (clientRow deployment.server),
      tokenAfter (listRecentToken deployment.server) (deployment.recents filters)⟩

/-- What the client is to return of a read. -/
def Serves : (read : MemoryRead) → Value → Answer read → Prop
  | .search, input, page =>
    ∃ k, deployment.snapshot.position (termsOf (queryOf input) input) (stringOf "cursor" input) =
        some k ∧ page = deployment.snapshot.page (termsOf (queryOf input) input) k (limitOf input)
  | .get, input, row =>
    row = (deployment.snapshot.find? ((stringOf "id" input).getD [])).map Row.toValue
  | .listRecent, input, page =>
    ∃ k, (deployment.listing (fieldOf "filters" input)).position (stringOf "cursor" input) =
        some k ∧ page = (deployment.listing (fieldOf "filters" input)).page k (limitOf input)

end Deployment

/-! ## A page -/

/-- Where a cursor is in the results: how many it has left behind. -/
def Position (token : Memory → Text) (sorted : List Memory) (cursor : Option Text)
    (k : ℕ) : Prop :=
  match cursor with
  | none => k = 0
  | some cursor => ∃ j m, k = j + 1 ∧ sorted[j]? = some m ∧ token m = cursor

/-- A page is cut from the results by its cursor and its limit. -/
theorem paginate_eq_page {Key : Type} [LinearOrder Key] {key : Memory → Key}
    {token : Memory → Text} {rows : List Memory} {limit : ℕ} {cursor : Option Text} {page : Page}
    (hkeys : (rows.map key).Nodup) (h : paginate key token rows limit cursor = .ok page) :
    ∃ k, Position token (Keyset.orderDesc key rows) cursor k ∧
      page = ⟨((Keyset.orderDesc key rows).drop k).take limit,
        decide (limit < ((Keyset.orderDesc key rows).drop k).length),
        (((Keyset.orderDesc key rows).drop k).take limit).getLast?.map token⟩ := by
  have hsorted := Keyset.orderDesc_decreasing hkeys
  have hperm : (Keyset.orderDesc key rows).Perm rows := Keyset.orderDesc_perm rows
  cases cursor with
  | none =>
    cases h
    exact ⟨0, rfl, pageOf_eq hsorted hperm limit⟩
  | some cursor =>
    simp only [paginate] at h
    split at h
    · cases h
    · next a hanchors =>
      cases h
      have ha : a ∈ anchors token rows cursor := by
        rw [hanchors]
        exact List.mem_singleton_self a
      rw [anchors, mem_filter, holds_eq, Option.some.injEq] at ha
      obtain ⟨j, hj, hja⟩ := List.getElem_of_mem (hperm.mem_iff.mpr ha.1)
      have hja : (Keyset.orderDesc key rows)[j]? = some a := List.getElem?_eq_some_iff.mpr ⟨hj, hja⟩
      refine ⟨j + 1, ⟨j, a, rfl, hja, ha.2.symm⟩, ?_⟩
      refine pageOf_eq (hsorted.sublist (List.drop_sublist _ _)) ?_ limit
      rw [hsorted.drop_eq_filter hja]
      exact hperm.filter _
    · cases h

/-- Such a page in the words of the client, and the row that its cursor names. -/
structure Cut (token : Memory → Text) (sorted : List Memory) (limit k : ℕ) (page : Page) :
    Prop where
  rows : page.rows = (sorted.drop k).take limit
  nextCursor : page.nextCursor.map Js.text =
    if k + limit < sorted.length then some (tokenAfter token sorted (k + limit)) else none
  nextToken : page.hasMore = true → ∃ m ∈ sorted, page.nextToken = some (token m)

theorem cut_of_paginate {Key : Type} [LinearOrder Key] {key : Memory → Key}
    {token : Memory → Text} {rows : List Memory} {limit : ℕ} {cursor : Option Text} {page : Page}
    (hkeys : (rows.map key).Nodup) (hlimit : 0 < limit)
    (h : paginate key token rows limit cursor = .ok page) :
    ∃ k, Position token (Keyset.orderDesc key rows) cursor k ∧
      Cut token (Keyset.orderDesc key rows) limit k page := by
  obtain ⟨k, hposition, hcut⟩ := paginate_eq_page hkeys h
  refine ⟨k, hposition, ?_⟩
  generalize Keyset.orderDesc key rows = sorted at hcut ⊢
  have hnext : page.hasMore = true → ∃ j m, k + limit = j + 1 ∧ sorted[j]? = some m ∧
      page.nextToken = some (token m) := by
    intro hmore
    rw [hcut, decide_eq_true_eq, List.length_drop] at hmore
    have hlt : k + (limit - 1) < sorted.length := by omega
    refine ⟨k + (limit - 1), sorted[k + (limit - 1)], by omega, List.getElem?_eq_getElem hlt, ?_⟩
    have hlength : ((sorted.drop k).take limit).length = limit := by
      rw [List.length_take, List.length_drop]
      omega
    rw [hcut, List.getLast?_eq_getElem?, hlength, List.getElem?_take_of_lt (by omega),
      List.getElem?_drop, List.getElem?_eq_getElem hlt]
    rfl
  refine ⟨by rw [hcut], ?_, fun hmore => ?_⟩
  · rw [Page.nextCursor]
    cases hmore : page.hasMore with
    | true =>
      obtain ⟨j, m, hj, hm, htoken⟩ := hnext hmore
      rw [hcut, decide_eq_true_eq, List.length_drop] at hmore
      rw [if_pos rfl, if_pos (by omega), htoken, hj, tokenAfter_of_getElem? hm]
      rfl
    | false =>
      rw [hcut, decide_eq_false_iff_not, List.length_drop] at hmore
      rw [if_neg Bool.false_ne_true, if_neg (by omega)]
      rfl
  · obtain ⟨j, m, -, hm, htoken⟩ := hnext hmore
    exact ⟨m, List.mem_of_getElem? hm, htoken⟩

/-- A cursor that the database accepts is one that the list gave out. -/
theorem Position.eq {token : Memory → Text} {sorted : List Memory} {cursor : Option Text} {k : ℕ}
    (hinj : Function.Injective (tokenAfter token sorted)) (h : Position token sorted cursor k) :
    positionOf (tokenAfter token sorted) sorted.length (cursor.map Js.text) = some k := by
  cases cursor with
  | none =>
    obtain rfl : k = 0 := h
    rfl
  | some cursor =>
    obtain ⟨j, m, rfl, hj, rfl⟩ := h
    have hlt := (List.getElem?_eq_some_iff.mp hj).1
    rw [Option.map_some, ← tokenAfter_of_getElem? hj]
    exact positionOf_token hinj (Nat.succ_le_succ j.zero_le) hlt

theorem limit_pos {limit : ℕ} {bound : ℤ} (h : limitRefused (some (limit : ℤ)) bound = false) :
    0 < limit := by
  obtain ⟨l, hl, hpos⟩ := limit_of_not_refused h
  cases hl
  omega

namespace Deployment

variable {deployment : Deployment} {input : Value} {json : Jsonb}

/-! ## The reads -/

theorem ok_of_mapError {ε δ α : Type} {x : Except ε α} {f : ε → δ} {a : α}
    (h : x.mapError f = .ok a) : x = .ok a := by
  cases x with
  | ok _ => exact congrArg Except.ok (Except.ok.inj h)
  | error _ => cases h

theorem ok_of_map {ε α β : Type} {x : Except ε α} {f : α → β} {b : β} (h : x.map f = .ok b) :
    ∃ a, x = .ok a ∧ f a = b := by
  cases x with
  | ok a => exact ⟨a, rfl, Except.ok.inj h⟩
  | error _ => cases h

/-- The arguments of a search that is answered, and the page that the answer holds. -/
theorem answer_search (h : deployment.answer .search input = .ok json) :
    ∃ terms cursor page, deployment.gateway.termsOf (termsOf (queryOf input) input) = some terms ∧
      deployment.gateway.cursorOf (stringOf "cursor" input) = some cursor ∧
      searchPage deployment.server deployment.tables deployment.session
        ⟨some terms.query, terms.mode, terms.filters, some (limitOf input), cursor⟩ = .ok page ∧
      json = page.toJson (searchMembers deployment.server terms.query) := by
  rw [answer] at h
  cases hargs : deployment.gateway.searchArgs input with
  | none =>
    rw [hargs] at h
    cases h
  | some args =>
    rw [hargs] at h
    obtain ⟨terms, hterms, hrest⟩ := Option.bind_eq_some_iff.mp hargs
    obtain ⟨cursor, hcursor, hargs'⟩ := Option.bind_eq_some_iff.mp hrest
    obtain rfl := Option.some.inj hargs'
    obtain ⟨page, hpage, hjson⟩ := ok_of_map (ok_of_mapError h)
    exact ⟨terms, cursor, page, hterms, hcursor, hpage, hjson.symm⟩

theorem answer_listRecent (h : deployment.answer .listRecent input = .ok json) :
    ∃ filters cursor page, deployment.gateway.filtersOf (fieldOf "filters" input) = some filters ∧
      deployment.gateway.cursorOf (stringOf "cursor" input) = some cursor ∧
      listRecentPage deployment.server deployment.tables deployment.session
        ⟨filters, some (limitOf input), cursor⟩ = .ok page ∧
      json = page.toJson (memoryMembers deployment.server) := by
  rw [answer] at h
  cases hargs : deployment.gateway.listRecentArgs input with
  | none =>
    rw [hargs] at h
    cases h
  | some args =>
    rw [hargs] at h
    obtain ⟨filters, hfilters, hrest⟩ := Option.bind_eq_some_iff.mp hargs
    obtain ⟨cursor, hcursor, hargs'⟩ := Option.bind_eq_some_iff.mp hrest
    obtain rfl := Option.some.inj hargs'
    obtain ⟨page, hpage, hjson⟩ := ok_of_map (ok_of_mapError h)
    exact ⟨filters, cursor, page, hfilters, hcursor, hpage, hjson.symm⟩

/-! What a snapshot holds of a search whose terms the gateway reads. -/

theorem snapshot_results {terms : SearchTerms} {searched : Terms}
    (h : deployment.gateway.termsOf searched = some terms) :
    deployment.snapshot.results searched =
      (deployment.results terms).map (rankedRow deployment.server terms.query) := by
  show (deployment.gateway.termsOf _).elim _ _ = _
  rw [h]
  rfl

theorem snapshot_token {terms : SearchTerms} {searched : Terms}
    (h : deployment.gateway.termsOf searched = some terms) :
    deployment.snapshot.token searched = deployment.token terms := by
  show (deployment.gateway.termsOf _).elim _ _ = _
  rw [h]
  rfl

theorem snapshot_position {terms : SearchTerms} {searched : Terms}
    (h : deployment.gateway.termsOf searched = some terms) (cursor : Option Js.Text) :
    deployment.snapshot.position searched cursor =
      positionOf (deployment.token terms) (deployment.results terms).length cursor := by
  cases cursor with
  | none => rfl
  | some cursor =>
    rw [DefensiveRetrieval.Snapshot.position, snapshot_token h, snapshot_results h, List.length_map]
    rfl

/-- The results of a search that returns a page. -/
theorem results_eq {terms : SearchTerms} {rows : List Memory}
    (h : searchEligible deployment.server deployment.tables deployment.session terms.query
      terms.filters = .ok rows) :
    deployment.results terms = Keyset.orderDesc (searchKey deployment.server terms.query) rows := by
  rw [results, searchRows, h]
  rfl

theorem serves_search (h : deployment.answer .search input = .ok json) :
    ∃ page, parsePayload .search input (valueOf json) = .ok page ∧
      deployment.Serves .search input page := by
  obtain ⟨terms, cursor, page, hterms, hcursor, hpage, rfl⟩ := answer_search h
  -- arguments that are not refused have a limit above 0, so a page that goes on is not empty
  rw [searchPage_eq] at hpage
  split at hpage
  · cases hpage
  next hrefused =>
  have hrefused := Bool.eq_false_iff.mpr hrefused
  simp only [searchRefused, Bool.or_eq_false_iff] at hrefused
  obtain ⟨rows, heligible, hpaginate⟩ := bind_eq_ok.mp hpage
  have hkeys := @nodup_searchKey deployment.server terms.query _ (nodup_searchRows deployment terms)
  have hresults := @results_eq deployment terms rows heligible
  have hrows : searchRows deployment.server terms.query terms.filters
      ⟨deployment.tables, deployment.session⟩ = rows := by
    rw [searchRows, show searchEligible _ _ _ terms.query terms.filters = _ from heligible]
    rfl
  rw [hrows] at hkeys
  obtain ⟨k, hposition, hcut⟩ := cut_of_paginate hkeys (limit_pos hrefused.1.2) hpaginate
  simp only [Option.getD_some] at hposition hcut
  rw [← hresults] at hposition hcut
  have hparse := @parse_searchPage deployment.server terms.query (limitOf input) page
    (by rw [hcut.rows]; exact List.length_take_le _ _) fun hmore => by
      obtain ⟨m, hm, hnext⟩ := hcut.nextToken hmore
      exact ⟨_, hnext, deployment.cursors _ _ (visible_of_mem_results hm)⟩
  refine ⟨_, hparse, k, ?_, Prod.ext ?_ ?_⟩
  · rw [snapshot_position hterms, ← Gateway.text_cursorOf hcursor]
    exact hposition.eq (token_injective terms)
  · show _ = (((deployment.snapshot.results _).drop k).take _).map _
    rw [snapshot_results hterms, hcut.rows, ← List.map_drop, ← List.map_take, List.map_map]
    rfl
  · show _ = if k + limitOf input < (deployment.snapshot.results _).length then
      some (deployment.snapshot.token _ (k + limitOf input)) else none
    rw [snapshot_results hterms, snapshot_token hterms, List.length_map]
    exact hcut.nextCursor

theorem serves_listRecent (hcursors : deployment.RecentCursors)
    (h : deployment.answer .listRecent input = .ok json) :
    ∃ page, parsePayload .listRecent input (valueOf json) = .ok page ∧
      deployment.Serves .listRecent input page := by
  obtain ⟨filters, cursor, page, hfilters, hcursor, hpage, rfl⟩ := answer_listRecent h
  have hlisting : deployment.listing (fieldOf "filters" input) =
      ⟨(deployment.recents filters).map (clientRow deployment.server),
        tokenAfter (listRecentToken deployment.server) (deployment.recents filters)⟩ := by
    rw [listing, hfilters]
    rfl
  rw [listRecentPage_eq] at hpage
  split at hpage
  · cases hpage
  next hrefused =>
  have hrefused := Bool.eq_false_iff.mpr hrefused
  simp only [listRecentRefused, Bool.or_eq_false_iff] at hrefused
  have hkeys := @nodup_listRecentKey deployment.server _ (nodup_listRecentEligible deployment filters)
  obtain ⟨k, hposition, hcut⟩ := cut_of_paginate hkeys (limit_pos hrefused.1) hpage
  have hparse := @parse_listPage deployment.server page fun hmore => by
    obtain ⟨m, hm, hnext⟩ := hcut.nextToken hmore
    exact ⟨_, hnext, hcursors.cursors m (@visible_of_mem_recents deployment filters m hm)⟩
  have hshort : ¬ limitOf input <
      (page.rows.map fun m => (clientRow deployment.server m).toValue).length := by
    rw [List.length_map, hcut.rows, Nat.not_lt]
    exact List.length_take_le _ _
  have hpayload : parsePayload .listRecent input
      (valueOf (page.toJson (memoryMembers deployment.server))) =
        .ok (page.rows.map fun m => (clientRow deployment.server m).toValue,
          page.nextCursor.map Js.text) := by
    simp only [parsePayload, hparse, Js.ok_bind, Js.throwIf, decide_eq_false hshort,
      Bool.false_eq_true, if_false]
    rfl
  refine ⟨_, hpayload, k, ?_, Prod.ext ?_ ?_⟩
  · have heq := hposition.eq (hcursors.token_injective filters)
    rw [Gateway.text_cursorOf hcursor] at heq
    rw [hlisting, Listing.position, List.length_map]
    exact heq
  · show page.rows.map _ = (((deployment.listing _).rows.drop k).take _).map _
    rw [hlisting, hcut.rows, ← List.map_drop, ← List.map_take, List.map_map]
    rfl
  · show _ = if k + limitOf input < (deployment.listing _).rows.length then
      some ((deployment.listing _).token (k + limitOf input)) else none
    rw [hlisting, List.length_map]
    exact hcut.nextCursor

/-- The rows with an id are those that the function looks for. -/
theorem find?_snapshot (id : Text) : deployment.snapshot.find? (Js.text id) =
    (getRecord deployment.tables deployment.session (some id)).map
      (clientRow deployment.server) := by
  cases hrecord : getRecord deployment.tables deployment.session (some id) with
  | some m =>
    obtain ⟨hm, hid⟩ := getRecord_eq_some.mp hrecord
    obtain rfl := Option.some.inj hid
    cases hfind : deployment.snapshot.find? (Js.text m.memoryId) with
    | none => exact absurd rfl (of_decide_eq_false (Bool.eq_false_iff.mpr
        (List.find?_eq_none.mp hfind (clientRow deployment.server m) (List.mem_map_of_mem hm))))
    | some row =>
      obtain ⟨m', hm', rfl⟩ := List.mem_map.mp (List.mem_of_find?_eq_some hfind)
      have hid := text_injective (of_decide_eq_true (List.find?_some hfind :))
      rw [visibleMemories_inj hm' hm hid]
      rfl
  | none =>
    refine List.find?_eq_none.mpr fun row hrow hid => ?_
    obtain ⟨m, hm, rfl⟩ := List.mem_map.mp hrow
    have hid := text_injective (of_decide_eq_true hid)
    rw [getRecord_eq_some.mpr ⟨hm, congrArg some hid.symm⟩] at hrecord
    cases hrecord

theorem answer_get (h : deployment.answer .get input = .ok json) :
    ∃ id, deployment.gateway.textOf ((stringOf "id" input).getD []) = some id ∧
      json = authorizedMemoryGetV1 deployment.server deployment.tables deployment.session
        (some id) := by
  rw [answer] at h
  cases hid : deployment.gateway.textOf ((stringOf "id" input).getD []) with
  | none =>
    rw [hid] at h
    cases h
  | some id =>
    rw [hid] at h
    exact ⟨id, rfl, (Except.ok.inj h).symm⟩

theorem serves_get (h : deployment.answer .get input = .ok json) :
    ∃ row, parsePayload .get input (valueOf json) = .ok row ∧
      deployment.Serves .get input row := by
  obtain ⟨id, hid, rfl⟩ := answer_get h
  show ∃ row, _ ∧ row = (deployment.snapshot.find? _).map Row.toValue
  rw [← deployment.gateway.textOf_eq hid, find?_snapshot, authorizedMemoryGetV1]
  cases getRecord deployment.tables deployment.session (some id) with
  | none =>
    refine ⟨none, ?_, rfl⟩
    show FixedClient.parseMemoryGetPayload (valueOf (.buildObject [("record", .null)])) = _
    rw [valueOf_record]
    rfl
  | some m =>
    refine ⟨some (clientRow deployment.server m).toValue, ?_, rfl⟩
    show FixedClient.parseMemoryGetPayload (valueOf (.buildObject
      [("record", .buildObject (memoryMembers deployment.server m))])) = _
    rw [valueOf_record, show valueOf (.buildObject (memoryMembers deployment.server m)) = _
      from rowOf_eq deployment.server m]
    rfl

/-- What the client parses of an answer is what it is to return. -/
theorem serves_of_answer {read : MemoryRead}
    (hrecent : read = .listRecent → deployment.RecentCursors)
    (h : deployment.answer read input = .ok json) :
    ∃ answer, parsePayload read input (valueOf json) = .ok answer ∧
      deployment.Serves read input answer := by
  cases read with
  | search => exact serves_search h
  | get => exact serves_get h
  | listRecent => exact serves_listRecent (hrecent rfl) h

end Deployment

end MemoryRpc
