import Mathlib.Data.String.Basic
import SupabaseUserMcp.MemoryRpc.Eligible

/- Two databases that agree on what the caller is and may read give the caller the same
   answers. `Agree` leaves everything else open: other memories, other principals, and
   the order in which a table lists its rows. -/
namespace MemoryRpc

open Sql PolicyLab

/-- The rows a caller may learn of are the same. -/
structure Agree (t t' : Tables) (s : Session) : Prop where
  principals : ∀ p : Principal, s.uid = some p.principalId →
    (p ∈ t.principals ↔ p ∈ t'.principals)
  clients : ∀ c : Client, s.clientClaim = some c.clientId → (c ∈ t.clients ↔ c ∈ t'.clients)
  memberships : ∀ m : Membership, s.uid = some m.principalId → s.clientClaim = some m.clientId →
    (m ∈ t.memberships ↔ m ∈ t'.memberships)
  grants : ∀ g : CapabilityGrant, s.uid = some g.principalId → s.clientClaim = some g.clientId →
    (g ∈ t.capabilityGrants ↔ g ∈ t'.capabilityGrants)
  memories : ∀ m, m ∈ t.visibleMemories s ↔ m ∈ t'.visibleMemories s

variable {server : Server} {t t' : Tables} {s : Session}

theorem Agree.symm (h : Agree t t' s) : Agree t' t s :=
  ⟨fun p hp => (h.principals p hp).symm, fun c hc => (h.clients c hc).symm,
    fun m hm hc => (h.memberships m hm hc).symm, fun g hg hc => (h.grants g hg hc).symm,
    fun m => (h.memories m).symm⟩

theorem Agree.entitled (h : Agree t t' s) {uid : Uuid} {client : Text} {capability : Capability}
    {workspace : Text} (he : Entitled t.unfiltered s uid client capability workspace) :
    Entitled t'.unfiltered s uid client capability workspace := by
  obtain ⟨huid, hclaim, ⟨p, hp, hpf⟩, ⟨c, hc, hcf⟩, ⟨m, hm, hmf⟩, ⟨g, hg, hgf⟩⟩ := he
  refine ⟨huid, hclaim, ⟨p, ?_, hpf⟩, ⟨c, ?_, hcf⟩, ⟨m, ?_, hmf⟩, ⟨g, ?_, hgf⟩⟩
  · exact (h.principals p (by rw [huid, hpf.1])).mp hp
  · exact (h.clients c (by rw [hclaim, hcf.1])).mp hc
  · exact (h.memberships m (by rw [huid, hmf.1]) (by rw [hclaim, hmf.2.1])).mp hm
  · exact (h.grants g (by rw [huid, hgf.1]) (by rw [hclaim, hgf.2.1])).mp hg

theorem Agree.hasActiveCapability (h : Agree t t' s) (capability : Capability)
    (workspace : Text) : hasActiveCapability t s capability workspace =
      hasActiveCapability t' s capability workspace := by
  apply Truth.eq_of_holds existsIn_ne_none existsIn_ne_none
  apply holds_activeContext.trans
  apply Iff.trans ?_ holds_activeContext.symm
  simp only [entitled_secured]
  constructor
  · intro ⟨uid, client, he⟩
    exact ⟨uid, client, h.entitled he⟩
  · intro ⟨uid, client, he⟩
    exact ⟨uid, client, h.symm.entitled he⟩

/-! ## Pages -/

section Pages

variable {Key : Type} [LinearOrder Key] {key : Memory → Key} {token : Memory → Text}

theorem pageOf_perm {below below' : List Memory} (hperm : below.Perm below')
    (hnodup : (below.map key).Nodup) (limit : ℕ) :
    pageOf key token limit below = pageOf key token limit below' := by
  have hnodup' : (below'.map key).Nodup := (hperm.map key).nodup_iff.mp hnodup
  have hplus : Keyset.pagePlusOne key limit below = Keyset.pagePlusOne key limit below' := by
    rw [Keyset.pagePlusOne, Keyset.pagePlusOne,
      Keyset.orderDesc_congr hnodup hnodup' fun row => hperm.mem_iff]
  unfold pageOf
  rw [Keyset.page, Keyset.page, hplus]

/-- A page depends on which rows are eligible and not on how they are listed. -/
theorem paginate_perm {eligible eligible' : List Memory} (hperm : eligible.Perm eligible')
    (hnodup : (eligible.map key).Nodup) (limit : ℕ) (cursor : Option Text) :
    paginate key token eligible limit cursor = paginate key token eligible' limit cursor := by
  cases cursor with
  | none => exact congrArg Except.ok (pageOf_perm hperm hnodup limit)
  | some cursor =>
    have hanchors : (anchors token eligible cursor).Perm (anchors token eligible' cursor) :=
      hperm.filter _
    simp only [paginate]
    match hleft : anchors token eligible cursor, hright : anchors token eligible' cursor with
    | [], [] => rfl
    | [a], [a'] =>
      rw [hleft, hright, List.singleton_perm_singleton] at hanchors
      subst hanchors
      have hfilter := hperm.filter fun row => decide (key row < key a)
      apply congrArg Except.ok (pageOf_perm hfilter ?_ limit)
      exact (List.filter_sublist.map key).nodup hnodup
    | _ :: _ :: _, _ :: _ :: _ => rfl
    | [], _ :: _ | _ :: _, [] | [_], _ :: _ :: _ | _ :: _ :: _, [_] =>
      have := hanchors.length_eq
      simp [hleft, hright] at this

end Pages

theorem perm_of_mem {left right : List Memory} (hl : (left.map Memory.memoryId).Nodup)
    (hr : (right.map Memory.memoryId).Nodup) (h : ∀ m, m ∈ left ↔ m ∈ right) :
    left.Perm right :=
  (List.perm_ext_iff_of_nodup (List.Nodup.of_map _ hl) (List.Nodup.of_map _ hr)).mpr h

/-- A key that tells the id of its row is different for different rows. -/
theorem nodup_map_key {Key : Type} {key : Memory → Key} (id : Key → Text)
    (hid : ∀ m, id (key m) = m.memoryId) {rows : List Memory}
    (h : (rows.map Memory.memoryId).Nodup) : (rows.map key).Nodup := by
  apply List.Nodup.of_map id
  rw [List.map_map]
  exact (List.map_congr_left fun m _ => hid m) ▸ h

theorem nodup_listRecentKey {rows : List Memory} (h : (rows.map Memory.memoryId).Nodup) :
    (rows.map (listRecentKey server)).Nodup :=
  nodup_map_key (fun key => (ofLex key).2.text) (fun _ => rfl) h

theorem nodup_searchKey {query : Text} {rows : List Memory}
    (h : (rows.map Memory.memoryId).Nodup) : (rows.map (searchKey server query)).Nodup :=
  nodup_map_key (fun key => (ofLex (ofLex key).2).2.text) (fun _ => rfl) h

/-! ## Errors of a search -/

/-- What a filter's text raises when it is read as a timestamp. -/
def timeError (server : Server) (s : Session) (filters : Option Jsonb) (key : Text) :
    Option SqlError :=
  if filtersHave filters key then
    (filters.bind fun json => json.getText key).bind fun text =>
      match server.toTimestamp s.now text with
      | .error e => some e
      | .ok _ => none
  else none

theorem timeMatch_error {filters : Option Jsonb} {key : Text}
    {compare : Option Timestamp → Truth} {e : SqlError} :
    timeMatch server s filters key compare = .error e ↔ timeError server s filters key = some e := by
  rw [timeMatch, timeError]
  split
  · cases filters.bind fun json => json.getText key with
    | none => simp
    | some text => cases h : server.toTimestamp s.now text <;> simp [Except.map, h]
  · simp

theorem andThen_error {a : Truth} {b : Except SqlError Truth} {e : SqlError} :
    a.andThen b = .error e ↔ a ≠ some false ∧ b = .error e := by
  rw [Truth.andThen]
  split
  · simp [*]
  · cases b <;> simp [*, Except.map]

/-- Whichever row fails, it fails with the error of the first bad filter. -/
theorem searchCondition_error {query : Text} {filters : Option Jsonb} {m : Memory} {e : SqlError}
    (h : searchCondition server t s query filters m = .error e) :
    (timeError server s filters "createdAfter").or (timeError server s filters "createdBefore") =
      some e := by
  rw [searchCondition] at h
  generalize (((hasActiveCapability t s .read m.workspaceId).and
    (hasActiveCapability t s .search m.workspaceId)).and
    (some (titleMatches server query m || contentMatches server query m))).and
    (tagsMatch filters m) = matched at h
  cases hafter : matched.andThen (timeMatch server s filters "createdAfter" fun time =>
    ge (some m.createdAt) time) with
  | error e' =>
    rw [hafter] at h
    obtain rfl : e' = e := by simpa [bind, Except.bind] using h
    rw [timeMatch_error.mp (andThen_error.mp hafter).2, Option.some_or]
  | ok after =>
    rw [hafter] at h
    obtain ⟨hne, hbefore⟩ := andThen_error.mp h
    have hnone : timeError server s filters "createdAfter" = none := by
      cases htime : timeError server s filters "createdAfter" with
      | none => rfl
      | some e' =>
        -- the first filter was not looked at, so the second was not either
        rw [timeMatch_error.mpr htime, Truth.andThen] at hafter
        split at hafter
        · next hfalse =>
          obtain rfl : matched = after := Except.ok.inj hafter
          exact absurd hfalse hne
        · cases hafter
    rw [hnone, Option.none_or]
    exact timeMatch_error.mp hbefore

theorem Agree.searchCondition (h : Agree t t' s) (query : Text) (filters : Option Jsonb) :
    searchCondition server t s query filters = searchCondition server t' s query filters := by
  funext m
  simp only [MemoryRpc.searchCondition, h.hasActiveCapability]

/-- The eligible rows of a search are the same, or it fails in the same way. -/
theorem Agree.searchEligible (h : Agree t t' s) (server : Server) (query : Text)
    (filters : Option Jsonb) :
    (∃ e, searchEligible server t s query filters = .error e ∧
      searchEligible server t' s query filters = .error e) ∨
    ∃ left right, searchEligible server t s query filters = .ok left ∧
      searchEligible server t' s query filters = .ok right ∧ left.Perm right ∧
      (left.map Memory.memoryId).Nodup := by
  -- a row fails in one read exactly when it does in the other
  have hfails : ∀ {t t' : Tables}, Agree t t' s → ∀ {e kept},
      MemoryRpc.searchEligible server t s query filters = .error e →
      MemoryRpc.searchEligible server t' s query filters = .ok kept → False := by
    intro t t' h e kept hleft hright
    obtain ⟨m, hm, he⟩ := filterExcept_error hleft
    obtain ⟨truth, htruth⟩ := (filterExcept_eq_ok.mp hright).1 m ((h.memories m).mp hm)
    rw [h.searchCondition, htruth] at he
    cases he
  cases hleft : MemoryRpc.searchEligible server t s query filters with
  | error e =>
    cases hright : MemoryRpc.searchEligible server t' s query filters with
    | error e' =>
      obtain ⟨m, -, he⟩ := filterExcept_error hleft
      obtain ⟨m', -, he'⟩ := filterExcept_error hright
      have heq := (searchCondition_error he).symm.trans (searchCondition_error he')
      exact Or.inl ⟨e, rfl, by rw [Option.some.inj heq]⟩
    | ok right => exact absurd hright fun hright => hfails h hleft hright
  | ok left =>
    cases hright : MemoryRpc.searchEligible server t' s query filters with
    | error e' => exact absurd hleft fun hleft => hfails h.symm hright hleft
    | ok right =>
      have hl := ((filterExcept_sublist hleft).map Memory.memoryId).nodup nodup_visibleMemories
      have hr := ((filterExcept_sublist hright).map Memory.memoryId).nodup nodup_visibleMemories
      refine Or.inr ⟨left, right, rfl, rfl, perm_of_mem hl hr fun m => ?_, hl⟩
      rw [mem_filterExcept hleft, mem_filterExcept hright, h.memories m, h.searchCondition]

/-- What a caller may not read, it does not learn of: the answers do not depend on it. -/
theorem noninterference (server : Server) (t t' : Tables) (s : Session) (h : Agree t t' s) :
    (∀ id, authorizedMemoryGetV1 server t s id = authorizedMemoryGetV1 server t' s id) ∧
    (∀ args, authorizedMemoryListRecentV1 server t s args =
      authorizedMemoryListRecentV1 server t' s args) ∧
    ∀ args, authorizedMemorySearchV1 server t s args =
      authorizedMemorySearchV1 server t' s args := by
  refine ⟨?_, ?_, ?_⟩
  · intro id
    have hrecord : getRecord t s id = getRecord t' s id := by
      apply Option.ext
      intro m
      rw [getRecord_eq_some, getRecord_eq_some, h.memories m]
    rw [authorizedMemoryGetV1, authorizedMemoryGetV1, hrecord]
  · intro args
    have hl : ((listRecentEligible t s args.filters).map Memory.memoryId).Nodup :=
      (List.filter_sublist.map _).nodup nodup_visibleMemories
    have hr : ((listRecentEligible t' s args.filters).map Memory.memoryId).Nodup :=
      (List.filter_sublist.map _).nodup nodup_visibleMemories
    have hperm := perm_of_mem hl hr fun m => by
      rw [mem_listRecentEligible, mem_listRecentEligible, h.memories m]
    rw [authorizedMemoryListRecentV1, authorizedMemoryListRecentV1, listRecentPage, listRecentPage,
      paginate_perm hperm (nodup_listRecentKey hl)]
  · intro args
    have hread : (searchEligible server t s (args.query.getD "") args.filters >>= fun eligible =>
        paginate (searchKey server (args.query.getD "")) (searchToken server (args.query.getD ""))
          eligible (args.limit.getD 0).toNat args.cursor) =
        searchEligible server t' s (args.query.getD "") args.filters >>= fun eligible =>
        paginate (searchKey server (args.query.getD "")) (searchToken server (args.query.getD ""))
          eligible (args.limit.getD 0).toNat args.cursor := by
      obtain ⟨e, hleft, hright⟩ | ⟨left, right, hleft, hright, hperm, hnodup⟩ :=
        h.searchEligible server (args.query.getD "") args.filters
      · rw [hleft, hright]
      · rw [hleft, hright]
        exact paginate_perm hperm (nodup_searchKey hnodup) _ _
    rw [authorizedMemorySearchV1, authorizedMemorySearchV1, searchPage, searchPage, hread]

/-! ## A lab -/

def labUid : Uuid := 0x11111111111141119111111111111111

def labSession : Session where
  uid := some labUid
  jwt := some (.object [("app_metadata", .object [("client_id", .string "smp-lab-inspector")])])
  now := 0

def labMemory (id workspace : Text) (createdAt : Timestamp) : Memory where
  memoryId := id
  workspaceId := workspace
  title := "Alpha network note"
  content := ""
  createdAt := createdAt
  provenanceSummary := "synthetic policy-lab fixture"
  tags := []

/-- One principal with one client in the workspace `alpha`, and some memories. -/
def lab (memories : List Memory) (h : (memories.map Memory.memoryId).Nodup) : Tables where
  principals := [⟨labUid, .verified⟩]
  clients := [⟨"smp-lab-inspector", .active, 1⟩]
  memberships := [⟨labUid, "smp-lab-inspector", "alpha", .active, 1⟩]
  capabilityGrants := [⟨labUid, "smp-lab-inspector", "alpha", .read, .active, 1⟩]
  memories := memories
  auditEvents := []
  memoryId_nodup := h

def labVisible : Tables := lab [labMemory "mem_01JTESTALPHA000000000001" "alpha" 0] (by decide)

/-- The same lab with another principal, and a memory in a workspace of its own. -/
def labHidden : Tables :=
  { lab [labMemory "mem_01JTESTBETA0000000000001" "beta" 0,
      labMemory "mem_01JTESTALPHA000000000001" "alpha" 0] (by decide) with
    principals := [⟨0x22222222222241119111111111111111, .verified⟩, ⟨labUid, .verified⟩] }

theorem labHidden_agrees : Agree labVisible labHidden labSession := by
  have hvisible : labVisible.visibleMemories labSession = labHidden.visibleMemories labSession := by
    decide +kernel
  refine ⟨?_, fun _ _ => Iff.rfl, fun _ _ _ => Iff.rfl, fun _ _ _ => Iff.rfl,
    fun m => by rw [hvisible]⟩
  intro p hp
  have hne : p.principalId ≠ 0x22222222222241119111111111111111 := by
    rw [← Option.some.inj hp]
    decide
  constructor
  · exact List.mem_cons_of_mem _
  · intro h
    apply (List.mem_cons.mp h).resolve_left
    intro heq
    exact hne (congrArg Principal.principalId heq)

/-- A server in UTC, on the texts and times of the lab. -/
def labServer : Server where
  collation := inferInstance
  lower := String.toLower
  md5 text := match text with
    | "mem_01JTESTALPHA000000000001|2000-01-01 00:00:00+00" => "9ea95593d541491d1a67d58b13993d39"
    | "mem_01JTESTALPHA000000000002|2000-01-01 00:00:00+00" => "8635d2eb7bafe63a6c103b522f7367a2"
    | "mem_01JTESTALPHA000000000003|2000-01-01 00:00:01+00" => "20e1f99f90b8494d7b84a0f4018bc276"
    | text => "?" ++ text
  timestampText time := if time = 0 then "2000-01-01 00:00:00+00" else "2000-01-01 00:00:01+00"
  timestampText_bar time := by split <;> decide
  timestampJson time :=
    if time = 0 then "2000-01-01T00:00:00+00:00" else "2000-01-01T00:00:01+00:00"
  toTimestamp _ _ := .ok 0

theorem noninterference_hidden :
    authorizedMemoryGetV1 labServer labVisible labSession (some "mem_01JTESTBETA0000000000001") =
      authorizedMemoryGetV1 labServer labHidden labSession (some "mem_01JTESTBETA0000000000001") ∧
    authorizedMemoryListRecentV1 labServer labVisible labSession { limit := some 1 } =
      authorizedMemoryListRecentV1 labServer labHidden labSession { limit := some 1 } ∧
    authorizedMemorySearchV1 labServer labVisible labSession { query := some "network" } =
      authorizedMemorySearchV1 labServer labHidden labSession { query := some "network" } :=
  ⟨(noninterference labServer labVisible labHidden labSession labHidden_agrees).1 _,
    (noninterference labServer labVisible labHidden labSession labHidden_agrees).2.1 _,
    (noninterference labServer labVisible labHidden labSession labHidden_agrees).2.2 _⟩

end MemoryRpc
