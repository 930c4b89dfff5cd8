import SupabaseUserMcp.MemoryRpc
import SupabaseUserMcp.PolicyLab.Authorization

/- Which memories the functions choose from. The policy of the memories already asks for
   what the functions ask for again, so a function's rows are the caller's readable
   memories that meet its other conditions. -/
namespace MemoryRpc

open Sql PolicyLab

variable {server : Server} {t : Tables} {s : Session}

theorem nodup_visibleMemories : ((t.visibleMemories s).map Memory.memoryId).Nodup :=
  (List.filter_sublist.map Memory.memoryId).nodup t.memoryId_nodup

/-- Two readable memories of one id are one memory. -/
theorem visibleMemories_inj {m m' : Memory} (hm : m ∈ t.visibleMemories s)
    (hm' : m' ∈ t.visibleMemories s) (h : m.memoryId = m'.memoryId) : m = m' :=
  List.inj_on_of_nodup_map nodup_visibleMemories hm hm' h

theorem hasActiveCapability_of_visible {m : Memory} (h : m ∈ t.visibleMemories s) :
    (hasActiveCapability t s .read m.workspaceId).Holds := (mem_visibleMemories.mp h).2

theorem getRecord_eq_some {id : Option Text} {m : Memory} :
    getRecord t s id = some m ↔ m ∈ t.visibleMemories s ∧ id = some m.memoryId := by
  have hmem : ∀ m', m' ∈ filter (fun m => (eq (some m.memoryId) id).and
      (hasActiveCapability t s .read m.workspaceId)) (t.visibleMemories s) ↔
        m' ∈ t.visibleMemories s ∧ id = some m'.memoryId := by
    intro m'
    rw [mem_filter, Truth.holds_and, holds_eq]
    refine and_congr_right fun hvisible => ?_
    rw [and_iff_left (hasActiveCapability_of_visible hvisible)]
  constructor
  · intro h
    exact (hmem m).mp (List.mem_of_head? h)
  · intro h
    have hm := (hmem m).mpr h
    rw [getRecord]
    -- whichever row comes first, it has the id that `m` has
    cases hhead : (filter (fun m => (eq (some m.memoryId) id).and
      (hasActiveCapability t s .read m.workspaceId)) (t.visibleMemories s)).head? with
    | none =>
      rw [List.head?_eq_none_iff.mp hhead] at hm
      cases hm
    | some first =>
      have hfirst := (hmem first).mp (List.mem_of_head? hhead)
      rw [visibleMemories_inj hfirst.1 h.1 (Option.some.inj (hfirst.2.symm.trans h.2))]

theorem mem_listRecentEligible {filters : Option Jsonb} {m : Memory} :
    m ∈ listRecentEligible t s filters ↔
      m ∈ t.visibleMemories s ∧ (tagsMatch filters m).Holds := by
  rw [listRecentEligible, mem_filter, listRecentCondition, Truth.holds_and]
  refine and_congr_right fun hvisible => ?_
  rw [and_iff_right (hasActiveCapability_of_visible hvisible)]

theorem holds_andThen {a b : Truth} {c : Except SqlError Truth} (h : a.andThen c = .ok b) :
    b.Holds ↔ a.Holds ∧ ∃ truth, c = .ok truth ∧ truth.Holds := by
  rw [Truth.andThen] at h
  split at h
  · next ha =>
    obtain rfl : a = b := Except.ok.inj h
    simp [ha, Truth.Holds]
  · cases c with
    | error e => simp [Except.map] at h
    | ok truth =>
      obtain rfl : a.and truth = b := Except.ok.inj h
      simp

/-- What `authorized_memory_search_v1` asks besides `memory:read`. -/
structure SearchMatch (server : Server) (t : Tables) (s : Session) (query : Text)
    (filters : Option Jsonb) (m : Memory) : Prop where
  search : (activeContext t.unfiltered s .search m.workspaceId).Holds
  text : titleMatches server query m = true ∨ contentMatches server query m = true
  tags : (tagsMatch filters m).Holds
  after : ∃ truth, timeMatch server s filters "createdAfter"
    (fun time => ge (some m.createdAt) time) = .ok truth ∧ truth.Holds
  before : ∃ truth, timeMatch server s filters "createdBefore"
    (fun time => ge time (some m.createdAt)) = .ok truth ∧ truth.Holds

theorem holds_searchCondition {query : Text} {filters : Option Jsonb} {m : Memory} {truth : Truth}
    (hread : (hasActiveCapability t s .read m.workspaceId).Holds)
    (h : searchCondition server t s query filters m = .ok truth) :
    truth.Holds ↔ SearchMatch server t s query filters m := by
  rw [hasActiveCapability, activeContext_secured] at hread
  rw [searchCondition] at h
  obtain ⟨after, hafter, hbefore⟩ := bind_eq_ok.mp h
  rw [holds_andThen hbefore, holds_andThen hafter]
  simp only [Truth.holds_and, Truth.holds_some, Bool.or_eq_true, hread, true_and,
    hasActiveCapability, activeContext_secured]
  constructor
  · intro h
    obtain ⟨⟨⟨⟨hsearch, htext⟩, htags⟩, hcreatedAfter⟩, hcreatedBefore⟩ := h
    exact ⟨hsearch, htext, htags, hcreatedAfter, hcreatedBefore⟩
  · intro h
    obtain ⟨hsearch, htext, htags, hcreatedAfter, hcreatedBefore⟩ := h
    exact ⟨⟨⟨⟨hsearch, htext⟩, htags⟩, hcreatedAfter⟩, hcreatedBefore⟩

theorem mem_searchEligible {query : Text} {filters : Option Jsonb} {eligible : List Memory}
    (h : searchEligible server t s query filters = .ok eligible) {m : Memory} :
    m ∈ eligible ↔ m ∈ t.visibleMemories s ∧ SearchMatch server t s query filters m := by
  rw [mem_filterExcept h]
  refine and_congr_right fun hvisible => ?_
  obtain ⟨truth, htruth⟩ := (filterExcept_eq_ok.mp h).1 m hvisible
  rw [← holds_searchCondition (hasActiveCapability_of_visible hvisible) htruth]
  simp [htruth]

/-- The function, the policies and the functions that read through them agree on who may
do what. -/
theorem authorization_agrees (server : Server) (t : Tables) (s : Session) :
    (∀ capability workspace, hasActiveCapability t s capability workspace =
      activeContext t.unfiltered s capability workspace) ∧
    (∀ workspace, ∀ m ∈ t.memories, m.workspaceId = workspace →
      (m ∈ t.visibleMemories s ↔ hasActiveCapability t s .read workspace = some true)) ∧
    (∀ id m, getRecord t s id = some m ↔ m ∈ t.visibleMemories s ∧ id = some m.memoryId) ∧
    (∀ filters m, m ∈ listRecentEligible t s filters ↔
      m ∈ t.visibleMemories s ∧ (tagsMatch filters m).Holds) ∧
    (∀ query filters eligible, searchEligible server t s query filters = .ok eligible →
      ∀ m, m ∈ eligible ↔ m ∈ t.visibleMemories s ∧ SearchMatch server t s query filters m) ∧
    ∀ e ∈ t.auditEvents, e ∈ t.visibleAuditEvents s ↔
      s.uid = some e.principalId ∧ s.clientClaim = some e.clientId ∧
        activeContext t.unfiltered s .read e.workspaceId = some true := by
  refine ⟨activeContext_secured, ?_, ?_, ?_, ?_, ?_⟩
  · intro workspace m hm hworkspace
    rw [mem_visibleMemories, hworkspace, and_iff_right hm]
    rfl
  · intro id m
    exact getRecord_eq_some
  · intro filters m
    exact mem_listRecentEligible
  · intro query filters eligible h m
    exact mem_searchEligible h
  · intro e he
    rw [mem_visibleAuditEvents, and_iff_right he]
    rfl

end MemoryRpc
