import Mathlib.Data.List.Infix
import SupabaseUserMcp.MemoryRpc.NonInterference

/- What a search finds. The pattern is the query between two `%`, and its own `%`, `_`
   and `\` are read as signs of the pattern language too. A query without them is found
   where it stands; for a query with one there is a text that it matches and that does not
   contain it. -/
namespace MemoryRpc

open Sql PolicyLab

/-! ## Patterns -/

/-- A character that a pattern takes literally. -/
def IsLiteral (c : Char) : Prop := c ≠ '%' ∧ c ≠ '_' ∧ c ≠ '\\'

instance (c : Char) : Decidable (IsLiteral c) := inferInstanceAs (Decidable (_ ∧ _ ∧ _))

theorem like_percent {rest text : List Char} :
    like ('%' :: rest) text = true ↔ ∃ suffix, suffix <:+ text ∧ like rest suffix = true := by
  rw [like, List.any_eq_true]
  exact exists_congr fun suffix => and_congr_left fun _ => List.mem_tails suffix text

theorem like_literal_cons {c : Char} (h : IsLiteral c) {rest text : List Char} :
    like (c :: rest) text = true ↔ ∃ tail, text = c :: tail ∧ like rest tail = true := by
  obtain ⟨hpercent, hunderscore, hbackslash⟩ := h
  cases text with
  | nil => simp [like, hbackslash]
  | cons d text =>
    rw [like]
    · simp only [Bool.and_eq_true, decide_eq_true_eq, List.cons.injEq]
      constructor
      · intro ⟨heq, hlike⟩
        exact ⟨text, ⟨heq, rfl⟩, hlike⟩
      · intro ⟨tail, ⟨heq, htail⟩, hlike⟩
        exact ⟨heq, htail ▸ hlike⟩
    all_goals simp_all

theorem like_literal_append {literal : List Char} (h : ∀ c ∈ literal, IsLiteral c)
    {rest text : List Char} : like (literal ++ rest) text = true ↔
      ∃ tail, text = literal ++ tail ∧ like rest tail = true := by
  induction literal generalizing text with
  | nil => simp
  | cons c literal ih =>
    obtain ⟨hc, hliteral⟩ := List.forall_mem_cons.mp h
    rw [List.cons_append, like_literal_cons hc]
    constructor
    · intro ⟨tail, htext, hlike⟩
      obtain ⟨tail', rfl, hlike'⟩ := (ih hliteral).mp hlike
      exact ⟨tail', htext, hlike'⟩
    · intro ⟨tail, htext, hlike⟩
      exact ⟨literal ++ tail, htext, (ih hliteral).mpr ⟨tail, rfl, hlike⟩⟩

theorem like_anything (text : List Char) : like ['%'] text = true :=
  like_percent.mpr ⟨[], List.nil_suffix, rfl⟩

/-- Literal characters are found wherever they stand. -/
theorem like_contains {literal : List Char} (h : ∀ c ∈ literal, IsLiteral c) (text : List Char) :
    like ('%' :: (literal ++ ['%'])) text = true ↔ literal <:+: text := by
  rw [like_percent]
  constructor
  · intro ⟨suffix, ⟨before, hsuffix⟩, hlike⟩
    obtain ⟨after, rfl, -⟩ := (like_literal_append h).mp hlike
    exact ⟨before, after, (List.append_assoc _ _ _).trans hsuffix⟩
  · intro ⟨before, after, htext⟩
    refine ⟨literal ++ after, ⟨before, (List.append_assoc _ _ _).symm.trans htext⟩, ?_⟩
    exact (like_literal_append h).mpr ⟨after, rfl, like_anything after⟩

/-- A text that matches a pattern between two `%`; its last character, where it is an
escape, escapes the second of them. -/
def sample : List Char → List Char
  | [] => []
  | '%' :: rest => sample rest
  | '_' :: rest => 'a' :: sample rest
  | ['\\'] => ['%']
  | '\\' :: c :: rest => c :: sample rest
  | c :: rest => c :: sample rest

theorem isLiteral_of_cases {c : Char} {rest : List Char} (hpercent : c = '%' → False)
    (hunderscore : c = '_' → False) (hend : c = '\\' → rest = [] → False)
    (hescape : ∀ d tail, c = '\\' → rest = d :: tail → False) : IsLiteral c := by
  refine ⟨hpercent, hunderscore, fun hbackslash => ?_⟩
  cases rest with
  | nil => exact hend hbackslash rfl
  | cons d tail => exact hescape d tail hbackslash rfl

theorem like_sample (query : List Char) : like (query ++ ['%']) (sample query) = true := by
  fun_induction sample query with
  | case1 => exact like_anything []
  | case2 rest ih => exact like_percent.mpr ⟨_, List.suffix_refl _, ih⟩
  | case3 rest ih => exact ih
  | case4 => rfl
  | case5 c rest ih => exact Bool.and_eq_true_iff.mpr ⟨decide_eq_true rfl, ih⟩
  | case6 c rest hpercent hunderscore hend hescape ih =>
    exact (like_literal_cons (isLiteral_of_cases hpercent hunderscore hend hescape)).mpr
      ⟨_, rfl, ih⟩

theorem length_sample_le (query : List Char) : (sample query).length ≤ query.length := by
  fun_induction sample query with
  | case1 => exact le_rfl
  | case2 rest ih => exact Nat.le_succ_of_le ih
  | case3 rest ih => exact Nat.succ_le_succ ih
  | case4 => exact le_rfl
  | case5 c rest ih => exact Nat.succ_le_succ (Nat.le_succ_of_le ih)
  | case6 c rest hpercent hunderscore hend hescape ih => exact Nat.succ_le_succ ih

/-- The sample of a query is the query itself only when all of it is literal. -/
theorem isLiteral_of_sample_eq (query : List Char) (h : sample query = query) :
    ∀ c ∈ query, IsLiteral c := by
  fun_induction sample query with
  | case1 => exact fun c hc => absurd hc List.not_mem_nil
  | case2 rest ih =>
    have hlength := length_sample_le rest
    rw [h, List.length_cons] at hlength
    exact absurd hlength (Nat.not_succ_le_self _)
  | case3 rest ih => exact absurd (List.cons.inj h).1 (by decide)
  | case4 => exact absurd h (by decide)
  | case5 c rest ih =>
    have hlength := length_sample_le rest
    rw [(List.cons.inj h).2, List.length_cons] at hlength
    exact absurd hlength (Nat.not_succ_le_self _)
  | case6 c rest hpercent hunderscore hend hescape ih =>
    exact List.forall_mem_cons.mpr ⟨isLiteral_of_cases hpercent hunderscore hend hescape,
      ih (List.cons.inj h).2⟩

theorem mem_sample {query : List Char} {c : Char} (h : c ∈ sample query) :
    c ∈ query ∨ c = 'a' ∨ c = '%' := by
  fun_induction sample query with
  | case1 => cases h
  | case2 rest ih => exact (ih h).imp_left (List.mem_cons_of_mem _)
  | case3 rest ih =>
    rcases List.mem_cons.mp h with rfl | h
    · exact .inr (.inl rfl)
    · exact (ih h).imp_left (List.mem_cons_of_mem _)
  | case4 => exact .inr (.inr (List.mem_singleton.mp h))
  | case5 d rest ih =>
    rcases List.mem_cons.mp h with rfl | h
    · exact .inl (List.mem_cons_of_mem _ List.mem_cons_self)
    · exact (ih h).imp_left fun h => List.mem_cons_of_mem _ (List.mem_cons_of_mem _ h)
  | case6 d rest hpercent hunderscore hend hescape ih =>
    rcases List.mem_cons.mp h with rfl | h
    · exact .inl List.mem_cons_self
    · exact (ih h).imp_left (List.mem_cons_of_mem _)

/-- Where not all of a query is literal, the sample does not contain it. -/
theorem not_infix_sample {query : List Char} (h : ¬ ∀ c ∈ query, IsLiteral c) :
    ¬ query <:+: sample query := by
  intro hinfix
  have heq := hinfix.eq_of_length_le (length_sample_le query)
  exact h (isLiteral_of_sample_eq query heq.symm)

/-! ## Memories -/

/-- What `authorized_memory_search_v1` asks besides `memory:read` and the query. -/
structure Searchable (server : Server) (t : Tables) (s : Session) (filters : Option Jsonb)
    (m : Memory) : Prop where
  search : (activeContext t.unfiltered s .search m.workspaceId).Holds
  tags : (tagsMatch filters m).Holds
  after : ∃ truth, timeMatch server s filters "createdAfter"
    (fun time => ge (some m.createdAt) time) = .ok truth ∧ truth.Holds
  before : ∃ truth, timeMatch server s filters "createdBefore"
    (fun time => ge time (some m.createdAt)) = .ok truth ∧ truth.Holds

/-- The text has the trimmed query in it, both in lowercase. -/
def Finds (server : Server) (query text : Text) : Prop :=
  (server.lower (btrim query)).toList <:+: (server.lower text).toList

/-- Of the memories that may be searched and meet the filters, those are eligible in which
the query is found, and those of them rank highest that have it in their title. -/
def MatchesLiterally (server : Server) (query : Text) : Prop :=
  ∀ t s filters eligible, searchEligible server t s query filters = .ok eligible →
    ∀ m ∈ t.visibleMemories s, Searchable server t s filters m →
      (m ∈ eligible ↔ Finds server query m.title ∨ Finds server query m.content) ∧
      (rank server query m = 1 ↔ Finds server query m.title)

section Literal

variable {server : Server} {query : Text}

theorem rank_eq_one {m : Memory} : rank server query m = 1 ↔ titleMatches server query m = true := by
  rw [rank]
  by_cases h : titleMatches server query m = true
  · rw [if_pos h]
    exact iff_of_true rfl h
  · rw [if_neg h]
    exact iff_of_false (by decide +kernel) h

theorem toList_pattern : pattern server query =
    '%' :: ((server.lower (btrim query)).toList ++ ['%']) := by
  simp [pattern]

theorem mem_searchEligible_of_searchable {t : Tables} {s : Session} {filters : Option Jsonb}
    {eligible : List Memory} (h : searchEligible server t s query filters = .ok eligible)
    {m : Memory} (hvisible : m ∈ t.visibleMemories s) (hm : Searchable server t s filters m) :
    m ∈ eligible ↔ titleMatches server query m = true ∨ contentMatches server query m = true := by
  rw [mem_searchEligible h, and_iff_right hvisible]
  exact ⟨SearchMatch.text, fun htext => ⟨hm.search, htext, hm.tags, hm.after, hm.before⟩⟩

/-- A query of literal characters is data. -/
theorem matchesLiterally_of_isLiteral (h : ∀ c ∈ (server.lower (btrim query)).toList, IsLiteral c) :
    MatchesLiterally server query := by
  intro t s filters eligible heligible m hvisible hm
  have hmatch : ∀ text, like (pattern server query) (server.lower text).toList = true ↔
      Finds server query text := by
    intro text
    rw [toList_pattern]
    exact like_contains h _
  rw [mem_searchEligible_of_searchable heligible hvisible hm, rank_eq_one]
  exact ⟨or_congr (hmatch _) (hmatch _), hmatch _⟩

/-- A text of lowercase letters and other characters that have no lowercase is as it is
in lowercase. -/
def KeepsLowercase (server : Server) : Prop :=
  ∀ text : Text, (∀ c ∈ text.toList, c = 'a' ∨ c = '%' ∨
    ∃ other, c ∈ (server.lower other).toList) → server.lower text = text

/-- A memory of the lab with a title. -/
def titledMemory (title : Text) : Memory :=
  { labMemory "mem_01JTESTALPHA000000000001" "alpha" 0 with title := title }

/-- The lab with a grant to search and one memory. -/
def searchLab (title : Text) : Tables :=
  { lab [titledMemory title] (List.nodup_singleton _) with
    capabilityGrants := [⟨labUid, "smp-lab-inspector", "alpha", .read, .active, 1⟩,
      ⟨labUid, "smp-lab-inspector", "alpha", .search, .active, 1⟩] }

theorem visible_titledMemory (title : Text) :
    titledMemory title ∈ (searchLab title).visibleMemories labSession := by
  refine mem_visibleMemories.mpr ⟨List.mem_singleton_self _, ?_⟩
  have hread : (hasActiveCapability (searchLab "") labSession .read "alpha").Holds := by decide +kernel
  exact hread

theorem searchable_titledMemory (title : Text) :
    Searchable server (searchLab title) labSession none (titledMemory title) := by
  have hsearch : (activeContext (searchLab "").unfiltered labSession .search "alpha").Holds := by
    decide +kernel
  exact ⟨hsearch, rfl, ⟨_, rfl, rfl⟩, ⟨_, rfl, rfl⟩⟩

/-- Without filters there is no text to read as a time. -/
theorem exists_searchEligible (server : Server) (query : Text) (t : Tables) (s : Session) :
    ∃ eligible, searchEligible server t s query none = .ok eligible := by
  have handThen : ∀ a b : Truth, ∃ truth,
      a.andThen (.ok b) = (.ok truth : Except SqlError Truth) := by
    intro a b
    rw [Truth.andThen]
    split
    · exact ⟨a, rfl⟩
    · exact ⟨a.and b, rfl⟩
  refine ⟨_, filterExcept_eq_ok.mpr ⟨fun m _ => ?_, rfl⟩⟩
  obtain ⟨after, hafter⟩ := handThen (((((hasActiveCapability t s .read m.workspaceId).and
    (hasActiveCapability t s .search m.workspaceId)).and
    (some (titleMatches server query m || contentMatches server query m))).and
      (tagsMatch none m))) (some true)
  obtain ⟨before, hbefore⟩ := handThen after (some true)
  exact ⟨before, bind_eq_ok.mpr ⟨after, hafter, hbefore⟩⟩

/-- A query that is always data is made of literal characters. -/
theorem isLiteral_of_matchesLiterally (hlower : KeepsLowercase server)
    (h : MatchesLiterally server query) :
    ∀ c ∈ (server.lower (btrim query)).toList, IsLiteral c := by
  by_contra hsign
  have htitle : server.lower (String.ofList (sample (server.lower (btrim query)).toList)) =
      String.ofList (sample (server.lower (btrim query)).toList) := by
    refine hlower _ fun c hc => ?_
    rw [String.toList_ofList] at hc
    rcases mem_sample hc with hc | rfl | rfl
    · exact .inr (.inr ⟨_, hc⟩)
    · exact .inl rfl
    · exact .inr (.inl rfl)
  generalize htext : String.ofList (sample (server.lower (btrim query)).toList) = title at htitle
  have hlist : (server.lower title).toList = sample (server.lower (btrim query)).toList := by
    rw [htitle, ← htext, String.toList_ofList]
  obtain ⟨eligible, heligible⟩ := exists_searchEligible server query (searchLab title) labSession
  have hrank := (h _ _ _ _ heligible _ (visible_titledMemory title)
    (searchable_titledMemory title)).2
  have hmatches : titleMatches server query (titledMemory title) = true := by
    rw [titleMatches, toList_pattern]
    exact like_percent.mpr ⟨_, List.suffix_refl _, hlist ▸ like_sample _⟩
  have hfinds : Finds server query title := hrank.mp (rank_eq_one.mpr hmatches)
  rw [Finds, hlist] at hfinds
  exact not_infix_sample hsign hfinds

/-- A search takes its query as data when the trimmed query in lowercase has no sign of the
pattern language in it, and for no other query. -/
theorem matchesLiterally_iff (hlower : KeepsLowercase server) : MatchesLiterally server query ↔
    ∀ c ∈ (server.lower (btrim query)).toList, c ≠ '%' ∧ c ≠ '_' ∧ c ≠ '\\' :=
  ⟨isLiteral_of_matchesLiterally hlower, matchesLiterally_of_isLiteral⟩

theorem toLower_toLower (c : Char) : c.toLower.toLower = c.toLower := by
  have hkeep : ∀ d : Char, ¬ (d.val ≥ 'A'.val ∧ d.val ≤ 'Z'.val) → d.toLower = d :=
    fun d h => dif_neg h
  by_cases h : c.val ≥ 'A'.val ∧ c.val ≤ 'Z'.val
  · have hval : c.toLower.val = c.val + ('a'.val - 'A'.val) := by
      have hlower : c.toLower = ⟨c.val + ('a'.val - 'A'.val), _⟩ := dif_pos h
      rw [hlower]
    refine hkeep c.toLower fun hupper => ?_
    rw [hval] at hupper
    simp only [ge_iff_le, UInt32.le_iff_toNat_le, UInt32.toNat_add] at h hupper
    have hA : 'A'.val.toNat = 65 := rfl
    have hZ : 'Z'.val.toNat = 90 := rfl
    have hshift : ('a'.val - 'A'.val).toNat = 32 := rfl
    omega
  · rw [hkeep c h, hkeep c h]

theorem keepsLowercase_labServer : KeepsLowercase labServer := by
  intro text h
  have hlist : ∀ other, (labServer.lower other).toList = other.toList.map Char.toLower :=
    fun other => String.toList_map
  have hlowered : ∀ c ∈ text.toList, c.toLower = c := by
    intro c hc
    rcases h c hc with rfl | rfl | ⟨other, hother⟩
    · decide
    · decide
    · rw [hlist] at hother
      obtain ⟨d, -, rfl⟩ := List.mem_map.mp hother
      exact toLower_toLower d
  apply String.toList_injective
  rw [hlist]
  exact (List.map_congr_left hlowered).trans (List.map_id _)

end Literal

/-- The lab finds a memory without an underscore by one. -/
theorem not_matchesLiterally_underscore : ¬ MatchesLiterally labServer "_" := by
  intro h
  obtain ⟨eligible, heligible⟩ := exists_searchEligible labServer "_" (searchLab "a") labSession
  have hrank := (h _ _ _ _ heligible _ (visible_titledMemory "a") (searchable_titledMemory "a")).2
  have hmatches : titleMatches labServer "_" (titledMemory "a") = true := by decide +kernel
  have hfinds : ¬ Finds labServer "_" "a" := by
    rw [Finds]
    decide +kernel
  exact hfinds (hrank.mp (rank_eq_one.mpr hmatches))

theorem matchesLiterally_iff_lab : MatchesLiterally labServer "network" ↔
    ∀ c ∈ (labServer.lower (btrim "network")).toList, c ≠ '%' ∧ c ≠ '_' ∧ c ≠ '\\' :=
  matchesLiterally_iff keepsLowercase_labServer

end MemoryRpc
