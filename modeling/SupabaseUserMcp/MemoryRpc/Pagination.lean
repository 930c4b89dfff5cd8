import SupabaseUserMcp.MemoryRpc.NonInterference

/- Following `nextCursor`. The database may change between two calls; a walk needs only
   that the row it continues from is still eligible. Under a digest without collisions
   its cursor then names that row and no other, and the walk is a chain of pages of one
   total order. -/
namespace MemoryRpc

open Sql PolicyLab

/-- The database and its caller at the time of a call. -/
structure Snapshot where
  tables : Tables
  session : Session

/-- Calls from a cursor on, each with the `nextCursor` of the one before, until a page
has none. -/
inductive Walk (call : Snapshot → Option Text → Except SqlError Page) :
    Option Text → List (Snapshot × Page) → Prop
  | last {db : Snapshot} {cursor : Option Text} {page : Page} :
      call db cursor = .ok page → page.nextCursor = none → Walk call cursor [(db, page)]
  | next {db : Snapshot} {cursor : Option Text} {page : Page} {token : Text}
      {rest : List (Snapshot × Page)} :
      call db cursor = .ok page → page.nextCursor = some token → Walk call (some token) rest →
      Walk call cursor ((db, page) :: rest)

/-- The last row of each page is still eligible at the next call. -/
def Anchored (eligible : Snapshot → List Memory) : List (Snapshot × Page) → Prop
  | (_, page) :: (db, next) :: rest =>
    (∀ row ∈ page.rows.getLast?, row ∈ eligible db) ∧ Anchored eligible ((db, next) :: rest)
  | _ => True

/-- All rows of a walk. -/
def returnedRows (walk : List (Snapshot × Page)) : List Memory := walk.flatMap fun p => p.2.rows

/-- What a walk returns when its anchors stay. -/
structure ExactWalk {Key : Type} [LinearOrder Key] (eligible : Snapshot → List Memory)
    (key : Memory → Key) (limit : Option ℤ) (walk : List (Snapshot × Page)) : Prop where
  decreasing : Keyset.Decreasing key (returnedRows walk)
  nodup : (returnedRows walk).Nodup
  -- an id comes once if no two memories ever had it
  nodup_ids : (∀ p ∈ walk, ∀ q ∈ walk, ∀ m ∈ eligible p.1, ∀ m' ∈ eligible q.1,
    m.memoryId = m'.memoryId → m = m') → ((returnedRows walk).map Memory.memoryId).Nodup
  sound : ∀ p ∈ walk, ∀ row ∈ p.2.rows, row ∈ eligible p.1
  complete : ∀ row, (∀ p ∈ walk, row ∈ eligible p.1) → (returnedRows walk).count row = 1
  bounded : ∀ p ∈ walk, ∃ bound ∈ limit, (p.2.rows.length : ℤ) ≤ bound
  -- a cursor says that something eligible comes after all that was returned so far
  nextCursor : ∀ before db page after, walk = before ++ (db, page) :: after →
    (page.nextCursor ≠ none ↔ ∃ row ∈ eligible db,
      ∀ r ∈ returnedRows before ++ page.rows, key row < key r)

/-- The pages of a function, its rows in the order of a key, under fixed arguments. -/
structure ExactPagination {Key : Type} [LinearOrder Key]
    (rpc : Snapshot → Option Text → Except SqlError Jsonb) (toJson : Page → Jsonb)
    (call : Snapshot → Option Text → Except SqlError Page) (eligible : Snapshot → List Memory)
    (key : Memory → Key) (limit : Option ℤ) : Prop where
  writes : ∀ db cursor, rpc db cursor = (call db cursor).map toJson
  walks : ∀ walk, Walk call none walk → Anchored eligible walk → ExactWalk eligible key limit walk
  -- a cursor that was given out is accepted wherever its row is eligible
  resumes : ∀ db cursor page token, call db cursor = .ok page → page.nextCursor = some token →
    ∀ later, (∀ row ∈ page.rows.getLast?, row ∈ eligible later) →
      ∃ next, call later (some token) = .ok next
  -- any cursor: the request fails whatever the cursor is, or the cursor does
  cursors : ∀ db cursor, (∃ e, ∀ c, call db c = .error e) ∨
    call db cursor = .error invalidCursor ∨
    ∃ page, call db cursor = .ok page ∧ ∀ row ∈ page.rows, row ∈ eligible db

/-! ## Tokens -/

/-- What follows the last bar is told from what stands before it. -/
theorem append_bar_inj {a b x y : List Char} (hx : '|' ∉ x) (hy : '|' ∉ y)
    (h : a ++ '|' :: x = b ++ '|' :: y) : a = b := by
  obtain ⟨c, rfl, hc⟩ | ⟨c, rfl, hc⟩ := List.append_eq_append_iff.mp h
  · cases c with
    | nil => simp
    | cons d c =>
      obtain ⟨-, rfl⟩ := List.cons.inj hc
      exact absurd (List.mem_append_right _ List.mem_cons_self) hx
  · cases c with
    | nil => simp
    | cons d c =>
      obtain ⟨-, rfl⟩ := List.cons.inj hc
      exact absurd (List.mem_append_right _ List.mem_cons_self) hy

theorem digested_inj {server : Server} {m m' : Memory}
    (h : m.memoryId ++ "|" ++ server.timestampText m.createdAt =
      m'.memoryId ++ "|" ++ server.timestampText m'.createdAt) : m.memoryId = m'.memoryId := by
  apply String.toList_inj.mp
  apply append_bar_inj (server.timestampText_bar m.createdAt) (server.timestampText_bar m'.createdAt)
  have := congrArg String.toList h
  simpa [String.toList_append] using this

variable {server : Server}

theorem listRecentToken_inj (hmd5 : Function.Injective server.md5) {m m' : Memory}
    (h : listRecentToken server m = listRecentToken server m') : m.memoryId = m'.memoryId :=
  digested_inj (hmd5 ((String.append_right_inj "cur_").mp h))

theorem searchToken_inj (hmd5 : Function.Injective server.md5) {query : Text} {m m' : Memory}
    (h : searchToken server query m = searchToken server query m') : m.memoryId = m'.memoryId := by
  have hdigested := hmd5 ((String.append_right_inj "cur_").mp h)
  exact digested_inj ((String.append_left_inj _).mp ((String.append_left_inj _).mp hdigested))

/-! ## One call -/

section Calls

variable {Key : Type} [LinearOrder Key] {key : Memory → Key} {token : Memory → Text}
  {rows : List Memory} {limit : ℕ} {page : Page}

/-- Where a page begins: at the top, or below the row that its cursor names. -/
def Starts (key : Memory → Key) (token : Memory → Text) (rows : List Memory) :
    Option Text → Option Key → Prop
  | none, anchor => anchor = none
  | some cursor, anchor => ∃ a ∈ rows, token a = cursor ∧ anchor = some (key a)

theorem isPage_pageOf {below : List Memory} {anchor : Option Key} (hkeys : (rows.map key).Nodup)
    (hsub : List.Sublist below rows)
    (hbelow : ∀ row, row ∈ below ↔ row ∈ rows ∧ Keyset.Below key anchor row)
    (hpage : page = pageOf key token limit below) :
    Keyset.IsPage key rows anchor limit page.rows page.hasMore ∧
      page.nextToken = page.rows.getLast?.map token := by
  have h : Keyset.IsPage key rows anchor limit (Keyset.page key limit below) _ :=
    Keyset.isPage_page hkeys hsub hbelow
  have hrows : page.rows = Keyset.page key limit below := by
    rw [hpage]
    exact h.decreasing.orderDesc_eq
  refine ⟨?_, ?_⟩
  · rw [hrows, hpage]
    exact h
  · rw [hrows, hpage, ← h.decreasing.head?_orderAsc]
    rfl

theorem paginate_ok (hkeys : (rows.map key).Nodup) {cursor : Option Text}
    (h : paginate key token rows limit cursor = .ok page) :
    ∃ anchor, Starts key token rows cursor anchor ∧
      Keyset.IsPage key rows anchor limit page.rows page.hasMore ∧
      page.nextToken = page.rows.getLast?.map token := by
  cases cursor with
  | none =>
    refine ⟨none, rfl, isPage_pageOf hkeys (List.Sublist.refl rows) ?_ (Except.ok.inj h).symm⟩
    intro row
    simp [Keyset.Below]
  | some cursor =>
    simp only [paginate] at h
    split at h
    · cases h
    · next a ha =>
      have hmem : a ∈ anchors token rows cursor := by
        rw [ha]
        exact List.mem_singleton_self a
      obtain ⟨hrow, htoken⟩ := mem_filter.mp hmem
      refine ⟨some (key a), ⟨a, hrow, ?_, rfl⟩,
        isPage_pageOf hkeys List.filter_sublist ?_ (Except.ok.inj h).symm⟩
      · exact (Option.some.inj (holds_eq.mp htoken)).symm
      · intro row
        simp [Keyset.Below]
    · cases h

/-- Where tokens tell rows apart, a cursor names one row or none. -/
theorem paginate_cases (key : Memory → Key) (limit : ℕ) (hids : (rows.map Memory.memoryId).Nodup)
    (htoken : ∀ {m m'}, token m = token m' → m.memoryId = m'.memoryId) (cursor : Text) :
    (∃ a ∈ rows, token a = cursor ∧ ∃ page, paginate key token rows limit (some cursor) = .ok page) ∨
      (∀ a ∈ rows, token a ≠ cursor) ∧
        paginate key token rows limit (some cursor) = .error invalidCursor := by
  have hmem : ∀ a, a ∈ anchors token rows cursor ↔ a ∈ rows ∧ token a = cursor := by
    intro a
    rw [anchors, mem_filter, holds_eq, Option.some.injEq, eq_comm (a := cursor)]
  have hids' : ((anchors token rows cursor).map Memory.memoryId).Nodup :=
    (List.filter_sublist.map _).nodup hids
  simp only [paginate]
  cases hanchors : anchors token rows cursor with
  | nil =>
    refine Or.inr ⟨fun a ha hcursor => ?_, rfl⟩
    have := (hmem a).mpr ⟨ha, hcursor⟩
    rw [hanchors] at this
    cases this
  | cons a others =>
    have ha := (hmem a).mp (by rw [hanchors]; exact List.mem_cons_self)
    cases others with
    | nil => exact Or.inl ⟨a, ha.1, ha.2, _, rfl⟩
    | cons b rest =>
      -- two rows of one token are one row
      have hb := (hmem b).mp (by rw [hanchors]; exact List.mem_cons_of_mem _ List.mem_cons_self)
      rw [hanchors] at hids'
      have hne : a.memoryId ≠ b.memoryId := by
        intro heq
        simp [heq] at hids'
      exact absurd (htoken (ha.2.trans hb.2.symm)) hne

/-- A cursor that is there is the token of the page's last row. -/
theorem nextCursor_eq_some {cursor : Text} (hnext : page.nextToken = page.rows.getLast?.map token)
    (h : page.nextCursor = some cursor) :
    page.hasMore = true ∧ ∃ bottom, page.rows.getLast? = some bottom ∧ token bottom = cursor := by
  rw [Page.nextCursor] at h
  split at h
  · next hmore =>
    rw [hnext, Option.map_eq_some_iff] at h
    exact ⟨hmore, h⟩
  · cases h

theorem nextCursor_ne_none {anchor : Option Key}
    (hnext : page.nextToken = page.rows.getLast?.map token) (hlimit : 0 < limit)
    (h : Keyset.IsPage key rows anchor limit page.rows page.hasMore) :
    page.nextCursor ≠ none ↔ page.hasMore = true := by
  rw [Page.nextCursor]
  split
  · next hmore =>
    have hne : page.rows ≠ [] := by
      intro hnil
      have := (h.left hmore).1
      rw [hnil, List.length_nil] at this
      omega
    simp [hnext, hmore, hne]
  · next hmore => simp [hmore]

end Calls

/-! ## A walk -/

/-- What the two functions have in common: a request is refused whatever its cursor is,
or its page is read from its eligible rows. -/
structure Reads {Key : Type} [LinearOrder Key] (call : Snapshot → Option Text → Except SqlError Page)
    (eligible : Snapshot → List Memory) (key : Memory → Key) (token : Memory → Text)
    (limit : Option ℤ) : Prop where
  keys : ∀ db, ((eligible db).map key).Nodup
  ids : ∀ db, ((eligible db).map Memory.memoryId).Nodup
  tokens : ∀ {m m'}, token m = token m' → m.memoryId = m'.memoryId
  pages : ∀ db, (∃ e, (∀ cursor, call db cursor = .error e) ∧
      (eligible db = [] ∨ ∀ later cursor, call later cursor = .error e)) ∨
    ∃ bound, limit = some bound ∧ 0 < bound ∧
      ∀ cursor, call db cursor = paginate key token (eligible db) bound.toNat cursor

section Walks

variable {Key : Type} [LinearOrder Key] {call : Snapshot → Option Text → Except SqlError Page}
  {eligible : Snapshot → List Memory} {key : Memory → Key} {token : Memory → Text}
  {limit : Option ℤ} (h : Reads call eligible key token limit)
include h

theorem Reads.eq_of_token {db : Snapshot} {m m' : Memory} (hm : m ∈ eligible db)
    (hm' : m' ∈ eligible db) (heq : token m = token m') : m = m' :=
  List.inj_on_of_nodup_map (h.ids db) hm hm' (h.tokens heq)

theorem Reads.starts_unique {db : Snapshot} {cursor : Option Text} {anchor anchor' : Option Key}
    (hs : Starts key token (eligible db) cursor anchor)
    (hs' : Starts key token (eligible db) cursor anchor') : anchor = anchor' := by
  cases cursor with
  | none => exact Eq.trans hs (Eq.symm hs')
  | some cursor =>
    obtain ⟨a, ha, hat, rfl⟩ := hs
    obtain ⟨b, hb, hbt, rfl⟩ := hs'
    rw [h.eq_of_token ha hb (hat.trans hbt.symm)]

/-- A call that returns gives a page of the eligible rows below its anchor. -/
theorem Reads.call_ok {db : Snapshot} {cursor : Option Text} {page : Page}
    (hcall : call db cursor = .ok page) : ∃ bound anchor, limit = some bound ∧ 0 < bound.toNat ∧
      Starts key token (eligible db) cursor anchor ∧
      Keyset.IsPage key (eligible db) anchor bound.toNat page.rows page.hasMore ∧
      page.nextToken = page.rows.getLast?.map token := by
  obtain ⟨e, herror, -⟩ | ⟨bound, hlimit, hpos, hpaginate⟩ := h.pages db
  · rw [herror cursor] at hcall
    cases hcall
  · rw [hpaginate cursor] at hcall
    obtain ⟨anchor, hstarts, hpage, hnext⟩ := paginate_ok (h.keys db) hcall
    exact ⟨bound, anchor, hlimit, by omega, hstarts, hpage, hnext⟩

omit h in
theorem Anchored.tail {p : Snapshot × Page} {rest : List (Snapshot × Page)}
    (hanchored : Anchored eligible (p :: rest)) : Anchored eligible rest := by
  cases rest with
  | nil => trivial
  | cons q rest => exact hanchored.2

omit h [LinearOrder Key] in
theorem Anchored.starts {db : Snapshot} {page : Page} {rest : List (Snapshot × Page)}
    {bottom : Memory} (hanchored : Anchored eligible ((db, page) :: rest))
    (hbottom : page.rows.getLast? = some bottom) :
    ∀ q ∈ rest.head?, Starts key token (eligible q.1) (some (token bottom)) (some (key bottom)) := by
  cases rest with
  | nil => simp
  | cons q rest =>
    intro q' hq
    obtain rfl : q = q' := by simpa using hq
    exact ⟨bottom, hanchored.1 bottom hbottom, rfl, rfl⟩

theorem Reads.chain {cursor : Option Text} {walk : List (Snapshot × Page)} {bound : ℤ}
    (hlimit : limit = some bound) (hwalk : Walk call cursor walk)
    (hanchored : Anchored eligible walk) {anchor : Option Key}
    (hstart : ∀ p ∈ walk.head?, Starts key token (eligible p.1) cursor anchor) :
    Keyset.Chain key bound.toNat anchor (walk.map fun p => (eligible p.1, p.2.rows)) := by
  induction hwalk generalizing anchor with
  | last hcall hnone =>
    obtain ⟨bound', anchor', hbound, hpos, hstarts, hpage, hnext⟩ := h.call_ok hcall
    obtain rfl : bound = bound' := Option.some.inj (hlimit.symm.trans hbound)
    obtain rfl := h.starts_unique (hstart _ rfl) hstarts
    have hmore := (nextCursor_ne_none hnext hpos hpage).not.mp (not_not_intro hnone)
    rw [Bool.not_eq_true] at hmore
    rw [hmore] at hpage
    exact Keyset.Chain.last hpage
  | next hcall htoken _ ih =>
    obtain ⟨bound', anchor', hbound, hpos, hstarts, hpage, hnext⟩ := h.call_ok hcall
    obtain rfl : bound = bound' := Option.some.inj (hlimit.symm.trans hbound)
    obtain rfl := h.starts_unique (hstart _ rfl) hstarts
    obtain ⟨hmore, bottom, hbottom, rfl⟩ := nextCursor_eq_some hnext htoken
    rw [hmore] at hpage
    exact Keyset.Chain.next hpage hbottom (ih hanchored.tail (hanchored.starts hbottom))

/-- A cursor goes out when an eligible row comes after all that was returned so far. -/
theorem Reads.nextCursor_iff {cursor : Option Text} {walk : List (Snapshot × Page)}
    (hwalk : Walk call cursor walk) (hanchored : Anchored eligible walk) {anchor : Option Key}
    (hstart : ∀ p ∈ walk.head?, Starts key token (eligible p.1) cursor anchor) :
    ∀ before db page after, walk = before ++ (db, page) :: after →
      (page.nextCursor ≠ none ↔ ∃ row ∈ eligible db, Keyset.Below key anchor row ∧
        ∀ r ∈ returnedRows before ++ page.rows, key row < key r) := by
  have hfirst : ∀ {db cursor page anchor}, call db cursor = .ok page →
      Starts key token (eligible db) cursor anchor → (page.nextCursor ≠ none ↔
        ∃ row ∈ eligible db, Keyset.Below key anchor row ∧
          ∀ r ∈ returnedRows [] ++ page.rows, key row < key r) := by
    intro db cursor page anchor hcall hstart
    obtain ⟨bound, anchor', -, hpos, hstarts, hpage, hnext⟩ := h.call_ok hcall
    obtain rfl := h.starts_unique hstart hstarts
    exact (nextCursor_ne_none hnext hpos hpage).trans hpage.more_iff
  induction hwalk generalizing anchor with
  | last hcall _ =>
    intro before db page after heq
    cases before with
    | nil =>
      obtain ⟨hp, -⟩ := List.cons.inj heq
      obtain ⟨rfl, rfl⟩ := Prod.mk.inj hp
      exact hfirst hcall (hstart _ rfl)
    | cons _ before => simp at heq
  | next hcall htoken _ ih =>
    intro before db page after heq
    cases before with
    | nil =>
      obtain ⟨hp, -⟩ := List.cons.inj heq
      obtain ⟨rfl, rfl⟩ := Prod.mk.inj hp
      exact hfirst hcall (hstart _ rfl)
    | cons first before =>
      obtain ⟨rfl, hrest⟩ := List.cons.inj heq
      obtain ⟨_, anchor', -, -, hstarts, hpage, hnext⟩ := h.call_ok hcall
      obtain rfl := h.starts_unique (hstart _ rfl) hstarts
      obtain ⟨-, bottom, hbottom, rfl⟩ := nextCursor_eq_some hnext htoken
      have hmem := List.mem_of_getLast? hbottom
      rw [ih hanchored.tail (hanchored.starts hbottom) before db page after hrest]
      -- below the last row of the first page is below all of it
      refine exists_congr fun row => and_congr_right fun _ => ?_
      constructor
      · intro ⟨hbelow, hafter⟩
        have hlt : key row < key bottom := hbelow _ rfl
        refine ⟨fun a ha => lt_trans hlt ((hpage.sound bottom hmem).2 a ha), fun r hr => ?_⟩
        rw [returnedRows, List.flatMap_cons, List.append_assoc] at hr
        cases List.mem_append.mp hr with
        | inl hr => exact lt_of_lt_of_le hlt (hpage.decreasing.last_le hbottom r hr)
        | inr hr => exact hafter r hr
      · intro ⟨_, hafter⟩
        have hall : ∀ r ∈ returnedRows before ++ page.rows, key row < key r := by
          intro r hr
          apply hafter r
          rw [returnedRows, List.flatMap_cons, List.append_assoc]
          exact List.mem_append_right _ hr
        refine ⟨fun a ha => ?_, hall⟩
        obtain rfl : key bottom = a := by simpa using ha
        apply hafter bottom
        rw [returnedRows, List.flatMap_cons, List.append_assoc]
        exact List.mem_append_left _ hmem

omit h in
theorem Walk.call_of_mem {cursor : Option Text} {walk : List (Snapshot × Page)}
    (hwalk : Walk call cursor walk) : ∀ p ∈ walk, ∃ c, call p.1 c = .ok p.2 := by
  induction hwalk with
  | last hcall _ => simpa using ⟨_, hcall⟩
  | next hcall _ _ ih =>
    intro p hp
    cases List.mem_cons.mp hp with
    | inl heq => exact ⟨_, by rw [heq]; exact hcall⟩
    | inr hp => exact ih p hp

omit h in
theorem Walk.ne_nil {cursor : Option Text} {walk : List (Snapshot × Page)}
    (hwalk : Walk call cursor walk) : ∃ p, p ∈ walk := by
  cases hwalk with
  | last _ _ => exact ⟨_, List.mem_cons_self⟩
  | next _ _ _ => exact ⟨_, List.mem_cons_self⟩

theorem Reads.exactWalk {walk : List (Snapshot × Page)} (hwalk : Walk call none walk)
    (hanchored : Anchored eligible walk) : ExactWalk eligible key limit walk := by
  have hstart : ∀ p ∈ walk.head?, Starts key token (eligible p.1) none none := fun _ _ => rfl
  obtain ⟨first, hfirst⟩ := hwalk.ne_nil
  obtain ⟨_, hcall⟩ := hwalk.call_of_mem first hfirst
  obtain ⟨bound, _, hlimit, -⟩ := h.call_ok hcall
  have hchain := h.chain hlimit hwalk hanchored hstart
  have hreturned : Keyset.returned (walk.map fun p => (eligible p.1, p.2.rows)) =
      returnedRows walk := by
    rw [Keyset.returned, returnedRows, List.flatMap_map]
  have hdecreasing := hchain.decreasing
  rw [hreturned] at hdecreasing
  have hnodup : (returnedRows walk).Nodup := List.Nodup.of_map key hdecreasing.nodup
  have hsound : ∀ p ∈ walk, ∀ row ∈ p.2.rows, row ∈ eligible p.1 := by
    intro p hp row hrow
    obtain ⟨_, hcall⟩ := hwalk.call_of_mem p hp
    obtain ⟨_, _, -, -, -, hpage, -⟩ := h.call_ok hcall
    exact (hpage.sound row hrow).1
  refine ⟨hdecreasing, hnodup, ?_, hsound, ?_, ?_, ?_⟩
  · intro hids
    apply List.Nodup.map_on _ hnodup
    intro m hm m' hm' heq
    obtain ⟨p, hp, hmp⟩ := List.mem_flatMap.mp hm
    obtain ⟨q, hq, hmq⟩ := List.mem_flatMap.mp hm'
    exact hids p hp q hq m (hsound p hp m hmp) m' (hsound q hq m' hmq) heq
  · intro row hrow
    have hmem : row ∈ Keyset.returned (walk.map fun p => (eligible p.1, p.2.rows)) := by
      apply hchain.complete
      · intro p hp
        obtain ⟨q, hq, rfl⟩ := List.mem_map.mp hp
        exact hrow q hq
      · intro a ha
        cases ha
    rw [hreturned] at hmem
    exact List.count_eq_one_of_mem hnodup hmem
  · intro p hp
    obtain ⟨_, hcall⟩ := hwalk.call_of_mem p hp
    obtain ⟨bound, _, hlimit, hpos, -, hpage, -⟩ := h.call_ok hcall
    have := hpage.bounded
    exact ⟨bound, hlimit, by omega⟩
  · intro before db page after heq
    rw [h.nextCursor_iff hwalk hanchored hstart before db page after heq]
    simp [Keyset.Below]

theorem Reads.resumes {db later : Snapshot} {cursor : Option Text} {page : Page} {text : Text}
    (hcall : call db cursor = .ok page) (hnext : page.nextCursor = some text)
    (hlater : ∀ row ∈ page.rows.getLast?, row ∈ eligible later) :
    ∃ next, call later (some text) = .ok next := by
  obtain ⟨_, _, -, -, -, -, hlast⟩ := h.call_ok hcall
  obtain ⟨-, bottom, hbottom, rfl⟩ := nextCursor_eq_some hlast hnext
  have hbottom := hlater bottom hbottom
  obtain ⟨e, -, hempty | herror⟩ | ⟨bound, -, -, hpaginate⟩ := h.pages later
  · rw [hempty] at hbottom
    cases hbottom
  · rw [herror db cursor] at hcall
    cases hcall
  · rw [hpaginate]
    obtain ⟨-, -, -, hok⟩ | ⟨hnone, -⟩ := paginate_cases key bound.toNat (h.ids later)
      h.tokens (token bottom)
    · exact hok
    · exact absurd rfl (hnone bottom hbottom)

theorem Reads.cursors (db : Snapshot) (cursor : Option Text) :
    (∃ e, ∀ c, call db c = .error e) ∨ call db cursor = .error invalidCursor ∨
      ∃ page, call db cursor = .ok page ∧ ∀ row ∈ page.rows, row ∈ eligible db := by
  obtain ⟨e, herror, -⟩ | ⟨bound, -, -, hpaginate⟩ := h.pages db
  · exact Or.inl ⟨e, herror⟩
  · apply Or.inr
    have hok : ∀ page, call db cursor = .ok page → ∀ row ∈ page.rows, row ∈ eligible db := by
      intro page hcall row hrow
      obtain ⟨_, _, -, -, -, hpage, -⟩ := h.call_ok hcall
      exact (hpage.sound row hrow).1
    cases cursor with
    | none => exact Or.inr ⟨_, hpaginate none, hok _ (hpaginate none)⟩
    | some text =>
      obtain ⟨-, -, -, page, hpage⟩ | ⟨-, herror⟩ := paginate_cases key bound.toNat
        (h.ids db) h.tokens text
      · have hcall := (hpaginate (some text)).trans hpage
        exact Or.inr ⟨page, hcall, hok page hcall⟩
      · exact Or.inl ((hpaginate (some text)).trans herror)

end Walks

/-! ## The two functions -/

theorem limit_of_not_refused {limit : Option ℤ} {bound : ℤ} (h : limitRefused limit bound = false) :
    ∃ l, limit = some l ∧ 0 < l := by
  cases limit with
  | none => simp [limitRefused] at h
  | some l =>
    simp only [limitRefused, Bool.or_eq_false_iff, decide_eq_false_iff_not] at h
    exact ⟨l, rfl, by omega⟩

def listRecentRefused (filters : Option Jsonb) (limit : Option ℤ) : Bool :=
  limitRefused limit 25 || filtersRefused filters ["tags"]

def searchRefused (query mode : Option Text) (filters : Option Jsonb) (limit : Option ℤ) : Bool :=
  queryRefused query || modeRefused mode || limitRefused limit 20 ||
    filtersRefused filters ["tags", "createdAfter", "createdBefore"]

theorem listRecentPage_eq (t : Tables) (s : Session) (args : ListRecentArgs) :
    listRecentPage server t s args =
      if listRecentRefused args.filters args.limit then .error invalidRequest
      else paginate (listRecentKey server) (listRecentToken server)
        (listRecentEligible t s args.filters) (args.limit.getD 0).toNat args.cursor := by
  rw [listRecentPage, listRecentRefused]
  cases limitRefused args.limit 25 <;> cases filtersRefused args.filters ["tags"] <;> rfl

theorem searchPage_eq (t : Tables) (s : Session) (args : SearchArgs) :
    searchPage server t s args =
      if searchRefused args.query args.mode args.filters args.limit then .error invalidRequest
      else searchEligible server t s (args.query.getD "") args.filters >>= fun eligible =>
        paginate (searchKey server (args.query.getD "")) (searchToken server (args.query.getD ""))
          eligible (args.limit.getD 0).toNat args.cursor := by
  rw [searchPage, searchRefused]
  cases queryRefused args.query <;> cases modeRefused args.mode <;>
    cases limitRefused args.limit 20 <;>
    cases filtersRefused args.filters ["tags", "createdAfter", "createdBefore"] <;> rfl

theorem reads_listRecent (hmd5 : Function.Injective server.md5) (filters : Option Jsonb)
    (limit : Option ℤ) : Reads
      (fun db cursor => listRecentPage server db.tables db.session ⟨filters, limit, cursor⟩)
      (fun db => listRecentEligible db.tables db.session filters) (listRecentKey server)
      (listRecentToken server) limit := by
  have hids : ∀ db : Snapshot,
      ((listRecentEligible db.tables db.session filters).map Memory.memoryId).Nodup :=
    fun db => (List.filter_sublist.map _).nodup nodup_visibleMemories
  refine ⟨fun db => nodup_listRecentKey (hids db), hids, listRecentToken_inj hmd5, ?_⟩
  intro db
  simp only [listRecentPage_eq]
  cases hrefused : listRecentRefused filters limit with
  | true => exact Or.inl ⟨invalidRequest, fun _ => rfl, Or.inr fun _ _ => rfl⟩
  | false =>
    obtain ⟨l, rfl, hl⟩ := limit_of_not_refused (Bool.or_eq_false_iff.mp hrefused).1
    exact Or.inr ⟨l, rfl, hl, fun _ => rfl⟩

/-- The rows of a search: none where a filter is no timestamp. -/
def searchRows (server : Server) (query : Text) (filters : Option Jsonb) (db : Snapshot) :
    List Memory :=
  (searchEligible server db.tables db.session query filters).toOption.getD []

theorem reads_search (hmd5 : Function.Injective server.md5) (query mode : Option Text)
    (filters : Option Jsonb) (limit : Option ℤ) : Reads
      (fun db cursor => searchPage server db.tables db.session
        ⟨query, mode, filters, limit, cursor⟩)
      (searchRows server (query.getD "") filters) (searchKey server (query.getD ""))
      (searchToken server (query.getD "")) limit := by
  have hids : ∀ db : Snapshot,
      ((searchRows server (query.getD "") filters db).map Memory.memoryId).Nodup := by
    intro db
    rw [searchRows]
    cases heligible : searchEligible server db.tables db.session (query.getD "") filters with
    | error e => exact List.nodup_nil
    | ok rows => exact ((filterExcept_sublist heligible).map _).nodup nodup_visibleMemories
  refine ⟨fun db => nodup_searchKey (hids db), hids, searchToken_inj hmd5, ?_⟩
  intro db
  simp only [searchPage_eq]
  cases hrefused : searchRefused query mode filters limit with
  | true => exact Or.inl ⟨invalidRequest, fun _ => rfl, Or.inr fun _ _ => rfl⟩
  | false =>
    rw [searchRows]
    cases searchEligible server db.tables db.session (query.getD "") filters with
    | error e => exact Or.inl ⟨e, fun _ => rfl, Or.inl rfl⟩
    | ok rows =>
      have hlimit := (Bool.or_eq_false_iff.mp (Bool.or_eq_false_iff.mp hrefused).1).2
      obtain ⟨l, rfl, hl⟩ := limit_of_not_refused hlimit
      exact Or.inr ⟨l, rfl, hl, fun _ => rfl⟩

theorem Reads.exactPagination {Key : Type} [LinearOrder Key]
    {call : Snapshot → Option Text → Except SqlError Page} {eligible : Snapshot → List Memory}
    {key : Memory → Key} {token : Memory → Text} {limit : Option ℤ}
    (h : Reads call eligible key token limit) {rpc : Snapshot → Option Text → Except SqlError Jsonb}
    (toJson : Page → Jsonb) (hrpc : ∀ db cursor, rpc db cursor = (call db cursor).map toJson) :
    ExactPagination rpc toJson call eligible key limit where
  writes := hrpc
  walks _ := h.exactWalk
  resumes _ _ _ _ hcall hnext _ := h.resumes hcall hnext
  cursors := h.cursors

/-- Following `nextCursor` through either function returns its rows in the order of its key,
each one once, whatever happens to other rows meanwhile. -/
theorem pagination_exact (server : Server) (hmd5 : Function.Injective server.md5) :
    (∀ filters limit, ExactPagination
      (fun db cursor => authorizedMemoryListRecentV1 server db.tables db.session
        ⟨filters, limit, cursor⟩)
      (fun page => page.toJson (memoryMembers server))
      (fun db cursor => listRecentPage server db.tables db.session ⟨filters, limit, cursor⟩)
      (fun db => listRecentEligible db.tables db.session filters)
      (listRecentKey server) limit) ∧
    ∀ query mode filters limit, ExactPagination
      (fun db cursor => authorizedMemorySearchV1 server db.tables db.session
        ⟨query, mode, filters, limit, cursor⟩)
      (fun page => page.toJson fun m =>
        memoryMembers server m ++ [("rank", rankJson server (query.getD "") m)])
      (fun db cursor => searchPage server db.tables db.session
        ⟨query, mode, filters, limit, cursor⟩)
      (searchRows server (query.getD "") filters)
      (searchKey server (query.getD "")) limit := by
  constructor
  · intro filters limit
    exact (reads_listRecent hmd5 filters limit).exactPagination _ fun _ _ => rfl
  · intro query mode filters limit
    exact (reads_search hmd5 query mode filters limit).exactPagination _ fun _ _ => rfl

/-- A page of rows that are already in order. -/
theorem pageOf_eq {Key : Type} [LinearOrder Key] {key : Memory → Key} {token : Memory → Text}
    {sorted below : List Memory} (h : Keyset.Decreasing key sorted) (hperm : sorted.Perm below)
    (limit : ℕ) : pageOf key token limit below =
      ⟨sorted.take limit, decide (limit < sorted.length),
        (sorted.take limit).getLast?.map token⟩ := by
  have hkeys : (below.map key).Nodup := (hperm.map key).nodup_iff.mp h.nodup
  have hsorted : Keyset.orderDesc key below = sorted := by
    rw [Keyset.orderDesc_congr hkeys h.nodup fun row => hperm.mem_iff.symm, h.orderDesc_eq]
  have hpage : Keyset.page key limit below = sorted.take limit := by
    rw [Keyset.page_eq_take hkeys, hsorted]
  have htake : Keyset.Decreasing key (sorted.take limit) := h.sublist (List.take_sublist _ _)
  have hmore : limit < (sorted.take (limit + 1)).length ↔ limit < sorted.length := by
    rw [List.length_take]
    omega
  unfold pageOf
  rw [hpage]
  dsimp only
  rw [htake.orderDesc_eq, htake.head?_orderAsc, Keyset.pagePlusOne, hsorted]
  simp only [hmore]

def labSecond : Memory := labMemory "mem_01JTESTALPHA000000000002" "alpha" 0

def labFirst : Memory := labMemory "mem_01JTESTALPHA000000000001" "alpha" 0

/-- Two memories of one time, and then a later one. -/
def labBefore : Snapshot := ⟨lab [labFirst, labSecond] (by decide), labSession⟩

def labAfter : Snapshot :=
  ⟨lab [labFirst, labMemory "mem_01JTESTALPHA000000000003" "alpha" 1, labSecond] (by decide),
    labSession⟩

theorem labServer_md5 : Function.Injective labServer.md5 := by
  have hquestion : ∀ (text : Text) (c : Char) (rest : List Char), c ≠ '?' →
      "?" ++ text ≠ String.ofList (c :: rest) := by
    intro text c rest hc h
    have hhead := congrArg (fun text => text.toList.head?) h
    exact hc (by simpa [String.toList_append, eq_comm] using hhead)
  intro a b h
  simp only [labServer] at h
  split at h <;> split at h
  all_goals first
    | rfl
    | exact absurd h (by decide)
    | exact absurd h (hquestion _ _ _ (by decide))
    | exact absurd h.symm (hquestion _ _ _ (by decide))
    | exact (String.append_right_inj "?").mp h

theorem pagination_exact_lab :
    ∃ walk, Walk (fun db cursor => listRecentPage labServer db.tables db.session
      ⟨none, some 1, cursor⟩) none walk ∧ returnedRows walk = [labSecond, labFirst] ∧
      ExactWalk (fun db => listRecentEligible db.tables db.session none) (listRecentKey labServer)
        (some 1) walk := by
  have hbefore : listRecentPage labServer labBefore.tables labSession ⟨none, some 1, none⟩ =
      .ok ⟨[labSecond], true, some (listRecentToken labServer labSecond)⟩ := by
    have hrows : listRecentEligible labBefore.tables labSession none = [labFirst, labSecond] := by
      decide +kernel
    have hsorted : Keyset.Decreasing (listRecentKey labServer) [labSecond, labFirst] := by
      decide +kernel
    rw [listRecentPage_eq, if_neg (by decide), hrows]
    exact congrArg Except.ok (pageOf_eq hsorted (List.Perm.swap _ _ _) 1)
  have hafter : listRecentPage labServer labAfter.tables labSession
      ⟨none, some 1, some (listRecentToken labServer labSecond)⟩ =
      .ok ⟨[labFirst], false, some (listRecentToken labServer labFirst)⟩ := by
    have hanchor : anchors (listRecentToken labServer)
        (listRecentEligible labAfter.tables labSession none)
        (listRecentToken labServer labSecond) = [labSecond] := by
      decide +kernel
    have hrows : (listRecentEligible labAfter.tables labSession none).filter
        (fun row => listRecentKey labServer row < listRecentKey labServer labSecond) =
          [labFirst] := by
      decide +kernel
    rw [listRecentPage_eq, if_neg (by decide), paginate, hanchor]
    dsimp only
    rw [hrows]
    exact congrArg Except.ok (pageOf_eq (List.pairwise_singleton _ _) (List.Perm.refl _) 1)
  have hwalk : Walk (fun db cursor => listRecentPage labServer db.tables db.session
      ⟨none, some 1, cursor⟩) none [(labBefore, _), (labAfter, _)] :=
    Walk.next hbefore rfl (Walk.last hafter rfl)
  have hanchored : Anchored (fun db => listRecentEligible db.tables db.session none)
      [(labBefore, ⟨[labSecond], true, some (listRecentToken labServer labSecond)⟩),
        (labAfter, ⟨[labFirst], false, some (listRecentToken labServer labFirst)⟩)] := by
    refine ⟨fun row hrow => ?_, trivial⟩
    obtain rfl : labSecond = row := by simpa using hrow
    show labSecond ∈ listRecentEligible labAfter.tables labSession none
    decide +kernel
  exact ⟨_, hwalk, rfl,
    ((pagination_exact labServer labServer_md5).1 none (some 1)).walks _ hwalk hanchored⟩

end MemoryRpc
