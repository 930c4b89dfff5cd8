import Mathlib.Data.List.Chain
import Mathlib.Data.List.Pairwise
import Mathlib.Data.Set.Card
import SupabaseUserMcp.FixedClient
import SupabaseUserMcp.Js.NumberLiteral
import SupabaseUserMcp.MemoryRpc.Pagination
import SupabaseUserMcp.MemoryRpc.UtcTime

/- The order of a page, twice: the database orders by time and then by id in the default
   collation, and `memory_list_recent` compares the texts of both by their code units.
   Times agree. Ids agree where the collation orders ids of one time as code units do. -/
namespace MemoryRpc

open Sql PolicyLab
open Js (Value)
open ReadTools (stringOf)
open FixedClient (isOrdered isOrderedPair)

/-! ## What JSON.parse makes of a response -/

mutual

/-- A `jsonb` as JSON.parse reads its text. -/
def valueOf : Jsonb → Value
  | .null => .null
  | .bool b => .bool b
  | .number literal =>
    ((Js.readNumber (Js.text literal)).map fun p => Value.number (Js.nearestDouble p.1)).getD .null
  | .string s => .string (Js.text s)
  | .array elements => .array (valuesOf elements)
  | .object members => .object (propertiesOf members)

def valuesOf : List Jsonb → List Value
  | [] => []
  | element :: rest => valueOf element :: valuesOf rest

def propertiesOf : List (Text × Jsonb) → List (Js.Text × Value)
  | [] => []
  | (key, value) :: rest => (Js.text key, valueOf value) :: propertiesOf rest

end

theorem valuesOf_eq (elements : List Jsonb) : valuesOf elements = elements.map valueOf := by
  induction elements with
  | nil => rfl
  | cons element rest ih => rw [valuesOf, ih, List.map_cons]

/-- The rows of a response. -/
def responseRows (response : Jsonb) : List Value :=
  match valueOf response with
  | .object envelope => (FixedClient.envelopeRows envelope).toOption.getD []
  | _ => []

def rowOf (server : Server) (m : Memory) : Value := valueOf (.buildObject (memoryMembers server m))

/-- Keys as `jsonb` stores them. -/
def storedBefore (left right : Text) : Bool :=
  decide (left.utf8ByteSize < right.utf8ByteSize ∨
    left.utf8ByteSize = right.utf8ByteSize ∧ left ≤ right)

theorem buildObject_of_pairwise {members : List (Text × Jsonb)}
    (h : (members.map Prod.fst).Pairwise fun left right => storedBefore left right = true) :
    Jsonb.buildObject members = .object members :=
  congrArg Jsonb.object (List.mergeSort_of_pairwise (List.pairwise_map.mp h))

theorem rowOf_eq (server : Server) (m : Memory) : rowOf server m =
    .object [(Js.text "id", .string (Js.text m.memoryId)), (Js.text "title", .string (Js.text m.title)),
      (Js.text "content", .string (Js.text m.content)),
      (Js.text "createdAt", .string (Js.text (server.timestampJson m.createdAt))),
      (Js.text "provenanceSummary", .string (Js.text m.provenanceSummary))] := by
  have hkeys : ["id", "title", "content", "createdAt", "provenanceSummary"].Pairwise
      fun left right => storedBefore left right = true := by decide
  have hmembers : Jsonb.buildObject (memoryMembers server m) = .object (memoryMembers server m) :=
    buildObject_of_pairwise hkeys
  rw [rowOf, hmembers]
  rfl

/-- The envelope of a page, its rows written with any members. -/
theorem valueOf_toJson (page : Page) (members : Memory → List (Text × Jsonb)) :
    valueOf (page.toJson members) = .object
      (Inspection.property "rows" (.array (page.rows.map fun m => valueOf (.buildObject (members m)))) ::
        if page.hasMore then
          [Inspection.property "nextCursor" (valueOf (page.nextToken.elim Jsonb.null Jsonb.string))]
        else []) := by
  have hrows : Jsonb.buildObject
      [("rows", .array (page.rows.map fun m => .buildObject (members m)))] =
      .object [("rows", .array (page.rows.map fun m => .buildObject (members m)))] :=
    buildObject_of_pairwise (List.pairwise_singleton _ _)
  have hvalues : valuesOf (page.rows.map fun m => Jsonb.buildObject (members m)) =
      page.rows.map fun m => valueOf (.buildObject (members m)) := by
    rw [valuesOf_eq, List.map_map]
    rfl
  cases hmore : page.hasMore with
  | false =>
    have hjson : page.toJson members =
        .object [("rows", .array (page.rows.map fun m => .buildObject (members m)))] := by
      rw [Page.toJson, hrows, hmore]
      exact hrows
    rw [hjson, ← hvalues]
    rfl
  | true =>
    have hkeys : ["rows", "nextCursor"].Pairwise fun left right => storedBefore left right = true := by
      decide
    have hnext : Jsonb.buildObject [("nextCursor", page.nextToken.elim Jsonb.null Jsonb.string)] =
        .object [("nextCursor", page.nextToken.elim Jsonb.null Jsonb.string)] :=
      buildObject_of_pairwise (List.pairwise_singleton _ _)
    have hjson : page.toJson members =
        .object [("rows", .array (page.rows.map fun m => .buildObject (members m))),
          ("nextCursor", page.nextToken.elim Jsonb.null Jsonb.string)] := by
      rw [Page.toJson, hrows, hmore]
      refine Eq.trans (congrArg (Jsonb.concat _) hnext) ?_
      exact buildObject_of_pairwise hkeys
    rw [hjson, ← hvalues]
    rfl

theorem responseRows_toJson (server : Server) (page : Page) :
    responseRows (page.toJson (memoryMembers server)) = page.rows.map (rowOf server) := by
  rw [responseRows, valueOf_toJson]
  cases page.hasMore with
  | false => rfl
  | true => rfl

/-! ## Pairs of rows -/

theorem stringOf_rowOf (server : Server) (m : Memory) :
    stringOf "id" (rowOf server m) = some (Js.text m.memoryId) ∧
    stringOf "createdAt" (rowOf server m) = some (Js.text (server.timestampJson m.createdAt)) := by
  rw [rowOf_eq]
  exact ⟨rfl, rfl⟩

/-- The server's time zone is UTC. -/
def InUtc (server : Server) : Prop :=
  ∀ time, UtcTime.InYears time → Js.text (server.timestampJson time) = UtcTime.timestampJson time

/-- `previous.createdAt > current.createdAt`, or one time and `previous.id >= current.id`. -/
theorem isOrderedPair_iff {previous current : Value} : isOrderedPair previous current = true ↔
    ∃ earlier later left right, stringOf "createdAt" previous = some earlier ∧
      stringOf "createdAt" current = some later ∧ stringOf "id" previous = some left ∧
      stringOf "id" current = some right ∧ (later < earlier ∨ earlier = later ∧ right ≤ left) := by
  unfold isOrderedPair
  split
  · next earlier later left right h₁ h₂ h₃ h₄ => simp [h₁, h₂, h₃, h₄]
  · next hnone =>
    refine iff_of_false Bool.false_ne_true ?_
    intro ⟨earlier, later, left, right, h₁, h₂, h₃, h₄, _⟩
    exact hnone earlier later left right h₁ h₂ h₃ h₄

theorem isOrderedPair_trans {a b c : Value} (hab : isOrderedPair a b = true)
    (hbc : isOrderedPair b c = true) : isOrderedPair a c = true := by
  obtain ⟨ta, tb, ia, ib, hta, htb, hia, hib, hab⟩ := isOrderedPair_iff.mp hab
  obtain ⟨tb', tc, ib', ic, htb', htc, hib', hic, hbc⟩ := isOrderedPair_iff.mp hbc
  obtain rfl : tb = tb' := Option.some.inj (htb.symm.trans htb')
  obtain rfl : ib = ib' := Option.some.inj (hib.symm.trans hib')
  refine isOrderedPair_iff.mpr ⟨ta, tc, ia, ic, hta, htc, hia, hic, ?_⟩
  cases hab with
  | inl hab =>
    cases hbc with
    | inl hbc => exact Or.inl (List.lt_trans hbc hab)
    | inr hbc => exact Or.inl (hbc.1 ▸ hab)
  | inr hab =>
    cases hbc with
    | inl hbc => exact Or.inl (hab.1 ▸ hbc)
    | inr hbc => exact Or.inr ⟨hab.1.trans hbc.1, List.le_trans hbc.2 hab.2⟩

instance : Trans (fun a b : Value => isOrderedPair a b = true)
    (fun a b : Value => isOrderedPair a b = true) (fun a b : Value => isOrderedPair a b = true) where
  trans := isOrderedPair_trans

/-- What holds of neighbours holds of any two rows. -/
theorem isOrdered_iff {rows : List Value} :
    isOrdered rows = true ↔ rows.Pairwise fun a b => isOrderedPair a b = true := by
  rw [← List.isChain_iff_pairwise]
  induction rows with
  | nil => simp [isOrdered]
  | cons first rest ih =>
    cases rest with
    | nil => simp [isOrdered]
    | cons second rest =>
      rw [List.isChain_cons_cons, ← ih]
      simp [isOrdered]

/-! ## A page -/

variable {server : Server}

/-- In UTC the texts of two times are as far apart as the times. -/
theorem InUtc.createdAt (hutc : InUtc server) {time time' : Timestamp} (h : UtcTime.InYears time)
    (h' : UtcTime.InYears time') :
    (Js.text (server.timestampJson time) < Js.text (server.timestampJson time') ↔ time < time') ∧
    (Js.text (server.timestampJson time) = Js.text (server.timestampJson time') ↔ time = time') := by
  rw [hutc time h, hutc time' h']
  obtain hlt | rfl | hgt := lt_trichotomy time time'
  · have htext := UtcTime.timestampJson_lt h h' hlt
    exact ⟨iff_of_true htext hlt,
      iff_of_false (fun heq => List.lt_irrefl _ (heq ▸ htext)) hlt.ne⟩
  · exact ⟨iff_of_false (List.lt_irrefl _) (lt_irrefl _), iff_of_true rfl rfl⟩
  · have htext := UtcTime.timestampJson_lt h' h hgt
    exact ⟨iff_of_false (fun hlt => List.lt_irrefl _ (List.lt_trans hlt htext)) (lt_asymm hgt),
      iff_of_false (fun heq => List.lt_irrefl _ (heq ▸ htext)) hgt.ne'⟩

theorem isOrderedPair_rowOf (hutc : InUtc server) {m m' : Memory}
    (h : UtcTime.InYears m.createdAt) (h' : UtcTime.InYears m'.createdAt) :
    isOrderedPair (rowOf server m) (rowOf server m') = true ↔
      m'.createdAt < m.createdAt ∨
        m.createdAt = m'.createdAt ∧ Js.text m'.memoryId ≤ Js.text m.memoryId := by
  obtain ⟨hid, htime⟩ := stringOf_rowOf server m
  obtain ⟨hid', htime'⟩ := stringOf_rowOf server m'
  have hlt := (hutc.createdAt h' h).1
  have heq := (hutc.createdAt h h').2
  simp [isOrderedPair_iff, hid, hid', htime, htime', hlt, heq]

/-- Where two rows of one time are, the collation puts them as their code units do. -/
def TiesAgree (server : Server) (window : Memory → Prop) : Prop :=
  ∀ m m', window m → window m' → m.createdAt = m'.createdAt →
    (⟨m'.memoryId⟩ : Collated server) < ⟨m.memoryId⟩ → Js.text m'.memoryId ≤ Js.text m.memoryId

theorem listRecentKey_lt {m m' : Memory} : listRecentKey server m' < listRecentKey server m ↔
    m'.createdAt < m.createdAt ∨ m'.createdAt = m.createdAt ∧
      (⟨m'.memoryId⟩ : Collated server) < ⟨m.memoryId⟩ := by
  rw [listRecentKey, listRecentKey, Prod.Lex.toLex_lt_toLex]

theorem isOrdered_rows (hutc : InUtc server) {rows : List Memory}
    (h : Keyset.Decreasing (listRecentKey server) rows)
    (hyears : ∀ m ∈ rows, UtcTime.InYears m.createdAt) :
    isOrdered (rows.map (rowOf server)) = true ↔ TiesAgree server (· ∈ rows) := by
  rw [isOrdered_iff, List.pairwise_map]
  constructor
  · intro hordered m m' hm hm' htime hcollated
    -- the rows stand in one order only
    let Agree (a b : Memory) : Prop := a.createdAt = b.createdAt →
      ((⟨b.memoryId⟩ : Collated server) < ⟨a.memoryId⟩ → Js.text b.memoryId ≤ Js.text a.memoryId) ∧
      ((⟨a.memoryId⟩ : Collated server) < ⟨b.memoryId⟩ → Js.text a.memoryId ≤ Js.text b.memoryId)
    have hsymm : Std.Symm Agree := ⟨fun a b hab htime => (hab htime.symm).symm⟩
    have hself : ∀ a ∈ rows, Agree a a :=
      fun a _ _ => ⟨fun hlt => absurd hlt (lt_irrefl _), fun hlt => absurd hlt (lt_irrefl _)⟩
    have hpairs : rows.Pairwise Agree := by
      refine (h.and hordered).imp_of_mem ?_
      intro a b ha hb ⟨hkey, hpair⟩ htime
      have hid := ((isOrderedPair_rowOf hutc (hyears a ha) (hyears b hb)).mp hpair).resolve_left
        htime.not_gt
      have hcollated := (listRecentKey_lt.mp hkey).resolve_left htime.not_gt
      exact ⟨fun _ => hid.2, fun hlt => absurd hlt (lt_asymm hcollated.2)⟩
    exact (List.Pairwise.forall_of_forall hself hpairs hm hm' htime).1 hcollated
  · intro hties
    refine h.imp_of_mem ?_
    intro a b ha hb hkey
    refine (isOrderedPair_rowOf hutc (hyears a ha) (hyears b hb)).mpr ?_
    refine (listRecentKey_lt.mp hkey).imp id ?_
    intro ⟨htime, hcollated⟩
    exact ⟨htime.symm, hties a b ha hb htime.symm hcollated⟩

/-! ## A call -/

/-- The rows that a cursor leaves: what comes below the row it names. -/
def Continues (server : Server) (eligible : List Memory) (cursor : Option Text) (m : Memory) :
    Prop :=
  m ∈ eligible ∧ ∀ token ∈ cursor, ∀ a ∈ eligible, listRecentToken server a = token →
    listRecentKey server m < listRecentKey server a

/-- Those of them that fewer than `limit` come before. -/
def InWindow (server : Server) (eligible : List Memory) (args : ListRecentArgs) (m : Memory) :
    Prop :=
  Continues server eligible args.cursor m ∧
    {r | Continues server eligible args.cursor r ∧
      listRecentKey server m < listRecentKey server r}.ncard < (args.limit.getD 0).toNat

/-- A cursor that is accepted names one row. -/
theorem eq_of_paginate_ok {Key : Type} [LinearOrder Key] {key : Memory → Key}
    {token : Memory → Text} {rows : List Memory} {limit : ℕ} {cursor : Text} {page : Page}
    (h : paginate key token rows limit (some cursor) = .ok page) {a b : Memory} (ha : a ∈ rows)
    (hb : b ∈ rows) (hat : token a = cursor) (hbt : token b = cursor) : a = b := by
  have hmem : ∀ m ∈ rows, token m = cursor → m ∈ anchors token rows cursor := by
    intro m hm htoken
    rw [anchors, mem_filter, holds_eq, Option.some.injEq]
    exact ⟨hm, htoken.symm⟩
  have ha := hmem a ha hat
  have hb := hmem b hb hbt
  simp only [paginate] at h
  split at h
  · cases h
  · next c hc =>
    rw [hc] at ha hb
    exact (List.mem_singleton.mp ha).trans (List.mem_singleton.mp hb).symm
  · cases h

theorem continues_iff {rows : List Memory} {cursor : Option Text} {limit : ℕ} {page : Page}
    (h : paginate (listRecentKey server) (listRecentToken server) rows limit cursor = .ok page)
    {anchor : Option (Timestamp ×ₗ Collated server)}
    (hstarts : Starts (listRecentKey server) (listRecentToken server) rows cursor anchor)
    {m : Memory} : Continues server rows cursor m ↔
      m ∈ rows ∧ Keyset.Below (listRecentKey server) anchor m := by
  refine and_congr_right fun _ => ?_
  cases cursor with
  | none =>
    obtain rfl : anchor = none := hstarts
    exact iff_of_true (fun _ h => nomatch h) (fun _ h => nomatch h)
  | some cursor =>
    obtain ⟨a, ha, htoken, rfl⟩ := hstarts
    constructor
    · intro hbelow key hkey
      obtain rfl : listRecentKey server a = key := Option.some.inj hkey
      exact hbelow cursor rfl a ha htoken
    · intro hbelow token htoken' b hb hbt
      obtain rfl : cursor = token := Option.some.inj htoken'
      rw [eq_of_paginate_ok h hb ha hbt htoken]
      exact hbelow _ rfl

/-- A page is the window, in the order of the database. -/
theorem listRecentPage_ok {t : Tables} {s : Session} {args : ListRecentArgs} {page : Page}
    (h : listRecentPage server t s args = .ok page) :
    Keyset.Decreasing (listRecentKey server) page.rows ∧
      ∀ m, m ∈ page.rows ↔ InWindow server (listRecentEligible t s args.filters) args m := by
  rw [listRecentPage_eq] at h
  split at h
  · cases h
  · have hids : ((listRecentEligible t s args.filters).map Memory.memoryId).Nodup :=
      (List.filter_sublist.map _).nodup nodup_visibleMemories
    obtain ⟨anchor, hstarts, hpage, -⟩ := paginate_ok (nodup_listRecentKey hids) h
    refine ⟨hpage.decreasing, fun m => ?_⟩
    simp only [InWindow, continues_iff h hstarts]
    exact hpage.mem_iff

/-- In UTC, and in the years 1 to 9999, `memory_list_recent` accepts a page of the database
exactly when code units order the ids of one time on it as the collation does. -/
theorem isOrdered_listRecent_iff (server : Server) (t : Tables) (s : Session)
    (args : ListRecentArgs) (json : Jsonb) (hutc : InUtc server)
    (hyears : ∀ m ∈ listRecentEligible t s args.filters, UtcTime.InYears m.createdAt)
    (h : authorizedMemoryListRecentV1 server t s args = .ok json) :
    isOrdered (responseRows json) = true ↔
      TiesAgree server (InWindow server (listRecentEligible t s args.filters) args) := by
  obtain ⟨page, hpage, rfl⟩ : ∃ page, listRecentPage server t s args = .ok page ∧
      page.toJson (memoryMembers server) = json := by
    rw [authorizedMemoryListRecentV1] at h
    cases hpage : listRecentPage server t s args with
    | error e =>
      rw [hpage] at h
      cases h
    | ok page =>
      rw [hpage] at h
      exact ⟨page, rfl, Except.ok.inj h⟩
  obtain ⟨hdecreasing, hrows⟩ := listRecentPage_ok hpage
  rw [responseRows_toJson, isOrdered_rows hutc hdecreasing]
  · simp only [TiesAgree, hrows]
  · intro m hm
    exact hyears m ((hrows m).mp hm).1.1

/-! ## A collation that looks at letters before it looks at their case -/

/-- The lab in UTC, its ids without regard to case and then by code points. -/
def labUtcServer : Server :=
  { labServer with
    collation := LinearOrder.lift' (fun text : Text => toLex (text.toLower, text)) (by
      intro a b h
      exact congrArg (fun key => (ofLex key).2) h)
    timestampJson := fun time => String.ofList (Js.scalars (UtcTime.timestampJson time)) }

theorem inUtc_labUtcServer : InUtc labUtcServer := by
  intro time _
  obtain ⟨cs, hcs⟩ := Js.IsUtf16.ascii (UtcTime.isAscii_timestampJson time)
  show Js.text (String.ofList (Js.scalars (UtcTime.timestampJson time))) = _
  rw [hcs, Js.scalars_utf16, Js.text, String.toList_ofList]

/-- Two memories of one time. The collation puts `B` after `a`. -/
def labLower : Memory := labMemory "mem_01JTESTALPHA00000000000a" "alpha" 0

def labUpper : Memory := labMemory "mem_01JTESTALPHA00000000000B" "alpha" 0

def labMixed : Tables := lab [labLower, labUpper] (by decide)

theorem listRecentEligible_labMixed :
    listRecentEligible labMixed labSession none = [labLower, labUpper] := by
  decide

theorem inYears_labMixed :
    ∀ m ∈ listRecentEligible labMixed labSession none, UtcTime.InYears m.createdAt := by
  rw [listRecentEligible_labMixed]
  have hyear : UtcTime.InYears 0 := by
    unfold UtcTime.InYears
    decide
  intro m hm
  have htime : m.createdAt = 0 := by
    cases List.mem_cons.mp hm with
    | inl heq => rw [heq]; rfl
    | inr hm => rw [List.mem_singleton.mp hm]; rfl
  rw [htime]
  exact hyear

def labMixedPage : Page :=
  ⟨[labUpper, labLower], false, some (listRecentToken labUtcServer labLower)⟩

theorem decreasing_labMixed :
    Keyset.Decreasing (listRecentKey labUtcServer) [labUpper, labLower] := by
  decide +kernel

theorem listRecent_labMixed : authorizedMemoryListRecentV1 labUtcServer labMixed labSession {} =
    .ok (labMixedPage.toJson (memoryMembers labUtcServer)) := by
  have hpage : listRecentPage labUtcServer labMixed labSession {} = .ok labMixedPage := by
    rw [listRecentPage_eq, if_neg (by decide), listRecentEligible_labMixed]
    exact congrArg Except.ok (pageOf_eq decreasing_labMixed (List.Perm.swap _ _ _) 25)
  rw [authorizedMemoryListRecentV1, hpage]
  rfl

/-- A page of the database that `memory_list_recent` takes for an error. -/
theorem not_isOrdered_labMixed : InUtc labUtcServer ∧
    (∀ m ∈ listRecentEligible labMixed labSession none, UtcTime.InYears m.createdAt ∧
      (ReadTools.opaqueMemoryIdSchema (.string (Js.text m.memoryId))).isSome = true) ∧
    ∃ json, authorizedMemoryListRecentV1 labUtcServer labMixed labSession {} = .ok json ∧
      isOrdered (responseRows json) = false := by
  refine ⟨inUtc_labUtcServer, fun m hm => ⟨inYears_labMixed m hm, ?_⟩, _, listRecent_labMixed, ?_⟩
  · rw [listRecentEligible_labMixed] at hm
    cases List.mem_cons.mp hm with
    | inl heq => rw [heq]; decide +kernel
    | inr hm => rw [List.mem_singleton.mp hm]; decide +kernel
  · rw [Bool.eq_false_iff, responseRows_toJson]
    intro hordered
    have hties := (isOrdered_rows inUtc_labUtcServer decreasing_labMixed (by
      intro m hm
      apply inYears_labMixed
      rw [listRecentEligible_labMixed]
      exact (List.Perm.swap _ _ _).mem_iff.mp hm)).mp hordered
    have hcode := hties labUpper labLower List.mem_cons_self
      (List.mem_cons_of_mem _ List.mem_cons_self) rfl (by decide +kernel)
    exact absurd hcode (by decide +kernel)

theorem isOrdered_listRecent_iff_labMixed :
    isOrdered (responseRows (labMixedPage.toJson (memoryMembers labUtcServer))) = true ↔
      TiesAgree labUtcServer
        (InWindow labUtcServer (listRecentEligible labMixed labSession none) {}) :=
  isOrdered_listRecent_iff labUtcServer labMixed labSession {} _ inUtc_labUtcServer
    inYears_labMixed listRecent_labMixed

end MemoryRpc
