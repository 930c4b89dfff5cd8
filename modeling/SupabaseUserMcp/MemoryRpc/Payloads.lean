import SupabaseUserMcp.DefensiveRetrieval.Uniqueness
import SupabaseUserMcp.Js.Records
import SupabaseUserMcp.MemoryRpc.Ordering

/- What the fixed client parses of the answers of the functions. It rejects no page and no
   record that they return: the rows are the database's, and the cursor is its last row's. -/
namespace MemoryRpc

open Sql PolicyLab
open Js (Value)
open DefensiveRetrieval (Row)
open Inspection (property)

/-! ## Rows as the client returns them -/

theorem text_injective : Function.Injective Js.text := by
  intro a b h
  have hscalars := congrArg Js.scalars h
  rw [Js.text, Js.text, Js.scalars_utf16, Js.scalars_utf16] at hscalars
  exact String.toList_inj.mp hscalars

def clientRow (server : Server) (m : Memory) : Row where
  id := Js.text m.memoryId
  title := Js.text m.title
  content := Js.text m.content
  createdAt := Js.text (server.timestampJson m.createdAt)
  provenanceSummary := Js.text m.provenanceSummary

/-- The rank of a row as a number. -/
def rankNumber (server : Server) (query : Text) (m : Memory) : Js.Number :=
  .finite (rank server query m)

def searchMembers (server : Server) (query : Text) (m : Memory) : List (Text × Jsonb) :=
  memoryMembers server m ++ [("rank", rankJson server query m)]

theorem storedBefore_antisymm {left right : Text} (h : storedBefore left right = true)
    (h' : storedBefore right left = true) : left = right := by
  simp only [storedBefore, decide_eq_true_eq] at h h'
  obtain hlt | ⟨heq, hle⟩ := h
  · omega
  · obtain hlt | ⟨-, hle'⟩ := h'
    · omega
    · exact le_antisymm hle hle'

/-- `jsonb_build_object` of different keys in any order. -/
theorem buildObject_of_perm {members stored : List (Text × Jsonb)} (hperm : members.Perm stored)
    (hnodup : (stored.map Prod.fst).Nodup)
    (h : (stored.map Prod.fst).Pairwise fun left right => storedBefore left right = true) :
    Jsonb.buildObject members = .object stored := by
  have htrans : ∀ a b c : Text × Jsonb, storedBefore a.1 b.1 = true → storedBefore b.1 c.1 = true →
      storedBefore a.1 c.1 = true := by
    intro a b c hab hbc
    simp only [storedBefore, decide_eq_true_eq] at hab hbc ⊢
    obtain hlt | ⟨heq, hle⟩ := hab
    · left
      omega
    · obtain hlt | ⟨heq', hle'⟩ := hbc
      · left
        omega
      · exact .inr ⟨heq.trans heq', le_trans hle hle'⟩
  have htotal : ∀ a b : Text × Jsonb, (storedBefore a.1 b.1 || storedBefore b.1 a.1) = true := by
    intro a b
    simp only [storedBefore, Bool.or_eq_true, decide_eq_true_eq]
    obtain hlt | heq | hgt := lt_trichotomy a.1.utf8ByteSize b.1.utf8ByteSize
    · exact .inl (.inl hlt)
    · exact (le_total a.1 b.1).imp (fun hle => .inr ⟨heq, hle⟩) fun hle => .inr ⟨heq.symm, hle⟩
    · exact .inr (.inl hgt)
  have hsorted := List.pairwise_mergeSort htrans htotal members
  have hstored := List.pairwise_map.mp h
  refine congrArg Jsonb.object (((List.mergeSort_perm members _).trans hperm).eq_of_pairwise
    (fun a b ha hb hab hba => ?_) hsorted hstored)
  -- two members of one key are one member
  refine List.inj_on_of_nodup_map hnodup (hperm.mem_iff.mp ?_) hb (storedBefore_antisymm hab hba)
  exact (List.mergeSort_perm members _).mem_iff.mp ha

theorem valueOf_rankJson (server : Server) (query : Text) (m : Memory) :
    valueOf (rankJson server query m) = .number (rankNumber server query m) := by
  have hread : ∀ literal q, Js.readNumber (Js.text literal) = some (q, []) →
      Js.nearestDouble q = .finite q → valueOf (.number literal) = .number (.finite q) := by
    intro literal q hliteral hdouble
    rw [valueOf, hliteral]
    exact congrArg Value.number hdouble
  rw [rankJson, rankNumber, rank]
  split
  · exact hread _ _ (by decide +kernel) (by decide +kernel)
  · exact hread _ _ (by decide +kernel) (by decide +kernel)

theorem valueOf_searchRow (server : Server) (query : Text) (m : Memory) :
    valueOf (.buildObject (searchMembers server query m)) =
      .object [property "id" (.string (Js.text m.memoryId)),
        property "rank" (.number (rankNumber server query m)),
        property "title" (.string (Js.text m.title)),
        property "content" (.string (Js.text m.content)),
        property "createdAt" (.string (Js.text (server.timestampJson m.createdAt))),
        property "provenanceSummary" (.string (Js.text m.provenanceSummary))] := by
  have hkeys : ["id", "rank", "title", "content", "createdAt", "provenanceSummary"].Pairwise
      fun left right => storedBefore left right = true := by decide
  have hnodup : ["id", "rank", "title", "content", "createdAt", "provenanceSummary"].Nodup := by
    decide
  let stored : List (Text × Jsonb) := [("id", .string m.memoryId), ("rank", rankJson server query m),
    ("title", .string m.title), ("content", .string m.content),
    ("createdAt", .string (server.timestampJson m.createdAt)),
    ("provenanceSummary", .string m.provenanceSummary)]
  have hperm : (searchMembers server query m).Perm stored :=
    List.Perm.cons _ ((List.perm_append_singleton _ _).trans (List.Perm.refl _))
  rw [buildObject_of_perm hperm hnodup hkeys]
  simp only [stored, valueOf, propertiesOf, valueOf_rankJson]
  rfl

/-! ## Answers as the client parses them -/

theorem parseSearchRow_searchRow (server : Server) (query : Text) (m : Memory) :
    FixedClient.parseSearchRow (valueOf (.buildObject (searchMembers server query m))) =
      .ok ((clientRow server m).ranked (rankNumber server query m)) := by
  have hrank : (ReadTools.rankSchema (.number (rankNumber server query m))).isNone = false := by
    rw [rankNumber, rank]
    split
    · decide
    · decide +kernel
  rw [valueOf_searchRow]
  have hread : ∀ record, FixedClient.hasAllowedKeys record
      (FixedClient.allowedMemoryRowFields ++ [Js.text "rank"]) = true →
      Value.property record (Js.text "rank") = some (.number (rankNumber server query m)) →
      FixedClient.parseGetRow (.object (FixedClient.allowedMemoryRowFields.map fun field =>
        (field, (Value.property record field).getD .undefined))) = .ok (clientRow server m).toValue →
      FixedClient.parseSearchRow (.object record) =
        .ok ((clientRow server m).ranked (rankNumber server query m)) := by
    intro record hkeys hproperty hrow
    simp only [FixedClient.parseSearchRow, hkeys, hproperty, hrow, Option.getD_some, hrank,
      Bool.not_true, Bool.or_self, Js.throwIf, Bool.false_eq_true, if_false]
    rfl
  exact hread _ rfl rfl rfl

theorem parseGetRow_rowOf (server : Server) (m : Memory) :
    FixedClient.parseGetRow (rowOf server m) = .ok (clientRow server m).toValue := by
  rw [rowOf_eq]
  rfl

/-- The envelope of a page holds its rows and its cursor. -/
theorem exists_envelope (members : Memory → List (Text × Jsonb)) {page : Page}
    (hcursor : page.hasMore = true → ∃ cursor, page.nextToken = some cursor ∧
      FixedClient.isOpaqueCursor (Js.text cursor) = true) :
    ∃ envelope, valueOf (page.toJson members) = .object envelope ∧
      FixedClient.envelopeRows envelope =
        .ok (page.rows.map fun m => valueOf (.buildObject (members m))) ∧
      FixedClient.envelopeCursor envelope = .ok (page.nextCursor.map Js.text) := by
  refine ⟨_, valueOf_toJson page members, ?_⟩
  rw [Page.nextCursor]
  cases hmore : page.hasMore with
  | false => exact ⟨rfl, rfl⟩
  | true =>
    obtain ⟨cursor, hnext, hopaque⟩ := hcursor hmore
    rw [hnext]
    refine ⟨rfl, ?_⟩
    have hproperty : ∀ rows : Value, Value.property [property "rows" rows,
        property "nextCursor" (.string (Js.text cursor))] (Js.text "nextCursor") =
          some (.string (Js.text cursor)) := fun _ => rfl
    show FixedClient.envelopeCursor [property "rows" _,
      property "nextCursor" (.string (Js.text cursor))] = _
    rw [FixedClient.envelopeCursor, hproperty]
    exact if_pos hopaque

/-- Rows that are parsed one by one. -/
theorem mapM_rows {parse : Value → Except FixedClient.ClientErrorCode Value}
    {write returned : Memory → Value} (h : ∀ m, parse (write m) = .ok (returned m))
    (rows : List Memory) : (rows.map write).mapM parse = .ok (rows.map returned) := by
  rw [Js.mapM_eq_ok, List.forall₂_map_left_iff, List.forall₂_map_right_iff, List.forall₂_same]
  exact fun m _ => h m

theorem parse_searchPage (server : Server) (query : Text) {limit : ℕ} {page : Page}
    (hrows : page.rows.length ≤ limit) (hcursor : page.hasMore = true →
      ∃ cursor, page.nextToken = some cursor ∧ FixedClient.isOpaqueCursor (Js.text cursor) = true) :
    FixedClient.parseMemorySearchPayload limit (valueOf (page.toJson (searchMembers server query))) =
      .ok (page.rows.map fun m => (clientRow server m).ranked (rankNumber server query m),
        page.nextCursor.map Js.text) := by
  obtain ⟨envelope, henvelope, hread, hnext⟩ := exists_envelope (searchMembers server query) hcursor
  have hshort : ¬ limit < (page.rows.map fun m =>
      valueOf (.buildObject (searchMembers server query m))).length := by
    rw [List.length_map]
    omega
  have hmapM := mapM_rows (parseSearchRow_searchRow server query) page.rows
  rw [henvelope]
  simp only [FixedClient.parseMemorySearchPayload, hread, hnext, hmapM, Js.ok_bind, Js.throwIf,
    decide_eq_false hshort, Bool.false_eq_true, if_false]
  rfl

theorem parse_listPage (server : Server) {page : Page} (hcursor : page.hasMore = true →
      ∃ cursor, page.nextToken = some cursor ∧ FixedClient.isOpaqueCursor (Js.text cursor) = true) :
    FixedClient.parseMemoryListPayload (valueOf (page.toJson (memoryMembers server))) =
      .ok (page.rows.map fun m => (clientRow server m).toValue, page.nextCursor.map Js.text) := by
  obtain ⟨envelope, henvelope, hread, hnext⟩ := exists_envelope (memoryMembers server) hcursor
  have hmapM := mapM_rows (parseGetRow_rowOf server) page.rows
  rw [henvelope]
  simp only [FixedClient.parseMemoryListPayload, hread, hnext, Js.ok_bind]
  rw [show (page.rows.map fun m => valueOf (.buildObject (memoryMembers server m))).mapM
    FixedClient.parseGetRow = _ from hmapM]
  rfl

theorem valueOf_record (json : Jsonb) :
    valueOf (.buildObject [("record", json)]) = .object [property "record" (valueOf json)] := by
  rw [buildObject_of_pairwise (List.pairwise_singleton _ _)]
  rfl

end MemoryRpc
