import Mathlib.Data.List.Sort
import Mathlib.Data.Set.Card
import Mathlib.Order.Basic

/- Keyset pagination: rows in decreasing order of a key, a page at a time, each page
   beginning below the last row of the page before. One row more than the page holds is
   read, to learn whether anything is left. The rows may change between two pages; what a
   walk returns does not depend on how, as long as the row it continues from is there. -/
namespace Sql.Keyset

variable {Row Key : Type} [LinearOrder Key]

/-- `order by key desc`. -/
def orderDesc (key : Row → Key) (rows : List Row) : List Row :=
  rows.mergeSort fun a b => decide (key b ≤ key a)

/-- `order by key asc`. -/
def orderAsc (key : Row → Key) (rows : List Row) : List Row :=
  rows.mergeSort fun a b => decide (key a ≤ key b)

/-- The rows a page may take: all, or those below where the last one ended. -/
def Below (key : Row → Key) (anchor : Option Key) (row : Row) : Prop :=
  ∀ a ∈ anchor, key row < a

/-- Rows in strictly decreasing order of the key. -/
def Decreasing (key : Row → Key) (rows : List Row) : Prop :=
  rows.Pairwise fun a b => key b < key a

instance (key : Row → Key) (rows : List Row) : Decidable (Decreasing key rows) :=
  inferInstanceAs (Decidable (List.Pairwise _ _))

/-- A page of the eligible rows below an anchor, and whether more of them are left. -/
structure IsPage (key : Row → Key) (eligible : List Row) (anchor : Option Key) (limit : ℕ)
    (rows : List Row) (more : Bool) : Prop where
  decreasing : Decreasing key rows
  sound : ∀ row ∈ rows, row ∈ eligible ∧ Below key anchor row
  bounded : rows.length ≤ limit
  -- what the page leaves out comes after all of it
  complete : ∀ row ∈ eligible, Below key anchor row →
    row ∈ rows ∨ more = true ∧ ∀ r ∈ rows, key row < key r
  left : more = true → rows.length = limit ∧
    ∃ row ∈ eligible, Below key anchor row ∧ ∀ r ∈ rows, key row < key r

/-! ## Ordering -/

variable {key : Row → Key}

theorem orderDesc_perm (rows : List Row) : (orderDesc key rows).Perm rows :=
  List.mergeSort_perm rows _

@[simp] theorem mem_orderDesc {rows : List Row} {row : Row} :
    row ∈ orderDesc key rows ↔ row ∈ rows := (orderDesc_perm rows).mem_iff

theorem orderDesc_pairwise (rows : List Row) :
    (orderDesc key rows).Pairwise fun a b => key b ≤ key a := by
  have htrans : ∀ a b c : Row, decide (key b ≤ key a) = true → decide (key c ≤ key b) = true →
      decide (key c ≤ key a) = true := by
    intro a b c hab hbc
    simp only [decide_eq_true_eq] at hab hbc ⊢
    exact le_trans hbc hab
  have htotal : ∀ a b : Row, (decide (key b ≤ key a) || decide (key a ≤ key b)) = true := by
    intro a b
    simp only [Bool.or_eq_true, decide_eq_true_eq]
    exact le_total (key b) (key a)
  simpa [orderDesc] using List.pairwise_mergeSort htrans htotal rows

/-- Different keys put the rows in one order only. -/
theorem orderDesc_decreasing {rows : List Row} (h : (rows.map key).Nodup) :
    Decreasing key (orderDesc key rows) := by
  have hnodup : ((orderDesc key rows).map key).Nodup :=
    ((orderDesc_perm rows).map key).nodup_iff.mpr h
  have hne : (orderDesc key rows).Pairwise fun a b => key a ≠ key b :=
    List.pairwise_map.mp hnodup
  exact ((orderDesc_pairwise rows).and hne).imp fun hab => lt_of_le_of_ne hab.1 hab.2.symm

theorem Decreasing.orderDesc_eq {rows : List Row} (h : Decreasing key rows) :
    orderDesc key rows = rows := by
  apply List.mergeSort_of_pairwise
  exact h.imp fun hab => by simpa using hab.le

theorem Decreasing.nodup {rows : List Row} (h : Decreasing key rows) : (rows.map key).Nodup :=
  List.pairwise_map.mpr (h.imp fun hab => (ne_of_lt hab).symm)

/-- The order of a set of rows with different keys does not depend on how it is listed. -/
theorem Decreasing.eq_of_mem {left right : List Row} (hl : Decreasing key left)
    (hr : Decreasing key right) (h : ∀ row, row ∈ left ↔ row ∈ right) : left = right := by
  have hperm : left.Perm right :=
    (List.perm_ext_iff_of_nodup (List.Nodup.of_map key hl.nodup)
      (List.Nodup.of_map key hr.nodup)).mpr h
  refine hperm.eq_of_pairwise (fun a b _ _ hab hba => ?_) hl hr
  exact absurd hab (not_lt_of_gt hba)

theorem orderDesc_congr {left right : List Row} (hl : (left.map key).Nodup)
    (hr : (right.map key).Nodup) (h : ∀ row, row ∈ left ↔ row ∈ right) :
    orderDesc key left = orderDesc key right :=
  (orderDesc_decreasing hl).eq_of_mem (orderDesc_decreasing hr) (by simpa using h)

/-- The last row of a page is the first in increasing order. -/
theorem Decreasing.head?_orderAsc {rows : List Row} (h : Decreasing key rows) :
    (orderAsc key rows).head? = rows.getLast? := by
  -- increasing is decreasing in the dual order
  have hasc : Decreasing (OrderDual.toDual ∘ key) (orderAsc key rows) := by
    apply orderDesc_decreasing
    have := List.Nodup.map OrderDual.toDual.injective h.nodup
    rwa [List.map_map] at this
  have hreverse : Decreasing (OrderDual.toDual ∘ key) rows.reverse := List.pairwise_reverse.mpr h
  have hmem : ∀ row, row ∈ orderAsc key rows ↔ row ∈ rows.reverse := by
    intro row
    rw [List.mem_reverse]
    exact (List.mergeSort_perm rows _).mem_iff
  rw [hasc.eq_of_mem hreverse hmem, List.head?_reverse]

/-- The rows after one of them are those below it. -/
theorem Decreasing.drop_eq_filter {rows : List Row} (h : Decreasing key rows) {k : ℕ} {bottom : Row}
    (hk : rows[k]? = some bottom) :
    rows.drop (k + 1) = rows.filter fun row => decide (key row < key bottom) := by
  induction rows generalizing k with
  | nil => simp at hk
  | cons first rest ih =>
    obtain ⟨hfirst, hrest⟩ := List.pairwise_cons.mp h
    cases k with
    | zero =>
      obtain rfl : first = bottom := by simpa using hk
      have hall : ∀ row ∈ rest, decide (key row < key first) = true :=
        fun row hrow => decide_eq_true (hfirst row hrow)
      rw [List.filter_cons_of_neg (by simp), List.filter_eq_self.mpr hall]
      rfl
    | succ k =>
      rw [List.getElem?_cons_succ] at hk
      have hbelow := hfirst bottom (List.mem_of_getElem? hk)
      rw [List.filter_cons_of_neg (by simpa using hbelow.le), ← ih hrest hk]
      rfl

/-! ## A page -/

/-- What a page is read from: one row more than it holds. -/
def pagePlusOne (key : Row → Key) (limit : ℕ) (rows : List Row) : List Row :=
  (orderDesc key rows).take (limit + 1)

/-- `select * from page_plus_one order by key desc limit limit`. -/
def page (key : Row → Key) (limit : ℕ) (rows : List Row) : List Row :=
  (orderDesc key (pagePlusOne key limit rows)).take limit

theorem pagePlusOne_decreasing {limit : ℕ} {rows : List Row} (h : (rows.map key).Nodup) :
    Decreasing key (pagePlusOne key limit rows) :=
  (orderDesc_decreasing h).sublist (List.take_sublist _ _)

theorem page_eq_take {limit : ℕ} {rows : List Row} (h : (rows.map key).Nodup) :
    page key limit rows = (orderDesc key rows).take limit := by
  rw [page, (pagePlusOne_decreasing h).orderDesc_eq, pagePlusOne, List.take_take,
    Nat.min_eq_left (Nat.le_succ limit)]

theorem isPage_page {eligible below : List Row}
    {anchor : Option Key} {limit : ℕ} (hnodup : (eligible.map key).Nodup)
    (hsub : List.Sublist below eligible)
    (hbelow : ∀ row, row ∈ below ↔ row ∈ eligible ∧ Below key anchor row) :
    IsPage key eligible anchor limit (page key limit below)
      (decide (limit < (pagePlusOne key limit below).length)) := by
  have hkeys : (below.map key).Nodup := (hsub.map key).nodup hnodup
  have hall := orderDesc_decreasing hkeys
  have hsplit : orderDesc key below = page key limit below ++ (orderDesc key below).drop limit := by
    rw [page_eq_take hkeys, List.take_append_drop]
  have hpair := hall
  rw [hsplit] at hpair
  obtain ⟨hpage, -, hafter⟩ := List.pairwise_append.mp hpair
  have hmore : limit < (pagePlusOne key limit below).length ↔
      (orderDesc key below).drop limit ≠ [] := by
    rw [pagePlusOne, List.length_take, Ne, List.drop_eq_nil_iff]
    omega
  refine ⟨hpage, ?_, ?_, ?_, ?_⟩
  · intro row hrow
    apply (hbelow row).mp
    apply (@mem_orderDesc _ _ _ key below row).mp
    rw [hsplit]
    exact List.mem_append_left _ hrow
  · rw [page_eq_take hkeys, List.length_take]
    exact Nat.min_le_left _ _
  · intro row hrow hanchor
    have hmem : row ∈ orderDesc key below := mem_orderDesc.mpr ((hbelow row).mpr ⟨hrow, hanchor⟩)
    rw [hsplit] at hmem
    apply (List.mem_append.mp hmem).imp id
    intro hdrop
    refine ⟨decide_eq_true (hmore.mpr (List.ne_nil_of_mem hdrop)), ?_⟩
    intro r hr
    exact hafter r hr row hdrop
  · intro h
    have hne := hmore.mp (of_decide_eq_true h)
    obtain ⟨row, hrow⟩ := List.exists_mem_of_ne_nil _ hne
    refine ⟨?_, row, ?_⟩
    · rw [page_eq_take hkeys, List.length_take]
      rw [Ne, List.drop_eq_nil_iff] at hne
      omega
    · have hmem := (hbelow row).mp (mem_orderDesc.mp (List.mem_of_mem_drop hrow))
      exact ⟨hmem.1, hmem.2, fun r hr => hafter r hr row hrow⟩

/-- More is left exactly when an eligible row comes after the whole page. -/
theorem IsPage.more_iff {eligible rows : List Row} {anchor : Option Key} {limit : ℕ} {more : Bool}
    (h : IsPage key eligible anchor limit rows more) : more = true ↔
      ∃ row ∈ eligible, Below key anchor row ∧ ∀ r ∈ rows, key row < key r := by
  constructor
  · intro hmore
    exact (h.left hmore).2
  · intro ⟨row, hrow, hanchor, hafter⟩
    obtain hmem | ⟨hmore, -⟩ := h.complete row hrow hanchor
    · exact absurd (hafter row hmem) (lt_irrefl _)
    · exact hmore

/-- A page has the rows that fewer rows than its limit come before. -/
theorem IsPage.mem_iff {eligible rows : List Row} {anchor : Option Key} {limit : ℕ} {more : Bool}
    (h : IsPage key eligible anchor limit rows more) {row : Row} : row ∈ rows ↔
      (row ∈ eligible ∧ Below key anchor row) ∧
        {r | (r ∈ eligible ∧ Below key anchor r) ∧ key row < key r}.ncard < limit := by
  classical
  have hrows : {r | r ∈ rows}.ncard = rows.length := by
    have hnodup := List.Nodup.of_map key h.decreasing.nodup
    rw [← List.coe_toFinset, Set.ncard_coe_finset, List.toFinset_card_of_nodup hnodup]
  have hfinite : {r | r ∈ rows}.Finite := List.finite_toSet rows
  constructor
  · intro hrow
    refine ⟨h.sound row hrow, Nat.lt_of_lt_of_le ?_ (hrows.trans_le h.bounded)⟩
    refine Set.ncard_lt_ncard (Set.ssubset_iff_exists.mpr ⟨?_, row, hrow, ?_⟩) hfinite
    · intro r ⟨hr, hlt⟩
      -- a row before one of the page is on it
      refine (h.complete r hr.1 hr.2).resolve_right fun hafter => ?_
      exact absurd (hafter.2 row hrow) (lt_asymm hlt)
    · exact fun hself => lt_irrefl _ hself.2
  · intro ⟨hcandidate, hfew⟩
    refine (h.complete row hcandidate.1 hcandidate.2).resolve_right fun hafter => ?_
    have hsub : {r | r ∈ rows} ⊆
        {r | (r ∈ eligible ∧ Below key anchor r) ∧ key row < key r} :=
      fun r hr => ⟨h.sound r hr, hafter.2 r hr⟩
    have hall : {r | (r ∈ eligible ∧ Below key anchor r) ∧ key row < key r}.Finite :=
      (List.finite_toSet eligible).subset fun r hr => hr.1.1
    have hcount := Set.ncard_le_ncard hsub hall
    rw [hrows, (h.left hafter.1).1] at hcount
    exact absurd hfew (Nat.not_lt.mpr hcount)

/-! ## A walk -/

/-- Pages one after the other, each read from what is eligible at its own time and below
the last row of the page before it, until one says that nothing is left. -/
inductive Chain (key : Row → Key) (limit : ℕ) : Option Key → List (List Row × List Row) → Prop
  | last {anchor : Option Key} {eligible rows : List Row} :
      IsPage key eligible anchor limit rows false → Chain key limit anchor [(eligible, rows)]
  | next {anchor : Option Key} {eligible rows : List Row} {bottom : Row}
      {rest : List (List Row × List Row)} :
      IsPage key eligible anchor limit rows true → rows.getLast? = some bottom →
      Chain key limit (some (key bottom)) rest → Chain key limit anchor ((eligible, rows) :: rest)

/-- All that a chain returned. -/
def returned (pages : List (List Row × List Row)) : List Row := pages.flatMap Prod.snd

/-- No row of a decreasing list comes after its last one. -/
theorem Decreasing.last_le {rows : List Row} {bottom : Row} (h : Decreasing key rows)
    (hend : rows.getLast? = some bottom) : ∀ row ∈ rows, key bottom ≤ key row := by
  obtain ⟨init, rfl⟩ := List.getLast?_eq_some_iff.mp hend
  intro row hrow
  cases List.mem_append.mp hrow with
  | inl hinit =>
    exact ((List.pairwise_append.mp h).2.2 row hinit bottom (List.mem_singleton_self _)).le
  | inr heq => rw [List.mem_singleton.mp heq]

theorem Chain.returned_below {limit : ℕ} {anchor : Option Key} {pages : List (List Row × List Row)}
    (h : Chain key limit anchor pages) : ∀ row ∈ returned pages, Below key anchor row := by
  induction h with
  | last hpage =>
    intro row hrow
    exact (hpage.sound row (by simpa [returned] using hrow)).2
  | next hpage hend _ ih =>
    intro row hrow
    cases List.mem_append.mp hrow with
    | inl hrow => exact (hpage.sound row hrow).2
    | inr hrow =>
      -- a later row is below the end of this page, which is below its anchor
      intro a ha
      have hend' := List.mem_of_getLast? hend
      exact lt_trans (ih row hrow _ rfl) ((hpage.sound _ hend').2 a ha)

theorem Chain.decreasing {limit : ℕ} {anchor : Option Key} {pages : List (List Row × List Row)}
    (h : Chain key limit anchor pages) : Decreasing key (returned pages) := by
  induction h with
  | last hpage => simpa [returned] using hpage.decreasing
  | next hpage hend hrest ih =>
    refine List.pairwise_append.mpr ⟨hpage.decreasing, ih, ?_⟩
    intro row hrow later hlater
    exact lt_of_lt_of_le (hrest.returned_below later hlater _ rfl) (hpage.decreasing.last_le hend row hrow)

/-- A row that is eligible at every page is returned. -/
theorem Chain.complete {limit : ℕ} {anchor : Option Key} {pages : List (List Row × List Row)}
    (h : Chain key limit anchor pages) {row : Row} (hrow : ∀ p ∈ pages, row ∈ p.1)
    (hbelow : Below key anchor row) : row ∈ returned pages := by
  induction h with
  | last hpage =>
    have := hpage.complete row (hrow _ List.mem_cons_self) hbelow
    simpa [returned] using this
  | @next _ _ rows bottom _ hpage hend _ ih =>
    have hcase := hpage.complete row (hrow _ List.mem_cons_self) hbelow
    apply List.mem_append.mpr
    apply hcase.imp id
    intro hafter
    apply ih (fun p hp => hrow p (List.mem_cons_of_mem _ hp))
    intro a ha
    obtain rfl : key bottom = a := by simpa using ha
    exact hafter.2 bottom (List.mem_of_getLast? hend)

end Sql.Keyset
