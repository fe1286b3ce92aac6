import TableBrowser.Database.Connection
import TableBrowser.Proofs.Database.Truth

/-!
# What a table shows

What a table or view shows at a moment are rows, a truth for each comparison of each row, and
an order of the rows for each column.  None of these is looked into: a comparison may be about
whatever the database takes it for, and a column may be ordered in any way.

A connection shows such contents if it answers the two statements of a page as SQL says.  A
clause selects the rows of which it is true, AND binding tighter than OR.  One statement counts
them, and the other lists them, skips as many as the offset says and stops at the limit.
-/

namespace TableBrowser

open TableBrowser.Database (Row Truth integerBound)
open TableBrowser.Filter TableBrowser.Paging TableBrowser.Sql

structure Contents (ε : Type) where
  columns : List Text
  rows : List ε
  cells : ε → Row
  truth : Proposition → ε → Truth
  order : (column : Text) → ε → ε → Ordering

namespace Contents

variable {ε : Type} (contents : Contents ε)

/-- The rows of which a clause is true; without a clause these are all. -/
def selected : Option Clause → List ε
  | none => contents.rows
  | some clause => contents.rows.filter fun row => clause.truth (contents.truth · row) == some true

/-- The rows of which a filter is true; without a filter these are all. -/
def matching : Option Predicate → List ε
  | none => contents.rows
  | some predicate =>
    contents.rows.filter fun row => predicate.truth (contents.truth · row) == some true

/-- The rows come in the order that is asked for. -/
def IsSorted (order : SortOrder) (listed : List ε) : Prop :=
  listed.Pairwise fun a b =>
    match order.direction with
    | .ascending => (contents.order order.column a b).isLE = true
    | .descending => (contents.order order.column a b).isGE = true

/-- Some rows in an order, each once. -/
structure IsListing (rows : List ε) (order? : Option SortOrder) (listed : List ε) : Prop where
  perm : listed.Perm rows
  sorted : ∀ order, order? = some order → contents.IsSorted order listed

def record (row : ε) : Record :=
  (contents.cells row).map (·.toJson)

variable {contents}

theorem mem_matching_some {predicate : Predicate} {row : ε} :
    row ∈ contents.matching (some predicate) ↔
      row ∈ contents.rows ∧ predicate.truth (contents.truth · row) = some true := by
  rw [matching, List.mem_filter, beq_iff_eq]

theorem length_matching_le (contents : Contents ε) (filter? : Option Predicate) :
    (contents.matching filter?).length ≤ contents.rows.length := by
  cases filter? with
  | none => exact Nat.le_refl _
  | some predicate => exact List.length_filter_le _ _

end Contents

/-! ## Statements of a page -/

/-- The text is one statement over a table: one that counts rows or one that lists them, under
a clause that is an OR of ANDs of comparisons. -/
def ReadsAs (text : Text) (counts : Bool) (table : Text)
    (groups? : Option (List (List Comparison))) (order? : Option SortOrder) (paged : Bool) :
    Prop :=
  ∃ statement : Statement, Statement.read .sqlite text = .ok statement ∧
    statement.counts = counts ∧ statement.table = table ∧
    statement.clause? = groups?.map clauseOf ∧ statement.order? = order? ∧
    statement.paged = paged

/-- The groups of comparisons say what a filter says. -/
def GroupsSay (text : Text) (filter? : Option Predicate)
    (groups? : Option (List (List Comparison))) : Prop :=
  Option.Rel (fun predicate groups =>
    List.Forall₂ (fun group => GroupReadsBack .sqlite text group.conditions) predicate.groups
      groups) filter? groups?

theorem exists_groups {text : Text} {filter? : Option Predicate} {clause? : Option Clause}
    (hmeans : Option.Rel (ClauseSays .sqlite text) filter? clause?) :
    ∃ groups?, clause? = groups?.map clauseOf ∧ GroupsSay text filter? groups? := by
  cases hmeans with
  | none => exact ⟨none, rfl, .none⟩
  | some hmeans =>
      obtain ⟨groups, rfl, hgroups⟩ := hmeans
      exact ⟨some groups, rfl, .some hgroups⟩

/-- The statement of a row of lexemes is read with a clause that says what its filter says. -/
theorem readsAs_statementRow (counts : Bool) (table : Text) {filter? : Option Predicate}
    (htyped : IsTypedFilter filter?) (order? : Option SortOrder) (paged : Bool) :
    ∃ groups?, ReadsAs (rowText (statementRow .sqlite counts table filter? order? paged)) counts
        table groups? order? paged ∧
      GroupsSay (rowText (statementRow .sqlite counts table filter? order? paged)) filter?
        groups? := by
  obtain ⟨statement, hread, hcounts, htable, horder, hpaged, hmeans⟩ :=
    read_statementRow .sqlite counts table htyped order? paged
  obtain ⟨groups?, hclause, hgroups⟩ := exists_groups hmeans
  exact ⟨groups?, ⟨statement, hread, hcounts, htable, hclause, horder, hpaged⟩, hgroups⟩

theorem GroupsSay.exists_condition {text : Text} {predicate : Predicate}
    {groups : List (List Comparison)} (hmeans : GroupsSay text (some predicate) (some groups))
    {group : List Comparison} (hgroup : group ∈ groups) {comparison : Comparison}
    (hmem : comparison ∈ group) :
    ∃ condition ∈ predicate.conditions,
      Proposition.ofComparison comparison = .ofCondition condition := by
  cases hmeans with
  | some hgroups =>
      have hproposition := List.mem_map_of_mem (f := Proposition.ofComparison)
        (List.mem_flatten_of_mem hgroup hmem)
      rw [map_ofComparison_flatten hgroups] at hproposition
      obtain ⟨condition, hcondition, heq⟩ := List.mem_map.mp hproposition
      exact ⟨condition, hcondition, heq.symm⟩

theorem GroupsSay.exists_comparison {text : Text} {predicate : Predicate}
    {groups : List (List Comparison)} (hmeans : GroupsSay text (some predicate) (some groups))
    {condition : Condition} (hcondition : condition ∈ predicate.conditions) :
    ∃ group ∈ groups, ∃ comparison ∈ group,
      Proposition.ofComparison comparison = .ofCondition condition := by
  cases hmeans with
  | some hgroups =>
      have hproposition := List.mem_map_of_mem (f := Proposition.ofCondition) hcondition
      rw [Predicate.conditions, ← map_ofComparison_flatten hgroups] at hproposition
      obtain ⟨comparison, hmem, heq⟩ := List.mem_map.mp hproposition
      obtain ⟨group, hgroup, hmem⟩ := List.mem_flatten.mp hmem
      exact ⟨group, hgroup, comparison, hmem, heq⟩

theorem GroupsSay.selected_eq {ε : Type} {contents : Contents ε} {text : Text}
    {filter? : Option Predicate} {groups? : Option (List (List Comparison))}
    (hmeans : GroupsSay text filter? groups?) :
    contents.selected (groups?.map clauseOf) = contents.matching filter? := by
  cases hmeans with
  | none => rfl
  | @some predicate groups hgroups =>
      have hclause : ClauseSays .sqlite text predicate (clauseOf groups) := ⟨groups, rfl, hgroups⟩
      refine List.filter_congr fun row _ => ?_
      rw [hclause.truth_eq]

/-! ## Connections that show contents -/

variable {ε : Type}

namespace Connection

/-- What is relied on of a database for one of its tables or views, which may show other
contents at each moment: its documented behaviour, of which nothing says that a statement is
answered at all. -/
structure Shows (connection : Connection) (table : Text) (contents : Int → Contents ε) :
    Prop where
  counts : ∀ moment text groups? count, ReadsAs text true table groups? none false →
    connection.number moment text [] = .ok count →
    count = ((contents moment).selected (groups?.map clauseOf)).length
  /-- What is listed without a limit is what a limit and an offset cut from. -/
  lists : ∀ moment text groups? order?, ReadsAs text false table groups? order? true →
    ∃ listed,
      (contents moment).IsListing ((contents moment).selected (groups?.map clauseOf)) order?
        listed ∧
      ∀ limit offset columns rows,
        connection.rows moment text limit offset = .ok (columns, rows) →
        columns = (contents moment).columns ∧
          rows = ((listed.drop offset).take limit).map (contents moment).cells
  /-- The numbers of a database are of 64 bits. -/
  fits : ∀ moment, (contents moment).rows.length < integerBound

/-- The table is there and the statements of a page are answered. -/
structure StatementsRun (connection : Connection) (clock : Clock) (table : Text)
    (request : PageRequest) : Prop where
  isThere : connection.hasTable (clock 0) table = .ok true
  counts : ∃ count, connection.number (clock 1) (countText table request.clause?) [] = .ok count
  selects : ∃ found,
    connection.rows (clock 2) (pageText table request.clause? request.orderBy? request.direction?)
      request.limit (min request.offset maxOffset) = .ok found

variable {connection : Connection} {clock : Clock} {table : Text} {request : PageRequest}

/-- A page whose statements are answered is put together of their answers. -/
theorem page_eq_ok (hthere : connection.hasTable (clock 0) table = .ok true) {count : Int}
    (hcount : connection.number (clock 1) (countText table request.clause?) [] = .ok count)
    {columns : List Text} {rows : List Row}
    (hrows : connection.rows (clock 2)
      (pageText table request.clause? request.orderBy? request.direction?)
      request.limit (min request.offset maxOffset) = .ok (columns, rows)) :
    connection.page clock table request = .ok
      { columns := columns
        rows := rows.map (·.map (·.toJson))
        total := count.toNat
        hasMore := request.offset + rows.length < count.toNat } := by
  simp only [page, ensureTable, hthere, countRows, hcount, hrows]
  rfl

/-- A query that is done in its time gives out what it has found. -/
theorem source_page_of_done {page : Page} (hpage : connection.page clock table request = .ok page) :
    (connection.source ⟨clock, .done⟩).page table request = .ok page := by
  rw [source]
  dsimp only
  rw [hpage]
  cases request.timeoutSeconds? <;> rfl

/-- An offset that is too large for a statement is beyond all rows. -/
theorem drop_min_maxOffset {α : Type} {items : List α} (hlength : items.length < integerBound)
    (offset : Nat) : items.drop (min offset maxOffset) = items.drop offset := by
  by_cases hle : offset ≤ maxOffset
  · rw [Nat.min_eq_left hle]
  · have hbound : items.length ≤ maxOffset := Nat.le_sub_one_of_lt hlength
    rw [Nat.min_eq_right (Nat.le_of_not_le hle), List.drop_of_length_le hbound,
      List.drop_of_length_le (by omega)]

namespace Shows

variable {contents : Int → Contents ε} {filter? : Option Predicate}

/-- What is counted under a filter are the rows of which it is true. -/
theorem number_countText (hshows : connection.Shows table contents)
    (htyped : IsTypedFilter filter?) {moment : Int} {count : Int}
    (hcount : connection.number moment (countText table (filter?.map (predicateText .sqlite))) [] =
      .ok count) :
    count = ((contents moment).matching filter?).length := by
  obtain ⟨groups?, hreads, hmeans⟩ := readsAs_statementRow true table htyped none false
  rw [rowText_countRow] at hreads hmeans
  rw [hshows.counts moment _ groups? count hreads hcount, hmeans.selected_eq]

/-- What is listed under a filter are the rows of which it is true, in one order for all limits
and offsets. -/
theorem rows_pageText (hshows : connection.Shows table contents) (htyped : IsTypedFilter filter?)
    (orderBy? : Option Text) (direction? : Option Direction) (moment : Int) :
    ∃ listed, (contents moment).IsListing ((contents moment).matching filter?)
        (sortOrder? orderBy? direction?) listed ∧
      ∀ limit offset columns rows,
        connection.rows moment (pageText table (filter?.map (predicateText .sqlite)) orderBy?
          direction?) limit (min offset maxOffset) = .ok (columns, rows) →
        columns = (contents moment).columns ∧
          rows = ((listed.drop offset).take limit).map (contents moment).cells := by
  obtain ⟨groups?, hreads, hmeans⟩ :=
    readsAs_statementRow false table htyped (sortOrder? orderBy? direction?) true
  rw [rowText_pageRow] at hreads hmeans
  obtain ⟨listed, hlisting, hcuts⟩ := hshows.lists moment _ groups? _ hreads
  rw [hmeans.selected_eq] at hlisting
  have hlength : listed.length < integerBound := by
    rw [hlisting.perm.length_eq]
    exact Nat.lt_of_le_of_lt ((contents moment).length_matching_le filter?) (hshows.fits moment)
  refine ⟨listed, hlisting, fun limit offset columns rows hrows => ?_⟩
  rw [← drop_min_maxOffset hlength]
  exact hcuts limit _ columns rows hrows

end Shows

end Connection

end TableBrowser
