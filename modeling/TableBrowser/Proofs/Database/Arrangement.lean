import Mathlib.Data.List.Perm.Basic
import TableBrowser.Proofs.Database.Terms
import TableBrowser.Proofs.Database.Walks

/-!
# The order in which rows come

However a plan visits the rows of which a clause is true, it brings each of them once.
When an order is asked for the rows come in that order: they are sorted, or the visit
brings them in order by itself, or all of them are alike.
-/

namespace TableBrowser.Database

open TableBrowser.Sql TableBrowser.Paging

/-! ## Each row once -/

theorem Order.arrange_perm (order : Order) (rows : List Entry) :
    (order.arrange rows).Perm rows := by
  cases order with
  | byNumber => exact .refl _
  | byColumn place isUnique => exact List.mergeSort_perm _ _

/-- Branches bring each row once that is in at least one of them. -/
theorem arrangeBranches_perm {α : Type} {isIn : α → Entry → Bool}
    {branches : List (α × Order)} {rows : List Entry}
    (hrows : ∀ entry ∈ rows, ∃ branch ∈ branches, isIn branch.1 entry = true) :
    (arrangeBranches isIn branches rows).Perm rows := by
  induction branches generalizing rows with
  | nil =>
      cases rows with
      | nil => exact .refl _
      | cons entry rest =>
          obtain ⟨branch, hmem, -⟩ := hrows entry List.mem_cons_self
          cases hmem
  | cons first rest ih =>
      obtain ⟨branch, order⟩ := first
      rw [arrangeBranches]
      have hrest : ∀ entry ∈ rows.filter (!isIn branch ·),
          ∃ other ∈ rest, isIn other.1 entry = true := by
        intro entry hentry
        obtain ⟨hmem, hnot⟩ := List.mem_filter.mp hentry
        obtain ⟨other, hother, htrue⟩ := hrows entry hmem
        rcases List.mem_cons.mp hother with rfl | hother
        · rw [htrue] at hnot
          cases hnot
        · exact ⟨other, hother, htrue⟩
      exact ((order.arrange_perm _).append (ih hrest)).trans (List.filter_append_perm _ _)

theorem length_formulaMap {α β : Type} (f : α → β) (formula : Formula α) :
    (formulaMap f formula).length = formula.length := by
  induction formula with
  | nil => rfl
  | cons group rest ih => rw [formulaMap, List.length_cons, List.length_cons, ih]

/-- A walk brings each row of which a clause is true once, if there is an order for each
group of the clause. -/
theorem Walk.arrange_perm {α : Type} {walk : Walk} {truth : Entry → α → Truth}
    {clause : Formula α} {rows : List Entry}
    (hbranches : ∀ orders, walk = .branches orders → clause.length = orders.length ∧
      ∀ entry ∈ rows, formulaTruth (truth entry) clause = some true) :
    (walk.arrange truth clause rows).Perm rows := by
  cases walk with
  | along order => exact order.arrange_perm rows
  | branches orders =>
      obtain ⟨hlength, htrue⟩ := hbranches orders rfl
      apply arrangeBranches_perm
      intro entry hentry
      obtain ⟨group, hgroup, hgroupTrue⟩ := exists_group_of_formulaTruth (htrue entry hentry)
      rw [← List.map_fst_zip (Nat.le_of_eq hlength)] at hgroup
      obtain ⟨branch, hbranch, rfl⟩ := List.mem_map.mp hgroup
      exact ⟨branch, hbranch, by rw [hgroupTrue]; rfl⟩

theorem sortEntries_perm (scope : Scope) (order : SortOrder) (rows : List Entry) :
    (sortEntries scope order rows).Perm rows := by
  unfold sortEntries
  split
  · exact .refl _
  · dsimp only
    split <;> exact List.mergeSort_perm _ _

theorem Plan.arrange_perm {α : Type} {plan : Plan} {scope : Scope} {truth : Entry → α → Truth}
    {clause : Formula α} {order? : Option SortOrder} {rows : List Entry}
    (hwalk : (plan.walk.arrange truth clause rows).Perm rows) :
    (plan.arrange scope truth clause order? rows).Perm rows := by
  unfold Plan.arrange
  dsimp only
  split
  · exact hwalk
  · exact hwalk
  · split
    · exact (List.reverse_perm _).trans hwalk
    · exact hwalk
  · exact (sortEntries_perm _ _ _).trans hwalk

/-! ## The rows of a source -/

/-- The tests of a clause. -/
def testsOf (source : Source) (now : Int) (clause : Clause) : Formula Test :=
  formulaMap (Test.ofComparison now (.ofSource source)) clause

/-- The rows of a source of which a clause is true. -/
def selectedRows (source : Source) (now : Int) (clause? : Option Clause) : List Entry :=
  selectEntries source.table (clause?.map (testsOf source now))

/-- The rows of a source of which a clause is true, in the order in which the database
brings them. -/
def arrangedRows (db : Database) (source : Source) (now : Int) (clause? : Option Clause)
    (order? : Option SortOrder) : List Entry :=
  let plan := Plan.choose (.ofSource source now) (db.indexesOf source.table.name) clause? order?
  plan.arrange (.ofSource source) (fun entry => (·.truth entry))
    ((clause?.map (testsOf source now)).getD []) order? (selectedRows source now clause?)

theorem length_termsOf_branches {subject : Subject} {clause? : Option Clause}
    (hbranches : (Plan.termsOf subject clause?).2 ≠ []) :
    ∃ clause, clause? = some clause ∧ (Plan.termsOf subject clause?).2.length = clause.length := by
  unfold Plan.termsOf at hbranches ⊢
  split at hbranches
  · exact absurd rfl hbranches
  · exact absurd rfl hbranches
  · next groups hgroups =>
      exact ⟨groups, rfl, List.length_map _⟩

theorem walk_of_isVisit {orders : List Order} {terms : List Term} {key? : Option Sought}
    {visit : Visit} (hvisit : IsVisit orders terms key? visit) :
    ∃ order ∈ orders, visit.walk = .along order := by
  cases hvisit with
  | scan order hmem hwalk => exact ⟨order, hmem, hwalk⟩
  | search order hmem hsearches => exact ⟨order, hmem, hsearches.walk⟩

/-- A plan that visits the branches of an OR has an order for each group. -/
theorem length_of_walk_branches {subject : Subject} {indexes : List Index}
    {clause? : Option Clause} {order? : Option SortOrder} {orders : List Order}
    (hwalk : (Plan.choose subject indexes clause? order?).walk = .branches orders) :
    ∃ clause, clause? = some clause ∧ clause.length = orders.length := by
  rcases choose_eq rfl with hplan | ⟨visit, hvisit, hplan, -⟩
  · rw [hplan] at hwalk
    cases hwalk
  · rw [hplan] at hwalk
    rcases mem_weighedVisits hvisit with hvisit | hbranches
    · obtain ⟨order, -, halong⟩ := walk_of_isVisit (isVisit_of_mem_visitsOf hvisit)
      rw [halong] at hwalk
      cases hwalk
    · obtain ⟨hmade, hne, -⟩ := branchesVisit?_eq_some hbranches
      rw [hmade] at hwalk
      cases hwalk
      obtain ⟨clause, hclause, hlength⟩ := length_termsOf_branches hne
      exact ⟨clause, hclause, by rw [List.length_map, hlength]⟩

/-- The database brings each row of which a clause is true once. -/
theorem arrangedRows_perm (db : Database) (source : Source) (now : Int)
    (clause? : Option Clause) (order? : Option SortOrder) :
    (arrangedRows db source now clause? order?).Perm (selectedRows source now clause?) := by
  apply Plan.arrange_perm
  apply Walk.arrange_perm
  intro orders hwalk
  obtain ⟨clause, rfl, hlength⟩ := length_of_walk_branches hwalk
  refine ⟨(length_formulaMap _ clause).trans hlength, fun entry hentry => ?_⟩
  exact eq_of_beq (List.mem_filter.mp hentry).2

/-! ## Rows in the order that is asked for -/

/-- The cell of a row by which an order sorts; a name of nothing sorts nothing. -/
def sortCell (scope : Scope) (column : Text) (entry : Entry) : Cell :=
  ((scope.named? column).map fun reference => (reference.operand entry).cell).getD .null

/-- Two cells in the order of a direction. -/
def InOrder (direction : Direction) (a b : Cell) : Prop :=
  match direction with
  | .ascending => (a.order b).isLE = true
  | .descending => (a.order b).isGE = true

theorem inOrder_of_key_eq {direction : Direction} {a b : Cell} (hkey : a.key = b.key) :
    InOrder direction a b := by
  cases direction with
  | ascending => exact (Cell.order_isLE_iff a b).mpr hkey.le
  | descending => exact (Cell.order_isGE_iff a b).mpr hkey.ge

/-- The rows come in an order. -/
def IsSorted (scope : Scope) (order : SortOrder) (rows : List Entry) : Prop :=
  rows.Pairwise fun a b =>
    InOrder order.direction (sortCell scope order.column a) (sortCell scope order.column b)

theorem isSorted_sortEntries (scope : Scope) (order : SortOrder) (rows : List Entry) :
    IsSorted scope order (sortEntries scope order rows) := by
  obtain ⟨column, direction⟩ := order
  unfold IsSorted sortCell sortEntries
  dsimp only
  cases hnamed : scope.named? column with
  | none => exact List.pairwise_of_forall fun _ _ => inOrder_of_key_eq rfl
  | some reference =>
      cases direction with
      | ascending =>
          refine (Cell.pairwise_mergeSort_isLE (fun entry => (reference.operand entry).cell)
            rows).imp fun hle => ?_
          exact (Cell.order_isLE_iff _ _).mpr hle
      | descending =>
          refine (Cell.pairwise_mergeSort_isGE (fun entry => (reference.operand entry).cell)
            rows).imp fun hle => ?_
          exact (Cell.order_isGE_iff _ _).mpr hle

/-! ### Rows that are alike -/

/-- What is sought in the rows compares equal in all of them. -/
def Alike (sought : Sought) (rows : List Entry) : Prop :=
  ∀ a ∈ rows, ∀ b ∈ rows, (sought.cell a).key = (sought.cell b).key

theorem alike_of_fixes {subject : Subject} {term : Term} {sought : Sought} {rows : List Entry}
    (hkind : term.kind = .equal) (hsought : term.sought? = some sought)
    (hfixes : ∀ entry ∈ rows, term.Fixes subject entry) : Alike sought rows := by
  intro a ha b hb
  obtain ⟨soughtA, constantA, hsoughtA, hconstantA, hkeyA⟩ := hfixes a ha hkind
  obtain ⟨soughtB, constantB, hsoughtB, hconstantB, hkeyB⟩ := hfixes b hb hkind
  cases hsought.symm.trans hsoughtA
  cases hsought.symm.trans hsoughtB
  cases hconstantA.symm.trans hconstantB
  exact hkeyA.trans hkeyB.symm

/-! ### Rows that a visit brings in order -/

theorem pairwise_number_entries (table : Table) :
    (entries table).Pairwise fun a b => a.number < b.number := by
  have hindices : (table.rows.zipIdx.map Prod.snd).Pairwise (· < ·) := by
    rw [List.zipIdx_map_snd]
    exact List.pairwise_lt_range'
  rw [entries, List.pairwise_map]
  exact (List.pairwise_map.mp hindices).imp fun hlt => Nat.succ_lt_succ hlt

theorem selectEntries_sublist (table : Table) (tests? : Option (Formula Test)) :
    (selectEntries table tests?).Sublist (entries table) := by
  cases tests? with
  | none => exact .refl _
  | some tests => exact List.filter_sublist

/-- Rows in the order of what is sought in them. -/
def Ascends (sought : Sought) (rows : List Entry) : Prop :=
  rows.Pairwise fun a b => (sought.cell a).key ≤ (sought.cell b).key

theorem ascends_number {rows : List Entry}
    (hnumbers : rows.Pairwise fun a b => a.number < b.number) : Ascends .number rows := by
  refine hnumbers.imp fun {a b} hlt => (Cell.order_isLE_iff _ _).mp ?_
  have hle : (a.number : Int) ≤ b.number := Int.ofNat_le.mpr hlt.le
  exact Int.isLE_compare.mpr hle

theorem ascends_arrange (place : Nat) (isUnique : Bool) (rows : List Entry) :
    Ascends (.column place) ((Order.byColumn place isUnique).arrange rows) :=
  Cell.pairwise_mergeSort_isLE (Sought.column place).cell rows

theorem arrange_of_alike {place : Nat} (isUnique : Bool) {rows : List Entry}
    (halike : Alike (.column place) rows) : (Order.byColumn place isUnique).arrange rows = rows :=
  Cell.mergeSort_of_key_eq (Sought.column place).cell
    (List.pairwise_of_forall_mem_list halike)

theorem exists_order_of_sortedness {visit : Visit} {terms : List Term} {key? : Option Sought}
    (hsorted : visit.sortedness terms key? ≠ .unsorted) :
    ∃ order sought, visit.walk = .along order ∧ key? = some sought ∧
      (visit.sortedness terms key? = .alike ∧
          (∃ term ∈ terms, term.kind = .equal ∧ term.sought? = some sought) ∨
        visit.sortedness terms key? = .sorted ∧
          (if visit.fixesFirst then (order.columns.map (·.1)).drop 1
            else order.columns.map (·.1)).head? = some sought) := by
  unfold Visit.sortedness at hsorted ⊢
  split at hsorted
  · next _ _ order sought hwalk =>
      refine ⟨order, sought, hwalk, rfl, ?_⟩
      dsimp only at hsorted ⊢
      generalize (if visit.fixesFirst then (order.columns.map (·.1)).drop 1
        else order.columns.map (·.1)).head? = leading? at hsorted ⊢
      split
      · next hequal =>
          obtain ⟨place, hplace⟩ := Option.isSome_iff_exists.mp hequal
          obtain ⟨⟨term, place⟩, hfound, -⟩ := Option.map_eq_some_iff.mp hplace
          have hsought := List.find?_some hfound
          have hmem := List.mem_filter.mp (List.mem_of_find?_eq_some hfound)
          refine .inl ⟨rfl, term, ?_, eq_of_beq hmem.2, eq_of_beq hsought⟩
          exact List.mem_of_getElem?
            (List.mk_mem_zipIdx_iff_getElem?.mp (List.mem_reverse.mp hmem.1))
      · next hequal =>
          rw [if_neg hequal] at hsorted
          split
          · next hleading => exact .inr ⟨rfl, hleading⟩
          · next hleading =>
              rw [if_neg hleading] at hsorted
              exact absurd rfl hsorted
  · exact absurd rfl hsorted

/-- A search that fixes what an order is by finds rows that are alike in it. -/
theorem alike_of_fixesFirst {subject : Subject} {orders : List Order} {terms : List Term}
    {key? : Option Sought} {visit : Visit} {rows : List Entry} {place : Nat} {isUnique : Bool}
    (hvisit : IsVisit orders terms key? visit)
    (hwalk : visit.walk = .along (.byColumn place isUnique))
    (hfirst : visit.fixesFirst = true)
    (hfixes : ∀ entry ∈ rows, ∀ term ∈ terms, term.Fixes subject entry) :
    Alike (.column place) rows := by
  cases hvisit with
  | scan order hmem halong hnot =>
      rw [hfirst] at hnot
      cases hnot
  | search order hmem hsearches =>
      cases hwalk.symm.trans hsearches.walk
      obtain ⟨term, hterm, first, hcolumn, hkind, hsought⟩ := hsearches.fixes hfirst
      cases hcolumn
      exact alike_of_fixes hkind hsought fun entry hentry => hfixes entry hentry term hterm

/-- A visit that says that it is in order brings the rows in order. -/
theorem ascends_of_sortedness {α : Type} {subject : Subject} {orders : List Order}
    {terms : List Term} {key? : Option Sought} {visit : Visit} {rows : List Entry}
    (hvisit : IsVisit orders terms key? visit)
    (hnumbers : rows.Pairwise fun a b => a.number < b.number)
    (hfixes : ∀ entry ∈ rows, ∀ term ∈ terms, term.Fixes subject entry)
    (hsorted : visit.sortedness terms key? = .sorted) (truth : Entry → α → Truth)
    (clause : Formula α) :
    ∃ sought, key? = some sought ∧ Ascends sought (visit.walk.arrange truth clause rows) := by
  have hne : visit.sortedness terms key? ≠ .unsorted := by
    rw [hsorted]
    exact nofun
  obtain ⟨order, sought, hwalk, hkey, ⟨halike, -⟩ | ⟨-, hleading⟩⟩ :=
    exists_order_of_sortedness hne
  · rw [hsorted] at halike
    cases halike
  refine ⟨sought, hkey, ?_⟩
  rw [hwalk, Walk.arrange]
  cases order with
  | byNumber =>
      split at hleading
      · cases hleading
      · cases hleading
        exact ascends_number hnumbers
  | byColumn place isUnique =>
      split at hleading
      · next hfixesFirst =>
          cases hleading
          rw [arrange_of_alike isUnique (alike_of_fixesFirst hvisit hwalk hfixesFirst hfixes)]
          exact ascends_number hnumbers
      · cases hleading
        exact ascends_arrange place isUnique rows

/-! ### Rows of a source in order -/

variable {source : Source} {now : Int} {entry : Entry} {order : SortOrder}

theorem mem_entries_of_selected {clause? : Option Clause}
    (hentry : entry ∈ selectedRows source now clause?) : entry ∈ entries source.table :=
  (selectEntries_sublist _ _).subset hentry

theorem fixes_of_selected (hkept : source.table.IsKept)
    {groups? : Option (List (List Comparison))}
    (hentry : entry ∈ selectedRows source now (groups?.map clauseOf)) :
    ∀ term ∈ (Plan.termsOf (.ofSource source now) (groups?.map clauseOf)).1,
      term.Fixes (.ofSource source now) entry := by
  cases groups? with
  | none => exact fun _ hterm => absurd hterm List.not_mem_nil
  | some groups => exact fixes_termsOf hkept hentry

/-- What a row is sorted by is what the order seeks in it. -/
theorem sortCell_eq (hkept : source.table.IsKept) {sought : Sought}
    (hkey : (Subject.ofSource source now).orderKey? (some order) = some sought)
    (hentry : entry ∈ entries source.table) :
    sortCell (.ofSource source) order.column entry = sought.cell entry := by
  have hkey : ((Scope.ofSource source).named? order.column).bind
      (Subject.ofSource source now).soughtBy? = some sought := hkey
  obtain ⟨reference, hnamed, hseeks⟩ := Option.bind_eq_some_iff.mp hkey
  rw [sortCell, hnamed, Option.map_some, Option.getD_some,
    operand_eq hkept hentry (Source.shows_of_named? hnamed) hseeks]

theorem isSorted_of_alike (hkept : source.table.IsKept) {sought : Sought}
    (hkey : (Subject.ofSource source now).orderKey? (some order) = some sought)
    {rows : List Entry} (hrows : ∀ entry ∈ rows, entry ∈ entries source.table)
    (halike : Alike sought rows) : IsSorted (.ofSource source) order rows := by
  apply List.pairwise_of_forall_mem_list
  intro a ha b hb
  rw [sortCell_eq hkept hkey (hrows a ha), sortCell_eq hkept hkey (hrows b hb)]
  exact inOrder_of_key_eq (halike a ha b hb)

/-- Rows that ascend are in order forwards or backwards. -/
theorem isSorted_of_ascends (hkept : source.table.IsKept) {sought : Sought}
    (hkey : (Subject.ofSource source now).orderKey? (some order) = some sought)
    {rows : List Entry} (hrows : ∀ entry ∈ rows, entry ∈ entries source.table)
    (hascends : Ascends sought rows) :
    IsSorted (.ofSource source) order
      (if order.direction = .descending then rows.reverse else rows) := by
  obtain ⟨column, direction⟩ := order
  cases direction with
  | ascending =>
      rw [if_neg nofun]
      refine List.Pairwise.imp_of_mem (fun {a b} ha hb hle => ?_) hascends
      rw [sortCell_eq hkept hkey (hrows a ha), sortCell_eq hkept hkey (hrows b hb)]
      exact (Cell.order_isLE_iff _ _).mpr hle
  | descending =>
      rw [if_pos rfl]
      refine List.pairwise_reverse.mpr
        (List.Pairwise.imp_of_mem (fun {a b} ha hb hle => ?_) hascends)
      rw [sortCell_eq hkept hkey (hrows a ha), sortCell_eq hkept hkey (hrows b hb)]
      exact (Cell.order_isGE_iff _ _).mpr hle

/-- A plan that is in order takes a visit along an order that says so. -/
theorem exists_visit_of_sortedness {subject : Subject} {indexes : List Index}
    {clause? : Option Clause} {order? : Option SortOrder} {plan : Plan}
    (hplan : Plan.choose subject indexes clause? order? = plan)
    (hsorted : plan.sortedness ≠ .unsorted) :
    ∃ visit, plan.walk = visit.walk ∧
      plan.sortedness =
        visit.sortedness (Plan.termsOf subject clause?).1 (subject.orderKey? order?) ∧
      IsVisit (ordersOf subject.table indexes) (Plan.termsOf subject clause?).1
        (subject.orderKey? order?) visit := by
  obtain rfl | ⟨visit, hvisit, hwalk, hunsorted | hsame⟩ := choose_eq hplan
  · exact absurd rfl hsorted
  · exact absurd hunsorted hsorted
  · refine ⟨visit, hwalk, hsame, ?_⟩
    rw [hsame] at hsorted
    obtain ⟨order, sought, halong, -, -⟩ := exists_order_of_sortedness hsorted
    rcases mem_weighedVisits hvisit with hvisit | hbranches
    · exact isVisit_of_mem_visitsOf hvisit
    · have hmade := (branchesVisit?_eq_some hbranches).1
      cases halong.symm.trans hmade

section Plans

variable {db : Database} {groups? : Option (List (List Comparison))} {order? : Option SortOrder}
variable {plan : Plan}

/-- The rows of a plan that says that they are alike are alike. -/
theorem alike_of_plan (hkept : source.table.IsKept)
    (hplan : Plan.choose (.ofSource source now) (db.indexesOf source.table.name)
      (groups?.map clauseOf) order? = plan)
    (hsorted : plan.sortedness = .alike) :
    ∃ sought, (Subject.ofSource source now).orderKey? order? = some sought ∧
      Alike sought (selectedRows source now (groups?.map clauseOf)) := by
  obtain ⟨visit, -, hsame, -⟩ :=
    exists_visit_of_sortedness hplan (by rw [hsorted]; exact nofun)
  rw [hsorted] at hsame
  obtain ⟨-, sought, -, hkey, ⟨-, term, hterm, hkind, hsought⟩ | ⟨hnot, -⟩⟩ :=
    exists_order_of_sortedness (by rw [← hsame]; exact nofun)
  · have hfixes := fun entry (hentry : entry ∈ selectedRows source now (groups?.map clauseOf)) =>
      fixes_of_selected hkept hentry term hterm
    exact ⟨sought, hkey, alike_of_fixes hkind hsought hfixes⟩
  · rw [← hsame] at hnot
    cases hnot

/-- A plan that says that it brings the rows in order does so. -/
theorem ascends_of_plan (hkept : source.table.IsKept)
    (hplan : Plan.choose (.ofSource source now) (db.indexesOf source.table.name)
      (groups?.map clauseOf) order? = plan)
    (hsorted : plan.sortedness = .sorted) {α : Type} (truth : Entry → α → Truth)
    (clause : Formula α) :
    ∃ sought, (Subject.ofSource source now).orderKey? order? = some sought ∧
      Ascends sought
        (plan.walk.arrange truth clause (selectedRows source now (groups?.map clauseOf))) := by
  obtain ⟨visit, hwalk, hsame, hvisit⟩ :=
    exists_visit_of_sortedness hplan (by rw [hsorted]; exact nofun)
  rw [hwalk]
  apply ascends_of_sortedness hvisit
  · exact (pairwise_number_entries source.table).sublist (selectEntries_sublist _ _)
  · exact fun entry hentry => fixes_of_selected hkept hentry
  · rw [← hsame, hsorted]

end Plans

/-- Rows of which a clause is true come in the order that is asked for. -/
theorem isSorted_arrangedRows (hkept : source.table.IsKept) (db : Database)
    (groups? : Option (List (List Comparison))) (order : SortOrder) :
    IsSorted (.ofSource source) order
      (arrangedRows db source now (groups?.map clauseOf) (some order)) := by
  have hperm := arrangedRows_perm db source now (groups?.map clauseOf) (some order)
  have hmem : ∀ entry ∈ arrangedRows db source now (groups?.map clauseOf) (some order),
      entry ∈ entries source.table :=
    fun entry hentry => mem_entries_of_selected (hperm.subset hentry)
  unfold arrangedRows at hmem hperm ⊢
  dsimp only at hmem hperm ⊢
  generalize hplan : Plan.choose (Subject.ofSource source now)
    (db.indexesOf source.table.name) (groups?.map clauseOf) (some order) = plan at hmem hperm ⊢
  unfold Plan.arrange at hmem hperm ⊢
  dsimp only at hmem hperm ⊢
  -- Only unsorted rows are sorted; the others are in order by what the plan says of them.
  cases hsorted : plan.sortedness with
  | unsorted => exact isSorted_sortEntries _ _ _
  | alike =>
      rw [hsorted] at hmem hperm
      obtain ⟨sought, hkey, halike⟩ := alike_of_plan hkept hplan hsorted
      apply isSorted_of_alike hkept hkey hmem
      exact fun a ha b hb => halike a (hperm.subset ha) b (hperm.subset hb)
  | sorted =>
      rw [hsorted] at hmem
      obtain ⟨sought, hkey, hascends⟩ := ascends_of_plan hkept hplan hsorted
        (fun entry : Entry => (·.truth entry))
        (((groups?.map clauseOf).map (testsOf source now)).getD [])
      refine isSorted_of_ascends hkept hkey (fun entry hentry => hmem entry ?_) hascends
      dsimp only
      split
      · exact List.mem_reverse.mpr hentry
      · exact hentry

end TableBrowser.Database
