import TableBrowser.Database.Visit
import TableBrowser.Paging.Request

/-!
# Plans

A statement takes the visit that is estimated to cost the least, the cost of sorting
included where the visit does not bring the rows in the order that is asked for.  The
rows then come in the order of the visit: backwards if that is how the visit is in
order, and sorted if it is not in order at all.  Sorting keeps the places of rows that
compare equal.
-/

namespace TableBrowser.Database

open TableBrowser.Sql
open TableBrowser.Paging

/-- How a visit brings rows in the order of something. -/
inductive Sortedness
  | unsorted
  | sorted
  /-- In order only because all rows are alike. -/
  | alike
  deriving DecidableEq

structure Plan where
  walk : Walk
  sortedness : Sortedness

structure Weighed where
  visit : Visit
  sortedness : Sortedness
  cost : Estimate

namespace Weighed

/-- A visit without regard to the order of the rows. -/
def ofVisit (visit : Visit) : Weighed :=
  ⟨visit, .unsorted, visit.cost⟩

/-- What weighed visits are compared by: the cost, the rows, and the cost without that of
sorting, on which visits that are in order have a small advantage. -/
def key (weighed : Weighed) : List Estimate :=
  [weighed.cost, weighed.visit.rows,
    weighed.visit.cost - (if weighed.sortedness = .unsorted then 0 else 2)]

def isBetter (a b : Weighed) : Bool :=
  compareOfLessAndEq a.key b.key == .lt

def best? (all : List Weighed) : Option Weighed :=
  all.foldl (fun best? weighed =>
    match best? with
    | some best => if weighed.isBetter best then some weighed else some best
    | none => some weighed) none

end Weighed

/-- How a visit brings the rows in the order of something, under the terms of the
clause. -/
def Visit.sortedness (visit : Visit) (terms : List Term) (key? : Option Sought) : Sortedness :=
  match visit.walk, key? with
  | .along order, some sought =>
    let columns := order.columns.map (·.1)
    let leading? := (if visit.fixesFirst then columns.drop 1 else columns).head?
    if (lastEqual? (equalTerms terms) sought).isSome then .alike
    else if leading? = some sought then .sorted
    else .unsorted
  | _, _ => .unsorted

/-- All ways of visiting the rows of which terms are true; a scan of an index is among
them if it may bring the rows in order. -/
def visitsOf (subject : Subject) (orders : List Order) (terms : List Term)
    (key? : Option Sought) : List Visit :=
  orders.flatMap fun order =>
    let helps := key? == some .number || key? == order.columns.head?.map (·.1)
    let visits := (if order.isByNumber || helps then [scan subject terms order] else []) ++
      searches subject terms [] order
    visits.map fun visit => { visit with servesBy? := if helps then some order else none }

def bestVisit? (visits : List Visit) : Option Visit :=
  (Weighed.best? (visits.map Weighed.ofVisit)).map (·.visit)

/-- The order in which a branch of an OR visits its rows. -/
def branchOrder (subject : Subject) (orders : List Order) (branch : List Term) : Order :=
  match bestVisit? (Visit.useful (visitsOf subject orders branch none)) with
  | some visit =>
    match visit.walk with
    | .along order => order
    | .branches _ => .byNumber
  | none => .byNumber

def branchesVisit? (subject : Subject) (orders : List Order) (terms : List Term)
    (branches : List (List Term)) : Option Visit := do
  let estimates ← branches.mapM fun branch =>
    branchEstimate? (orders.flatMap fun order => searches subject branch terms order)
  match estimates with
  | [] => none
  | (cost, rows) :: rest =>
    return {
      walk := .branches (branches.map (branchOrder subject orders))
      servesBy? := none
      isSearch := false
      findsEqual := false
      fixesFirst := false
      cost := rest.foldl (fun sum estimate => Estimate.add sum estimate.1) cost + 1
      rows := rest.foldl (fun sum estimate => Estimate.add sum estimate.2) rows }

def Weighed.ofSortedness (visit : Visit) (sortedness : Sortedness) (rows : Estimate)
    (columns : Nat) : Weighed :=
  ⟨visit, sortedness,
    if sortedness = .unsorted then Estimate.add visit.cost (sortCost rows columns) + 3
    else visit.cost⟩

namespace Plan

/-- The terms of a clause, and those of the branches of its OR. -/
def termsOf (subject : Subject) : Option Clause → List Term × List (List Term)
  | none => ([], [])
  | some [group] => (closeFixed subject (groupTerms subject group), [])
  | some groups =>
    let branches := groups.map (groupTerms subject)
    (orTerms branches, branches)

def choose (subject : Subject) (indexes : List Index) (clause? : Option Clause)
    (order? : Option SortOrder) : Plan :=
  let orders := ordersOf subject.table indexes
  let (terms, branches) := termsOf subject clause?
  let key? := order?.bind fun order =>
    (subject.scope.named? order.column).bind subject.soughtBy?
  let visits := Visit.useful (visitsOf subject orders terms key? ++
    (branchesVisit? subject orders terms branches).toList)
  match bestVisit? visits, order? with
  | none, _ => ⟨.along .byNumber, .unsorted⟩
  | some best, none => ⟨best.walk, .unsorted⟩
  | some best, some _ =>
    let rest := if best.findsEqual then visits.filter (·.isSearch) else visits
    let weighed := rest.map fun visit =>
      Weighed.ofSortedness visit (visit.sortedness terms key?) (max 1 (best.rows + 1))
        subject.table.columns.length
    match Weighed.best? weighed with
    | some chosen => ⟨chosen.visit.walk, chosen.sortedness⟩
    | none => ⟨best.walk, best.sortedness terms key?⟩

end Plan

/-! ## Rows in order -/

def Order.arrange (entries : List Entry) : Order → List Entry
  | .byNumber => entries
  | .byColumn place _ =>
    let cell (entry : Entry) : Cell := (entry.cells[place]?).getD .null
    entries.mergeSort fun a b => ((cell a).order (cell b)).isLE

/-- Rows of branches one after the other, each with those of its rows that come in no
branch before. -/
def arrangeBranches {α : Type} (isIn : α → Entry → Bool) :
    List (α × Order) → List Entry → List Entry
  | [], _ => []
  | (branch, order) :: rest, entries =>
    order.arrange (entries.filter (isIn branch)) ++
      arrangeBranches isIn rest (entries.filter (!isIn branch ·))

def Walk.arrange {α : Type} (truth : Entry → α → Truth) (clause : Formula α)
    (entries : List Entry) : Walk → List Entry
  | .along order => order.arrange entries
  | .branches orders =>
    let isIn (group : List (Factor α)) (entry : Entry) : Bool :=
      groupTruth (truth entry) group == some true
    arrangeBranches isIn (clause.zip orders) entries

/-- Rows sorted by what an order names; a name of nothing leaves them as they are. -/
def sortEntries (scope : Scope) (order : SortOrder) (entries : List Entry) : List Entry :=
  match scope.named? order.column with
  | none => entries
  | some reference =>
    let compare (a b : Entry) : Ordering :=
      (reference.operand a).cell.order (reference.operand b).cell
    match order.direction with
    | .ascending => entries.mergeSort fun a b => (compare a b).isLE
    | .descending => entries.mergeSort fun a b => (compare a b).isGE

/-- Rows of which a clause is true, in the order in which a plan brings them. -/
def Plan.arrange {α : Type} (plan : Plan) (scope : Scope) (truth : Entry → α → Truth)
    (clause : Formula α) (order? : Option SortOrder) (entries : List Entry) : List Entry :=
  let walked := plan.walk.arrange truth clause entries
  match order?, plan.sortedness with
  | none, _ | some _, .alike => walked
  | some order, .sorted => if order.direction = .descending then walked.reverse else walked
  | some order, .unsorted => sortEntries scope order walked

end TableBrowser.Database
