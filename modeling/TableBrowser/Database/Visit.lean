import TableBrowser.Database.Term

/-!
# Visits

The rows of a table are visited in the order of their numbers or of an index, all of
them or those that a search finds, or one branch of an OR after the other.  Each way
has an estimate of its cost and of the rows it finds.
-/

namespace TableBrowser.Database

open TableBrowser.Sql

/-! ## Widths -/

/-- The number that a row of digits in a type gives as the width of its text. -/
def givenWidth (t : Text) : Nat :=
  let digits := (t.dropWhile (!Text.isDigit ·)).takeWhile Text.isDigit
  ((Text.toNat? digits).filter (· < UInt32.size / 2)).getD 0

/-- The part of a text behind the last occurrence of another. -/
def behindLast? (part : Text) : Text → Option Text
  | [] => none
  | c :: rest =>
    (behindLast? part rest).or
      (if part.isPrefixOf (c :: rest) then some ((c :: rest).drop part.length) else none)

/-- The estimated width of a column in units of four bytes. -/
def columnWidth (type : Text) : Nat :=
  let lowered := Text.lower type
  let affinity := Affinity.ofType type
  let width :=
    if type.isEmpty || (affinity != .text && affinity != .none) then 0
    else
      match affinity, behindLast? "char" lowered, behindLast? "blob" lowered with
      | .text, some behind, _ => givenWidth behind
      | .none, _, some ('(' :: behind) => givenWidth behind
      | _, _, _ => 16
  min (width / 4 + 1) 255

/-! ## Orders -/

inductive Order
  | byNumber
  /-- The order of an index: by a column, and by number where that is the same. -/
  | byColumn (place : Nat) (isUnique : Bool)
  deriving DecidableEq

namespace Order

/-- What the order is by, and the rows that are left once each is equal to a constant. -/
def columns : Order → List (Sought × Estimate)
  | .byNumber => [(.number, 0)]
  | .byColumn place isUnique => [(.column place, if isUnique then 0 else 33), (.number, 0)]

def isByNumber (order : Order) : Bool :=
  order == .byNumber

/-- Whether an index by itself tells what a term refers to. -/
def covers (order : Order) (term : Term) : Bool :=
  term.refersTo.all (· ∈ order.columns.map (·.1))

end Order

def ordersOf (table : Table) (indexes : List Index) : List Order :=
  .byNumber :: indexes.filterMap fun index =>
    (table.columns.findIdx? (Text.sameLetters ·.name index.column)).map fun place =>
      .byColumn place index.isUnique

def stepCost (subject : Subject) : Order → Estimate
  | .byNumber => rowCost
  | .byColumn place _ =>
    let widths := subject.table.columns.map fun column => columnWidth column.type
    let tableWidth := widths.foldl (· + ·) (if subject.table.numbered?.isNone then 1 else 0)
    let indexWidth := (widths[place]?).getD 0 + 1
    1 + Int.tdiv (15 * Estimate.ofNat (4 * indexWidth)) (Estimate.ofNat (4 * tableWidth))

/-! ## Ways of visiting rows -/

inductive Walk
  | along (order : Order)
  | branches (orders : List Order)
  deriving DecidableEq

structure Visit where
  walk : Walk
  /-- The order for the sake of which the visit is of use although it may cost more. -/
  servesBy? : Option Order
  /-- Whether a search cuts the rows down. -/
  isSearch : Bool
  /-- Whether the search is for equality or for one of several values. -/
  findsEqual : Bool
  /-- Whether what the order is by in the first place is equal to a constant. -/
  fixesFirst : Bool
  cost : Estimate
  rows : Estimate

/-- How many terms are tested at each row, and how many of them are equalities: with a
number next to zero, and with another constant. -/
structure Tally where
  tested : Nat
  smallEqual : Nat
  otherEqual : Nat

namespace Tally

def none : Tally := ⟨0, 0, 0⟩

/-- The tally of one term; derived terms are not tested. -/
def ofTerm (term : Term) : Tally :=
  if term.isOpen && !term.isDerived then
    if term.kind != .equal then ⟨1, 0, 0⟩
    else if term.hasSmallConstant then ⟨1, 1, 0⟩
    else ⟨1, 0, 1⟩
  else none

def add (a b : Tally) : Tally :=
  ⟨a.tested + b.tested, a.smallEqual + b.smallEqual, a.otherEqual + b.otherEqual⟩

def sub (a b : Tally) : Tally :=
  ⟨a.tested - b.tested, a.smallEqual - b.smallEqual, a.otherEqual - b.otherEqual⟩

def ofTerms (terms : List Term) : Tally :=
  terms.foldl (fun tally term => tally.add (ofTerm term)) none

/-- The rows that are left of some when the terms are tested. -/
def left (tally : Tally) (rows : Estimate) : Estimate :=
  let cut := if 0 < tally.otherEqual then 20 else if 0 < tally.smallEqual then 10 else 0
  min (rows - tally.tested) (tableRows - cut)

end Tally

/-- An order that is searched, with the terms that are tested at the rows and further
ones that hold of them. -/
structure Field where
  order : Order
  stepCost : Estimate
  terms : List Term
  around : List Term

/-- The state of a search: the terms that are not in use, and the estimates of the rows
that one combination of values finds and of the number of combinations. -/
structure Search where
  untested : Tally
  rows : Estimate
  combinations : Estimate
  isNew : Bool
  findsEqual : Bool
  fixesFirst : Bool

namespace Search

def start (field : Field) : Search :=
  ⟨.ofTerms field.terms, tableRows, 0, true, false, false⟩

/-- Takes a term into use, which then need not be tested.  A term that makes another
superfluous settles that one. -/
def use (search : Search) (field : Field) (term : Term) (place : Nat) : Search :=
  let settled? :=
    match term.origin? with
    | some origin => field.terms[origin]?
    | none => if place < field.terms.length then some term else none
  { search with
    untested := search.untested.sub ((settled?.map Tally.ofTerm).getD .none), isNew := false }

def visit (search : Search) (field : Field) : Visit :=
  let walked := Estimate.add seekCost (search.rows + field.stepCost)
  let looked :=
    if field.order.isByNumber then walked else walked.add (search.rows + rowCost)
  { walk := .along field.order
    servesBy? := none
    isSearch := true
    findsEqual := search.findsEqual
    fixesFirst := search.fixesFirst
    cost := looked + search.combinations
    rows := search.untested.left (search.rows + search.combinations) }

end Search

def rangeRows (rows : Estimate) (bounds : Nat) : Estimate :=
  min (rows - bounds) (max 10 (rows - 20 * bounds - (if bounds = 2 then 20 else 0)))

/-- All searches that go on from a state, along what is left of an order. -/
def searchesFrom (field : Field) : List (Sought × Estimate) → Search → List Visit
  | [], _ => []
  | (sought, left) :: rest, search =>
    let usable := (field.terms ++ field.around).zipIdx.filter fun (term, _) =>
      term.sought? == some sought && (sought == .number || !term.ignoresCase)
    let ceilings := usable.filter fun (term, _) => term.kind == .below && !term.isPaired
    let range (bounds : Nat) (used : Search) : Visit :=
      Search.visit { used with rows := rangeRows search.rows bounds } field
    usable.flatMap fun (term, place) =>
      let used := search.use field term place
      match term.kind with
      | .equal =>
        let next : Search :=
          { used with
            rows := left, findsEqual := true, fixesFirst := search.fixesFirst || search.isNew }
        next.visit field :: searchesFrom field rest next
      | .among count =>
        let next : Search :=
          { used with
            rows := left, findsEqual := true,
            combinations := search.combinations + .ofNat count }
        next.visit field :: searchesFrom field rest next
      | .above =>
        if term.isPaired then [range 2 used]
        else
          range 1 used :: ceilings.map fun (ceiling, above) =>
            range 2 (used.use field ceiling above)
      | .below => if term.isPaired then [] else [range 1 used]
      | .other => []

def searches (subject : Subject) (terms around : List Term) (order : Order) : List Visit :=
  let field : Field := ⟨order, stepCost subject order, terms, around⟩
  searchesFrom field order.columns (.start field)

def scan (subject : Subject) (terms : List Term) (order : Order) : Visit :=
  let cost :=
    match order with
    | .byNumber => tableRows + rowCost
    | .byColumn .. =>
      let told := terms.takeWhile order.covers
      let lookedUp := told.foldl (fun rows term =>
        rows - (if term.kind == .equal then 20 else 1)) (tableRows + rowCost)
      Estimate.add (tableRows + stepCost subject order) lookedUp
  ⟨.along order, none, false, false, false, cost, (Tally.ofTerms terms).left tableRows⟩

namespace Visit

/-- Whether another visit is of no use beside this one. -/
def supersedes (a b : Visit) : Bool :=
  a.servesBy? == b.servesBy? && a.cost ≤ b.cost && a.rows ≤ b.rows

/-- Drops visits that a visit supersedes, up to one that supersedes it. -/
def dropSuperseded (visit : Visit) : List Visit → List Visit
  | [] => []
  | other :: rest =>
    if other.supersedes visit then other :: rest
    else if visit.supersedes other then visit.dropSuperseded rest
    else other :: visit.dropSuperseded rest

/-- Puts a visit in the place of the first that it supersedes, or else at the end; there
is no place for it if one that supersedes it comes first. -/
def place? (visit : Visit) : List Visit → Option (List Visit)
  | [] => some [visit]
  | other :: rest =>
    if other.supersedes visit then none
    else if visit.supersedes other then some (visit :: visit.dropSuperseded rest)
    else (visit.place? rest).map (other :: ·)

def useful (visits : List Visit) : List Visit :=
  visits.foldl (fun kept visit => (visit.place? kept).getD kept) []

end Visit

/-- The cost and the rows of a branch of an OR: those of the cheapest search. -/
def branchEstimate? (visits : List Visit) : Option (Estimate × Estimate) :=
  visits.foldl (fun best? visit =>
    match best? with
    | some (cost, rows) =>
      if visit.cost ≤ cost then some (visit.cost, min rows visit.rows) else some (cost, rows)
    | none => some (visit.cost, visit.rows)) none

end TableBrowser.Database
