import TableBrowser.Database.Check
import TableBrowser.Database.Connection
import TableBrowser.Database.Plan

/-!
# Databases in memory

A database in memory answers the statements of a connection: those over one table or view,
and those about its tables.
-/

namespace TableBrowser

open TableBrowser.Sql
open TableBrowser.Paging

namespace Database

structure Limits where
  limit : Nat
  offset : Nat

/-- What a statement gives: a number of rows, or rows with their column names. -/
inductive Answer
  | count (rows : Nat)
  | rows (columns : List Text) (rows : List Row)

/-- The rows of a table with their numbers, which begin at one and leave none out. -/
def entries (table : Table) : List Entry :=
  table.rows.zipIdx.map fun (cells, index) => ⟨index + 1, cells⟩

/-- The rows of a table of which a clause is true; without a clause these are all. -/
def selectEntries (table : Table) (tests? : Option (Formula Test)) : List Entry :=
  match tests? with
  | none => entries table
  | some tests =>
    (entries table).filter fun entry => formulaTruth (·.truth entry) tests == some true

/-- The refusal of a clause, for what its words mean or for a pattern that is compared with
a row of the table. -/
def refusal? (source : Source) (now : Int) (clause : Clause) : Option Refusal :=
  let scope := Scope.ofSource source
  let tests := formulaMap (Test.ofComparison now scope) clause
  let fails (entry : Entry) : Bool := formulaFails (·.truth entry) (·.isTooLong) tests
  (clauseRefusal? now scope clause).or
    (if (entries source.table).any fails then some ⟨.patternTooLong, none⟩ else none)

def answer (db : Database) (now : Int) (limits : Limits) (statement : Statement) :
    Except Refusal Answer := do
  let source ← (db.source statement.table).mapError (⟨·, none⟩)
  let scope := Scope.ofSource source
  let clause? := statement.clause?
  if let some refusal := clause?.bind (refusal? source now) then throw refusal
  let tests? := clause?.map (formulaMap (Test.ofComparison now scope))
  let rows := selectEntries source.table tests?
  if statement.counts then return .count rows.length
  let plan := Plan.choose ⟨source.table, scope, now⟩ (db.indexesOf source.table.name) clause?
    statement.order?
  let arranged :=
    plan.arrange scope (fun entry => (·.truth entry)) (tests?.getD []) statement.order? rows
  let shown :=
    if statement.paged then (arranged.drop limits.offset).take limits.limit else arranged
  return .rows (source.columns.map (·.name)) (shown.map (·.cells))

def run (db : Database) (now : Int) (limits : Limits) (text : Text) : Except Refusal Answer :=
  readStatement text >>= db.answer now limits

/-! ## Statements about tables -/

/-- Whether a table belongs to the users and not to the database itself. -/
def isUserTable (name : Text) : Bool :=
  !matchesPattern (codesOfText "sqlite_%") (codesOfText name)

def tableNames (db : Database) : List Text :=
  let names := db.relations.filterMap fun
    | .table stored => if isUserTable stored.name then some stored.name else none
    | .view .. => none
  names.mergeSort fun a b => (Cell.orderTexts a b).isLE

/-- The table that a statement asks the columns of. -/
def describedTable? (text : Text) : Option Text :=
  match (lexemes text).map Located.value with
  | [first, second, .symbol ['('], .name table, .symbol [')']] =>
    if isKeyword "PRAGMA" first && isKeyword "table_info" second then some table else none
  | _ => none

def mismatch : Text := "datatype mismatch"

def connection (db : Database) : Connection where
  number moment text parameters :=
    if text = Connection.relationCountText then
      .ok (db.relations.countP fun relation => relation.name ∈ parameters.head?)
    else
      match db.run moment ⟨0, 0⟩ text with
      | .ok (.count rows) => .ok rows
      | .ok (.rows ..) => .error mismatch
      | .error refusal => .error (refusal.messageIn text)
  texts _ text :=
    if text = Connection.tableNamesText then .ok db.tableNames else .error mismatch
  columns _ text :=
    match describedTable? text with
    | some table =>
      match db.source table with
      | .ok source => .ok source.columns
      | .error reason => .error reason.message
    | none => .error mismatch
  rows moment text limit offset :=
    match db.run moment ⟨limit, offset⟩ text with
    | .ok (.rows columns rows) => .ok (columns, rows)
    | .ok (.count rows) => .ok (["COUNT(*)"], [[.integer rows]])
    | .error refusal => .error (refusal.messageIn text)

end Database

end TableBrowser
