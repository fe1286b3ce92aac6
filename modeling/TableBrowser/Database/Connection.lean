import TableBrowser.Database.Cell
import TableBrowser.Filter.Operand
import TableBrowser.Sql.Statement

/-!
# Connections

A connection runs the text of a statement at a moment and answers it, or tells why not.
Nothing else is known of the database behind it.  A query is made of such statements: a page
is counted first and selected second, so that a fault of the clause is reported against the
counting statement, and each statement runs at a moment of its own.

All queries share one connection.  One that is not done in its time is given up, whatever it
would have been answered.
-/

namespace TableBrowser

open TableBrowser.Sql
open TableBrowser.Paging
open TableBrowser.Database (Row integerBound)

structure Connection where
  /-- The whole number that is the answer to a statement, with texts for its parameters. -/
  number : (moment : Int) → (statement : Text) → (parameters : List Text) → Except Text Int
  /-- The texts that a statement lists. -/
  texts : (moment : Int) → (statement : Text) → Except Text (List Text)
  /-- The names and types of columns that a statement lists. -/
  columns : (moment : Int) → (statement : Text) → Except Text (List Column)
  /-- The names of the columns and the rows that a statement lists within a limit and from an
  offset on. -/
  rows : (moment : Int) → (statement : Text) → (limit offset : Nat) →
    Except Text (List Text × List Row)

/-- The moments at which the statements of a query run, in their order. -/
abbrev Clock := Nat → Int

/-- All statements run at one moment. -/
def atOnce (moment : Int) : Clock :=
  fun _ => moment

/-- Why a query has no result. -/
inductive QueryFault
  | abandoned
  | noSuchTable (name : Text)
  | refused (message : Text)
  deriving DecidableEq

namespace QueryFault

def message : QueryFault → Text
  | .abandoned => "query abandoned before it started"
  | .noSuchTable name => "no such table: " ++ name
  | .refused message => message

def toFailure (fault : QueryFault) : FetchFailure :=
  .query fault.message

end QueryFault

structure TableSummary where
  name : Text
  rowCount : Nat
  deriving DecidableEq

namespace Connection

/-! ## Statements about tables -/

def relationCountText : Text :=
  "SELECT COUNT(*) FROM sqlite_master WHERE type IN ('table', 'view') AND name = ?1"

def tableNamesText : Text :=
  "SELECT name FROM sqlite_master WHERE type = 'table' AND name NOT LIKE 'sqlite_%' ORDER BY name"

def tableInfoText (table : Text) : Text :=
  "PRAGMA table_info(" ++ quotedName table ++ ")"

/-! ## Queries -/

variable (connection : Connection)

def hasTable (moment : Int) (table : Text) : Except QueryFault Bool := do
  let count ← (connection.number moment relationCountText [table]).mapError .refused
  return 0 < count

def ensureTable (moment : Int) (table : Text) : Except QueryFault Unit := do
  if !(← connection.hasTable moment table) then throw (.noSuchTable table)

def countRows (moment : Int) (table : Text) (clause? : Option Text) : Except QueryFault Nat := do
  let count ← (connection.number moment (countText table clause?) []).mapError .refused
  return count.toNat

/-- The largest offset that a statement can be given. -/
def maxOffset : Nat := integerBound - 1

def page (clock : Clock) (table : Text) (request : PageRequest) : Except QueryFault Page := do
  connection.ensureTable (clock 0) table
  let total ← connection.countRows (clock 1) table request.clause?
  let text := pageText table request.clause? request.orderBy? request.direction?
  let (columns, rows) ←
    (connection.rows (clock 2) text request.limit (min request.offset maxOffset)).mapError .refused
  return {
    columns := columns
    rows := rows.map (·.map (·.toJson))
    total := total
    hasMore := request.offset + rows.length < total }

def tableColumns (clock : Clock) (table : Text) : Except QueryFault (List Column) := do
  connection.ensureTable (clock 0) table
  (connection.columns (clock 1) (tableInfoText table)).mapError .refused

/-- The users' tables in order of their names, with their numbers of rows. -/
def tables (clock : Clock) : Except QueryFault (List TableSummary) := do
  let names ← (connection.texts (clock 0) tableNamesText).mapError .refused
  names.zipIdx.mapM fun (name, index) => do
    return ⟨name, ← connection.countRows (clock (index + 1)) name none⟩

end Connection

/-! ## The shared connection -/

/-- How a query ends for the one who waits for it. -/
inductive Ending
  | done
  | late
  /-- The task that ran the query broke off. -/
  | lost (reason : Text)
  deriving DecidableEq

/-- One query on the shared connection. -/
structure Passage where
  clock : Clock
  ending : Ending

/-- What is given out for the result of a query; without a limit nothing is late. -/
def Passage.deliver {α : Type} (passage : Passage) (timeoutSeconds? : Option Nat)
    (result : Except QueryFault α) : Except FetchFailure α :=
  match passage.ending, timeoutSeconds? with
  | .lost reason, _ => .error (.transport ("query task failed: " ++ reason))
  | .late, some seconds => .error (.timeout seconds)
  | .late, none | .done, _ => result.mapError (·.toFailure)

/-- A source of tables and of their pages.  Every question is answered or fails. -/
structure DataSource where
  hasTable : Text → Except FetchFailure Bool
  columns : Text → Except FetchFailure (List Column)
  page : Text → PageRequest → Except FetchFailure Page
  tables : (timeoutSeconds? : Option Nat) → Except FetchFailure (List TableSummary)

/-- The source behind a connection, for queries that go this way. -/
def Connection.source (connection : Connection) (passage : Passage) : DataSource where
  hasTable table := passage.deliver none (connection.hasTable (passage.clock 0) table)
  columns table := passage.deliver none (connection.tableColumns passage.clock table)
  page table request :=
    passage.deliver request.timeoutSeconds? (connection.page passage.clock table request)
  tables timeoutSeconds? :=
    passage.deliver timeoutSeconds? (connection.tables passage.clock)

end TableBrowser
