import TableBrowser.Database.Word
import TableBrowser.Filter.Operand
import TableBrowser.Sql.Lexeme

/-!
# Databases

A database holds tables, views of whole tables and indexes of columns.  Names
are told apart without regard to ASCII letter case when something is created or a
statement refers to it.  A view may be made before what it shows, and is looked through
only when it is used.

No row is ever deleted, so the rows of a table are numbered by their places, and no column
asks for an order of text other than that of its characters.
-/

namespace TableBrowser.Database

structure Table where
  name : Text
  columns : List Column
  rows : List Row
  /-- The column that numbers the rows by itself, if there is one. -/
  numbered? : Option Text

inductive Relation
  | table (table : Table)
  | view (name base : Text)

namespace Relation

def name : Relation → Text
  | .table stored => stored.name
  | .view name _ => name

end Relation

/-- The rows of a table in the order of one of its columns. -/
structure Index where
  name : Text
  table : Text
  column : Text
  /-- Whether no two rows may have the same cell in the column. -/
  isUnique : Bool

/-- A name without a number behind a colon at its end. -/
def withoutNumber (name : Text) : Text :=
  match name.reverse.dropWhile Text.isDigit with
  | ':' :: base => base.reverse
  | _ => name

/-- A name that is not taken: the name itself, or else with the first number that makes
it differ.  Each attempt takes one unit of fuel. -/
def freeName (taken : List Text) : (fuel number : Nat) → Text → Text
  | 0, _, name => name
  | fuel + 1, number, name =>
    if taken.any (Text.sameLetters name) then
      freeName taken fuel (number + 1) (withoutNumber name ++ ":" ++ Text.ofNat number)
    else name

/-- The columns as a view shows them: truth values are no names, all names differ, and
each column has a type. -/
def viewedColumns (taken : List Text) : (place : Nat) → List Column → List Column
  | _, [] => []
  | place, column :: rest =>
    let given := if (truthWord? column.name).isSome then "column" ++ Text.ofNat place
      else column.name
    let name := freeName taken (taken.length + 1) 1 given
    let type : Text := if column.type.isEmpty then "BLOB" else column.type
    ⟨name, type⟩ :: viewedColumns (name :: taken) (place + 1) rest

/-- The table whose rows a relation shows. -/
structure Source where
  table : Table
  /-- Whether the rows are shown by a view, which hides their numbers. -/
  isViewed : Bool

def Source.columns (source : Source) : List Column :=
  if source.isViewed then viewedColumns [] 1 source.table.columns else source.table.columns

end Database

structure Database where
  relations : List Database.Relation
  indexes : List Database.Index

namespace Database

def empty : Database := ⟨[], []⟩

def relation? (db : Database) (name : Text) : Option Relation :=
  db.relations.find? (Text.sameLetters ·.name name)

/-- Looks for the table behind a name through views, of which some have been passed.
Each view takes one unit of fuel. -/
def sourceBehind (db : Database) : Nat → (passed : List Text) → Text → Except Reason Source
  | 0, _, name => .error (.circularView name)
  | fuel + 1, passed, name =>
    match db.relation? name with
    | some (.table stored) => .ok ⟨stored, !passed.isEmpty⟩
    | some (.view declared base) =>
      if declared ∈ passed then .error (.circularView declared)
      else db.sourceBehind fuel (declared :: passed) base
    | none => .error (.noSuchTable (if passed.isEmpty then name else "main." ++ name))

def source (db : Database) (name : Text) : Except Reason Source :=
  db.sourceBehind (db.relations.length + 1) [] name

def hasRelation (db : Database) (name : Text) : Bool :=
  db.relations.any (·.name == name)

def hasTable (db : Database) (name : Text) : Bool :=
  db.relations.any fun
    | .table stored => stored.name == name
    | .view .. => false

/-- The indexes of a table, the newest first. -/
def indexesOf (db : Database) (table : Text) : List Index :=
  (db.indexes.filter (Text.sameLetters ·.table table)).reverse

/-- Whether there is an index of this name, without regard to letter case. -/
def hasIndex (db : Database) (name : Text) : Bool :=
  db.indexes.any (Text.sameLetters ·.name name)

namespace Table

def isNamed (table : Table) (column : Text) : Bool :=
  table.columns.any (Text.sameLetters ·.name column)

def given? (names : List Text) (cells : Row) (column : Column) : Option Cell :=
  ((names.zip cells).find? fun entry => Text.sameLetters entry.1 column.name).map (·.2)

/-- The row with the given cells in the named columns, as the table keeps it. -/
def storedRow (table : Table) (names : List Text) (number : Nat) (cells : Row) : Row :=
  table.columns.map fun column =>
    match given? names cells column with
    | some cell => (Affinity.ofType column.type).store cell
    | none =>
      if table.numbered? = some column.name then .integer number else .null

/-- Appends rows that give cells for some of the columns. -/
def insert (table : Table) (names : List Text) (rows : List Row) : Table :=
  let count := table.rows.length
  let stored := rows.zipIdx.map fun (cells, index) =>
    table.storedRow names (count + index + 1) cells
  { table with rows := table.rows ++ stored }

/-- Declared types that are kept in upper case. -/
def standardTypes : List String :=
  ["ANY", "BLOB", "INT", "INTEGER", "REAL", "TEXT"]

def keptType (type : Text) : Text :=
  let trimmed := ((type.dropWhile Sql.isSqlSpace).reverse.dropWhile Sql.isSqlSpace).reverse
  match standardTypes.find? fun standard => Text.sameLetters trimmed standard.toList with
  | some standard => standard
  | none => trimmed

/-- A table of rows that give a cell for every column. -/
def ofRows (name : Text) (columns : List Column) (rows : List Row) : Table :=
  let columns := columns.map fun column => { column with type := keptType column.type }
  insert ⟨name, columns, [], none⟩ (columns.map (·.name)) rows

end Table

end Database

end TableBrowser
