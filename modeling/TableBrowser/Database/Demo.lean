import TableBrowser.Database.Query

/-!
# The demo database

Four tables about films to try filters on: keys of raw bytes, moments spread over
the past year, and enough screenings for several pages.  The tables and indexes
are made one by one and stay even if a later step fails; the rows are put in all
together or not at all.  A database with a table of films is left alone.

This is said for any engine that runs the statements.  A database in memory is one: its
tables keep keys of other tables that an index keeps apart, and have no other rules.
-/

namespace TableBrowser.Database.Demo

open TableBrowser.Sql

/-- A table to be made: its key is the number of a row if that has a name, and otherwise
the first column. -/
structure TableDefinition where
  name : Text
  columns : List Column
  numbered? : Option Text
  /-- The tables whose keys the rows refer to. -/
  parents : List Text
  deriving DecidableEq

def keyType : Text := "BINARY(16)"

def genresTable : TableDefinition :=
  ⟨"genres", [⟨"id", keyType⟩, ⟨"name", "TEXT"⟩], none, []⟩

def directorsTable : TableDefinition :=
  ⟨"directors", [⟨"id", keyType⟩, ⟨"name", "TEXT"⟩, ⟨"birth_year", "INTEGER"⟩], none, []⟩

def moviesTable : TableDefinition :=
  ⟨"movies",
    [⟨"id", keyType⟩, ⟨"title", "TEXT"⟩, ⟨"year", "INTEGER"⟩, ⟨"rating", "REAL"⟩,
      ⟨"genre_id", keyType⟩, ⟨"director_id", keyType⟩, ⟨"created_at", "TEXT"⟩],
    none, ["genres", "directors"]⟩

def screeningsTable : TableDefinition :=
  ⟨"screenings",
    [⟨"id", "INTEGER"⟩, ⟨"movie_id", keyType⟩, ⟨"cinema", "TEXT"⟩,
      ⟨"seats_sold", "INTEGER"⟩, ⟨"starts_at", "TEXT"⟩],
    some "id", ["movies"]⟩

def tableDefinitions : List TableDefinition :=
  [genresTable, directorsTable, moviesTable, screeningsTable]

/-- The index that keeps the cells of a key apart. -/
def TableDefinition.keyIndex? (definition : TableDefinition) : Option Index :=
  match definition.numbered?, definition.columns with
  | none, key :: _ =>
    some ⟨"sqlite_autoindex_" ++ definition.name ++ "_1", definition.name, key.name, true⟩
  | _, _ => none

def indexDefinitions : List Index :=
  [⟨"idx_movies_year", "movies", "year", false⟩,
    ⟨"idx_screenings_starts_at", "screenings", "starts_at", false⟩]

/-- Rows for a table, with the names of the columns they give cells for. -/
structure Insertion where
  table : Text
  columns : List Text
  rows : List Row

structure Film where
  title : Text
  year : Nat
  /-- The rating in tenths. -/
  rating : Nat
  director : Nat
  genre : Nat
  daysAgo : Nat

def genres : List Text :=
  ["Action", "Drama", "Sci-Fi", "Comedy", "Thriller"]

def directors : List (Text × Nat) :=
  [("Christopher Nolan", 1970), ("Quentin Tarantino", 1963), ("Steven Spielberg", 1946),
    ("Martin Scorsese", 1942), ("Denis Villeneuve", 1967)]

def films : List Film :=
  [⟨"Inception", 2010, 88, 0, 2, 2⟩,
    ⟨"Pulp Fiction", 1994, 89, 1, 4, 5⟩,
    ⟨"Schindler's List", 1993, 90, 2, 1, 11⟩,
    ⟨"Goodfellas", 1990, 87, 3, 1, 20⟩,
    ⟨"Dune", 2021, 80, 4, 2, 33⟩,
    ⟨"The Dark Knight", 2008, 90, 0, 0, 47⟩,
    ⟨"Django Unchained", 2012, 84, 1, 0, 90⟩,
    ⟨"Saving Private Ryan", 1998, 86, 2, 1, 150⟩,
    ⟨"The Wolf of Wall Street", 2013, 82, 3, 3, 240⟩,
    ⟨"Arrival", 2016, 79, 4, 2, 400⟩]

def cinemas : List Text :=
  ["Odeon Leicester Square", "Prince Charles Cinema", "Curzon Soho", "BFI Southbank",
    "Electric Cinema", "Rio Dalston"]

def screeningCount : Nat := 12000

def hourCount : Nat := 24 * 365

/-- The fresh keys of the rows: those of genres, of directors and of films. -/
structure Keys where
  genre : Nat → List UInt8
  director : Nat → List UInt8
  film : Nat → List UInt8

/-- A moment some units before now. -/
def momentCell (now : Int) (amount : Nat) (unit : Filter.DateUnit) : Cell :=
  match momentText? now ⟨false, some (amount, unit)⟩ with
  | some t => .text t
  | none => .null

def genreRows (keys : Keys) : List Row :=
  genres.zipIdx.map fun (name, n) => [.blob (keys.genre n), .text name]

def directorRows (keys : Keys) : List Row :=
  directors.zipIdx.map fun ((name, year), n) =>
    [.blob (keys.director n), .text name, .integer year]

def filmRows (clock : Clock) (keys : Keys) : List Row :=
  films.zipIdx.map fun (film, n) =>
    [.blob (keys.film n), .text film.title, .integer film.year,
      .real (.ofDecimal false film.rating (-1)), .blob (keys.genre film.genre),
      .blob (keys.director film.director), momentCell (clock n) film.daysAgo .day]

def screeningRow (now : Int) (keys : Keys) (n : Nat) : Row :=
  [.blob (keys.film (n % films.length)),
    .text ((cinemas[n % cinemas.length]?).getD []),
    .integer (n * 37 % 250 : Nat), momentCell now (n % hourCount) .hour]

def screeningRows (clock : Clock) (keys : Keys) : List Row :=
  (List.range screeningCount).map fun n => screeningRow (clock (films.length + n)) keys n

/-- The rows of the demo.  The clock tells the moments at which films and then screenings are
put in. -/
def insertions (clock : Clock) (keys : Keys) : List Insertion :=
  [⟨"genres", ["id", "name"], genreRows keys⟩,
    ⟨"directors", ["id", "name", "birth_year"], directorRows keys⟩,
    ⟨"movies", ["id", "title", "year", "rating", "genre_id", "director_id", "created_at"],
      filmRows clock keys⟩,
    ⟨"screenings", ["movie_id", "cinema", "seats_sold", "starts_at"],
      screeningRows clock keys⟩]

/-! ## Any engine -/

/-- What runs the statements of the demo on a database.  A statement that fails leaves the
database as it was, and one outside a transaction is committed by itself. -/
structure Engine (σ φ : Type) where
  /-- Whether there is a table of exactly this name. -/
  hasTable : σ → (name : Text) → Except φ Bool
  /-- Makes a table unless there is a table or view of its name. -/
  createTable : σ → TableDefinition → Except φ σ
  /-- Makes an index unless there is one of its name. -/
  createIndex : σ → Index → Except φ σ
  beginTransaction : σ → Except φ Unit
  /-- Puts rows into a table, one after another. -/
  insert : σ → Insertion → Except φ σ
  commit : σ → Except φ Unit

/-- Runs steps until one fails; what was done before it stays. -/
def runSteps {σ φ α : Type} (step : σ → α → Except φ σ) : σ → List α → σ × Except φ Unit
  | db, [] => (db, .ok ())
  | db, first :: rest =>
    match step db first with
    | .ok after => runSteps step after rest
    | .error fault => (db, .error fault)

namespace Engine

variable {σ φ : Type} (engine : Engine σ φ)

/-- Makes the tables and then the indexes. -/
def createSchema (db : σ) : σ × Except φ Unit :=
  match runSteps engine.createTable db tableDefinitions with
  | (db, .ok _) => runSteps engine.createIndex db indexDefinitions
  | (db, .error fault) => (db, .error fault)

def transact (db : σ) (all : List Insertion) : Except φ σ := do
  engine.beginTransaction db
  let filled ← all.foldlM engine.insert db
  engine.commit filled
  return filled

/-- Puts all rows in, or none: a transaction that is not committed is rolled back. -/
def insertAll (db : σ) (all : List Insertion) : σ × Except φ Unit :=
  match engine.transact db all with
  | .ok filled => (filled, .ok ())
  | .error fault => (db, .error fault)

def seed (clock : Clock) (keys : Keys) (db : σ) : σ × Except φ Unit :=
  match engine.hasTable db moviesTable.name with
  | .error fault => (db, .error fault)
  | .ok true => (db, .ok ())
  | .ok false =>
    match engine.createSchema db with
    | (db, .ok _) => engine.insertAll db (insertions clock keys)
    | (db, .error fault) => (db, .error fault)

end Engine

/-! ## Databases in memory -/

inductive SeedFault
  | indexNamed (name : Text)
  | tableNamed (name : Text)
  | viewNotIndexed
  | noSuchTable (name : Text)
  | noSuchColumn (name : Text)
  | viewNotModified (name : Text)
  | missingColumn (table column : Text)
  | keyMismatch (table parent : Text)
  deriving DecidableEq

def createTable (db : Database) (definition : TableDefinition) :
    Except SeedFault Database :=
  if (db.relation? definition.name).isSome then .ok db
  else if db.hasIndex definition.name then
    .error (.indexNamed definition.name)
  else
    let made := Table.mk definition.name definition.columns [] definition.numbered?
    .ok ⟨db.relations ++ [.table made], db.indexes ++ definition.keyIndex?.toList⟩

def createIndex (db : Database) (definition : Index) :
    Except SeedFault Database :=
  match db.relation? definition.table with
  | none => .error (.noSuchTable definition.table)
  | some (.view ..) => .error .viewNotIndexed
  | some (.table stored) =>
    if (db.relation? definition.name).isSome then .error (.tableNamed definition.name)
    else if db.hasIndex definition.name then .ok db
    else if stored.isNamed definition.column then
      .ok { db with indexes := db.indexes ++ [definition] }
    else .error (.noSuchColumn definition.column)

/-- Whether a table is as the definition makes it, but for its rows. -/
def TableDefinition.describes (definition : TableDefinition) (stored : Table) : Bool :=
  stored.name == definition.name && stored.columns == definition.columns &&
    stored.numbered? == definition.numbered?

/-- The tables that a table refers to.  Only those of the demo refer to any. -/
def parents (stored : Table) : List Text :=
  ((tableDefinitions.find? (·.describes stored)).map (·.parents)).getD []

/-- Whether an index keeps the keys of a table apart. -/
def hasKey (db : Database) (table : Text) : Bool :=
  db.indexes.any fun index =>
    index.isUnique && Text.sameLetters index.table table && Text.sameLetters index.column "id"

/-- A relation behind an insertion. -/
def Insertion.extend (insertion : Insertion) : Relation → Relation
  | .table stored =>
    if Text.sameLetters stored.name insertion.table then
      .table (stored.insert insertion.columns insertion.rows)
    else .table stored
  | .view name base => .view name base

/-- Puts rows into a table.  They refer to tables with keys only; the keys they refer to are
there, as they are put in before. -/
def insertRows (db : Database) (insertion : Insertion) : Except SeedFault Database :=
  match db.relation? insertion.table with
  | none => .error (.noSuchTable insertion.table)
  | some (.view name _) => .error (.viewNotModified name)
  | some (.table stored) =>
    match insertion.columns.find? fun column => !stored.isNamed column with
    | some column => .error (.missingColumn insertion.table column)
    | none =>
      match (parents stored).find? fun parent => !hasKey db parent with
      | some parent => .error (.keyMismatch stored.name parent)
      | none => .ok { db with relations := db.relations.map insertion.extend }

/-- The engine of databases in memory. -/
def memoryEngine : Engine Database SeedFault where
  hasTable db name := .ok (db.hasTable name)
  createTable := createTable
  createIndex := createIndex
  beginTransaction _ := .ok ()
  insert := insertRows
  commit _ := .ok ()

/-- Makes and fills the demo tables in memory, at one moment. -/
def seed (now : Int) (keys : Keys) (db : Database) : Database × Except SeedFault Unit :=
  memoryEngine.seed (atOnce now) keys db

end TableBrowser.Database.Demo
