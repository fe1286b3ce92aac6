import Mathlib.Algebra.Order.Group.Multiset
import Mathlib.Data.List.Find
import TableBrowser.Proofs.Database.Kept
import TableBrowser.Proofs.Database.Schema

/-!
# The demo in memory

A database in memory runs the statements of the demo as it is documented of them.  Its objects
are its relations and indexes, and its tables take the rows that their columns keep as they are
given.
-/

namespace TableBrowser.Database

open TableBrowser.Text (sameLetters sameLetters_iff)

/-! ## Relations by name -/

section Names

variable {db : Database} {name : Text} {relation : Relation}

theorem sameLetters_of_relation? (hfound : db.relation? name = some relation) :
    sameLetters relation.name name = true :=
  List.find?_some (p := fun relation : Relation => sameLetters relation.name name) hfound

theorem isSome_relation?_iff :
    (db.relation? name).isSome = true ↔
      ∃ relation ∈ db.relations, sameLetters relation.name name = true :=
  List.find?_isSome

theorem relation?_append (relations : List Relation) (indexes : List Index) :
    relation? ⟨db.relations ++ relations, indexes⟩ name =
      (db.relation? name).or (relations.find? (sameLetters ·.name name)) :=
  List.find?_append

end Names

namespace Demo

/-! ## Objects -/

inductive Declaration
  | table (columns : List Column) (numbered? : Option Text)
  | view (base : Text)
  | index (column : Text) (isUnique : Bool)

def objectOf : Relation → Object Declaration
  | .table stored => ⟨.table, stored.name, stored.name, .table stored.columns stored.numbered?⟩
  | .view name base => ⟨.view, name, name, .view base⟩

def objectOfIndex (index : Index) : Object Declaration :=
  ⟨.index, index.name, index.table, .index index.column index.isUnique⟩

/-- The cell of a row in the column of a name. -/
def cellOf (table : Table) (row : Row) (column : Text) : Cell :=
  (((table.columns.zip row).find? fun entry => sameLetters entry.1.name column).map (·.2)).getD
    .null

def cellsOf (table : Table) (columns : List Text) (row : Row) : Row :=
  columns.map (cellOf table row)

/-- The columns of a table keep the cells of all rows. -/
def KeepsCells (table : Table) (insertion : Insertion) : Prop :=
  ∀ cells ∈ insertion.rows, ∀ number,
    cellsOf table insertion.columns (table.storedRow insertion.columns number cells) = cells

def tableRows (db : Database) (table : Text) (columns : List Text) : List Row :=
  match db.relation? table with
  | some (.table stored) => stored.rows.map (cellsOf stored columns)
  | _ => []

def memoryHoldings : Holdings Database Declaration where
  objects db :=
    (db.relations.map objectOf : Multiset _) + (db.indexes.map objectOfIndex : Multiset _)
  rows db table columns := tableRows db table columns
  Takes db insertion := ∃ stored, db.relation? insertion.table = some (.table stored) ∧
    KeepsCells stored insertion

variable {db after : Database}

theorem mem_objects {object : Object Declaration} :
    object ∈ memoryHoldings.objects db ↔
      (∃ relation ∈ db.relations, objectOf relation = object) ∨
        ∃ index ∈ db.indexes, objectOfIndex index = object := by
  rw [memoryHoldings, Multiset.mem_add, Multiset.mem_coe, Multiset.mem_coe, List.mem_map,
    List.mem_map]

theorem name_objectOf (relation : Relation) : (objectOf relation).name = relation.name := by
  cases relation <;> rfl

theorem kind_objectOf (relation : Relation) :
    (objectOf relation).kind = .table ∨ (objectOf relation).kind = .view := by
  cases relation
  · exact .inl rfl
  · exact .inr rfl

theorem hasRelation_iff {name : Text} :
    memoryHoldings.HasRelation db name ↔ (db.relation? name).isSome = true := by
  rw [isSome_relation?_iff]
  constructor
  · rintro ⟨object, hmem, hkind, hname⟩
    rcases mem_objects.mp hmem with ⟨relation, hrelation, rfl⟩ | ⟨index, -, rfl⟩
    · exact ⟨relation, hrelation, name_objectOf relation ▸ hname⟩
    · rcases hkind with hkind | hkind <;> cases hkind
  · rintro ⟨relation, hrelation, hname⟩
    exact ⟨objectOf relation, mem_objects.mpr (.inl ⟨relation, hrelation, rfl⟩),
      kind_objectOf relation, (name_objectOf relation).symm ▸ hname⟩

theorem hasIndex_iff {name : Text} :
    memoryHoldings.HasIndex db name ↔ db.hasIndex name = true := by
  rw [hasIndex, List.any_eq_true]
  constructor
  · rintro ⟨object, hmem, hkind, hname⟩
    rcases mem_objects.mp hmem with ⟨relation, -, rfl⟩ | ⟨index, hindex, rfl⟩
    · rcases kind_objectOf relation with hother | hother <;> cases hkind.symm.trans hother
    · exact ⟨index, hindex, hname⟩
  · rintro ⟨index, hindex, hname⟩
    exact ⟨objectOfIndex index, mem_objects.mpr (.inr ⟨index, hindex, rfl⟩), rfl, hname⟩

theorem hasTable_iff {name : Text} :
    memoryHoldings.HasTable db name ↔ db.hasTable name = true := by
  rw [Database.hasTable, List.any_eq_true]
  constructor
  · rintro ⟨object, hmem, hkind, hname⟩
    rcases mem_objects.mp hmem with ⟨relation, hrelation, rfl⟩ | ⟨index, -, rfl⟩
    · refine ⟨relation, hrelation, ?_⟩
      cases relation with
      | table stored => exact beq_iff_eq.mpr hname
      | view => cases hkind
    · cases hkind
  · rintro ⟨relation, hrelation, hname⟩
    cases relation with
    | table stored =>
        exact ⟨_, mem_objects.mpr (.inl ⟨_, hrelation, rfl⟩), rfl, beq_iff_eq.mp hname⟩
    | view => cases hname

/-! ## Tables and indexes -/

/-- A table that was just made. -/
def TableDefinition.made (definition : TableDefinition) : Table :=
  ⟨definition.name, definition.columns, [], definition.numbered?⟩

/-- Empty tables behind what there is make no rows. -/
theorem rows_append {relations : List Relation} {indexes : List Index}
    (hempty : ∀ stored, .table stored ∈ relations → stored.rows = []) :
    memoryHoldings.rows ⟨db.relations ++ relations, indexes⟩ = memoryHoldings.rows db := by
  funext table columns
  refine congrArg Multiset.ofList ?_
  rw [tableRows, tableRows, relation?_append]
  cases db.relation? table with
  | some relation => rfl
  | none =>
      rw [Option.none_or]
      cases hfound : relations.find? (sameLetters ·.name table) with
      | none => rfl
      | some relation =>
          cases relation with
          | view => rfl
          | table stored =>
              dsimp only
              rw [hempty stored (List.mem_of_find?_eq_some hfound)]
              rfl

theorem takes_append {relations : List Relation} {indexes : List Index} {insertion : Insertion}
    (htakes : memoryHoldings.Takes db insertion) :
    memoryHoldings.Takes ⟨db.relations ++ relations, indexes⟩ insertion := by
  obtain ⟨stored, hstored, hkeeps⟩ := htakes
  refine ⟨stored, ?_, hkeeps⟩
  rw [relation?_append, hstored, Option.some_or]

/-! ## Rows of the demo -/

theorem keepsCells_genres (keys : Keys) :
    KeepsCells genresTable.made ⟨"genres", ["id", "name"], genreRows keys⟩ := by
  intro cells hcells number
  obtain ⟨⟨name, n⟩, -, rfl⟩ := List.mem_map.mp hcells
  rfl

theorem keepsCells_directors (keys : Keys) :
    KeepsCells directorsTable.made
      ⟨"directors", ["id", "name", "birth_year"], directorRows keys⟩ := by
  intro cells hcells number
  obtain ⟨⟨⟨name, year⟩, n⟩, -, rfl⟩ := List.mem_map.mp hcells
  rfl

theorem store_momentCell (now : Int) (amount : Nat) (unit : Filter.DateUnit) :
    Affinity.store .text (momentCell now amount unit) = momentCell now amount unit := by
  rw [momentCell]
  split <;> rfl

theorem store_rating : ∀ film ∈ films,
    Affinity.store .real (.real (.ofDecimal false film.rating (-1))) =
      .real (.ofDecimal false film.rating (-1)) := by
  decide +kernel

theorem keepsCells_movies (clock : Clock) (keys : Keys) :
    KeepsCells moviesTable.made
      ⟨"movies", ["id", "title", "year", "rating", "genre_id", "director_id", "created_at"],
        filmRows clock keys⟩ := by
  intro cells hcells number
  obtain ⟨⟨film, n⟩, hmem, rfl⟩ := List.mem_map.mp hcells
  calc
    _ = [.blob (keys.film n), .text film.title, .integer film.year,
          Affinity.store .real (.real (.ofDecimal false film.rating (-1))),
          .blob (keys.genre film.genre), .blob (keys.director film.director),
          Affinity.store .text (momentCell (clock n) film.daysAgo .day)] := rfl
    _ = _ := by rw [store_rating film (List.fst_mem_of_mem_zipIdx hmem), store_momentCell]

theorem keepsCells_screenings (clock : Clock) (keys : Keys) :
    KeepsCells screeningsTable.made
      ⟨"screenings", ["movie_id", "cinema", "seats_sold", "starts_at"],
        screeningRows clock keys⟩ := by
  intro cells hcells number
  dsimp only at hcells
  rw [screeningRows, List.mem_map] at hcells
  obtain ⟨n, -, rfl⟩ := hcells
  calc
    _ = [.blob (keys.film (n % films.length)),
          .text ((cinemas[n % cinemas.length]?).getD []), .integer (n * 37 % 250 : Nat),
          Affinity.store .text
            (momentCell (clock (films.length + n)) (n % hourCount) .hour)] := rfl
    _ = _ := by rw [store_momentCell, screeningRow]

/-- The tables of the demo keep the rows of the demo as they are given. -/
theorem keepsCells_made {clock : Clock} {keys : Keys} {definition : TableDefinition}
    {insertion : Insertion} (hdefinition : definition ∈ tableDefinitions)
    (hmem : insertion ∈ insertions clock keys) (htable : insertion.table = definition.name) :
    KeepsCells definition.made insertion := by
  have hsame (other : TableDefinition) (hother : other ∈ tableDefinitions)
      (hname : insertion.table = other.name) : definition = other :=
    definition_eq_of_sameLetters definition hdefinition other hother
      (by rw [← htable, hname]; exact Text.sameLetters_refl _)
  simp only [insertions, List.mem_cons, List.not_mem_nil, or_false] at hmem
  rcases hmem with rfl | rfl | rfl | rfl
  · rw [hsame genresTable (by decide) rfl]
    exact keepsCells_genres keys
  · rw [hsame directorsTable (by decide) rfl]
    exact keepsCells_directors keys
  · rw [hsame moviesTable (by decide) rfl]
    exact keepsCells_movies clock keys
  · rw [hsame screeningsTable (by decide) rfl]
    exact keepsCells_screenings clock keys

/-! ## Statements -/

theorem table_of_keyIndex? {definition : TableDefinition} {index : Index}
    (hkey : definition.keyIndex? = some index) : index.table = definition.name := by
  unfold TableDefinition.keyIndex? at hkey
  split at hkey
  · cases hkey
    rfl
  · cases hkey

theorem createTable_cases {definition : TableDefinition}
    (hmade : createTable db definition = .ok after) :
    ((db.relation? definition.name).isSome = true ∧ after = db) ∨
      (db.relation? definition.name = none ∧
        after = ⟨db.relations ++ [.table definition.made],
          db.indexes ++ definition.keyIndex?.toList⟩) := by
  unfold createTable at hmade
  split at hmade
  · next hthere => exact .inl ⟨hthere, (Except.ok.inj hmade).symm⟩
  · next hmissing =>
      split at hmade
      · cases hmade
      · exact .inr ⟨by simpa using hmissing, (Except.ok.inj hmade).symm⟩

theorem createTable_there {definition : TableDefinition}
    (hmade : createTable db definition = .ok after)
    (hthere : memoryHoldings.HasRelation db definition.name) : after = db := by
  rcases createTable_cases hmade with ⟨-, rfl⟩ | ⟨hnone, -⟩
  · rfl
  · rw [hasRelation_iff, hnone] at hthere
    cases hthere

theorem makes_createTable {definition : TableDefinition} (hmem : definition ∈ tableDefinitions)
    (hmade : createTable db definition = .ok after)
    (hmissing : ¬ memoryHoldings.HasRelation db definition.name) :
    memoryHoldings.Makes db after definition := by
  rcases createTable_cases hmade with ⟨hthere, -⟩ | ⟨hnone, rfl⟩
  · exact absurd (hasRelation_iff.mpr hthere) hmissing
  refine ⟨⟨.table definition.columns definition.numbered?,
    (definition.keyIndex?.toList.map objectOfIndex : Multiset _), ?_, ?_⟩,
    rows_append ?_, fun insertion => takes_append, ?_⟩
  · simp only [memoryHoldings, List.map_append, ← Multiset.coe_add]
    exact add_add_add_comm _ _ _ _
  · intro object hobject
    obtain ⟨index, hindex, rfl⟩ := List.mem_map.mp (Multiset.mem_coe.mp hobject)
    exact ⟨rfl, table_of_keyIndex? (Option.mem_toList.mp hindex)⟩
  · intro stored hstored
    cases List.mem_singleton.mp hstored
    rfl
  · intro clock keys insertion hinsertion htable
    refine ⟨definition.made, ?_, keepsCells_made hmem hinsertion htable⟩
    rw [htable, relation?_append, hnone, Option.none_or]
    exact List.find?_cons_of_pos (Text.sameLetters_refl _)

theorem createIndex_cases {index : Index} (hmade : createIndex db index = .ok after) :
    (db.hasIndex index.name = true ∧ after = db) ∨
      (db.hasIndex index.name = false ∧ after = { db with indexes := db.indexes ++ [index] }) := by
  unfold createIndex at hmade
  split at hmade
  · cases hmade
  · cases hmade
  · split at hmade
    · cases hmade
    · split at hmade
      · next hthere => exact .inl ⟨hthere, (Except.ok.inj hmade).symm⟩
      · next hmissing =>
          split at hmade
          · exact .inr ⟨Bool.eq_false_iff.mpr hmissing, (Except.ok.inj hmade).symm⟩
          · cases hmade

theorem createIndex_there {index : Index} (hmade : createIndex db index = .ok after)
    (hthere : memoryHoldings.HasIndex db index.name) : after = db := by
  rcases createIndex_cases hmade with ⟨-, heq⟩ | ⟨hmissing, -⟩
  · exact heq
  · exact absurd (hasIndex_iff.mp hthere) (Bool.eq_false_iff.mp hmissing)

theorem makes_createIndex {index : Index} (hmade : createIndex db index = .ok after)
    (hmissing : ¬ memoryHoldings.HasIndex db index.name) :
    (∃ owner declaration, memoryHoldings.objects after =
      memoryHoldings.objects db + {⟨.index, index.name, owner, declaration⟩}) ∧
    memoryHoldings.rows after = memoryHoldings.rows db ∧
    ∀ insertion, memoryHoldings.Takes db insertion → memoryHoldings.Takes after insertion := by
  rcases createIndex_cases hmade with ⟨hthere, -⟩ | ⟨-, rfl⟩
  · exact absurd (hasIndex_iff.mpr hthere) hmissing
  refine ⟨⟨index.table, .index index.column index.isUnique, ?_⟩, rfl, fun _ => id⟩
  simp only [memoryHoldings, List.map_append, ← Multiset.coe_add]
  exact (add_assoc _ _ _).symm

/-! ## Insertions -/

theorem insertRows_ok {insertion : Insertion} (hput : insertRows db insertion = .ok after) :
    after = { db with relations := db.relations.map insertion.extend } := by
  unfold insertRows at hput
  split at hput
  · cases hput
  · cases hput
  · split at hput
    · cases hput
    · split at hput
      · cases hput
      · exact (Except.ok.inj hput).symm

theorem objectOf_extend (insertion : Insertion) (relation : Relation) :
    objectOf (insertion.extend relation) = objectOf relation := by
  cases relation with
  | view => rfl
  | table stored =>
      rw [Insertion.extend]
      split <;> rfl

theorem name_extend (insertion : Insertion) (relation : Relation) :
    (insertion.extend relation).name = relation.name := by
  rw [← name_objectOf, objectOf_extend, name_objectOf]

theorem relation?_map_extend (insertion : Insertion) (name : Text) :
    relation? { db with relations := db.relations.map insertion.extend } name =
      (db.relation? name).map insertion.extend := by
  rw [relation?, relation?, List.find?_map]
  refine congrArg (Option.map insertion.extend) (List.find?_congr fun relation _ => ?_)
  rw [Function.comp_apply, name_extend]

/-- A table is like it was but for its rows. -/
theorem exists_extend_eq (insertion : Insertion) (stored : Table) :
    ∃ rows, insertion.extend (.table stored) = .table { stored with rows := rows } := by
  rw [Insertion.extend]
  split
  · exact ⟨_, rfl⟩
  · exact ⟨stored.rows, rfl⟩

/-- Rows whose cells are kept are behind those that were there. -/
theorem map_cellsOf_insert {stored : Table} {insertion : Insertion}
    (hkeeps : KeepsCells stored insertion) :
    (stored.insert insertion.columns insertion.rows).rows.map
        (cellsOf stored insertion.columns) =
      stored.rows.map (cellsOf stored insertion.columns) ++ insertion.rows := by
  rw [Table.insert, List.map_append, List.map_map]
  refine congrArg _ ?_
  calc
    _ = insertion.rows.zipIdx.map Prod.fst :=
      List.map_congr_left fun entry hmem =>
        hkeeps entry.1 (List.fst_mem_of_mem_zipIdx hmem) _
    _ = insertion.rows := List.zipIdx_map_fst 0 _

theorem insertRows_objects {insertion : Insertion} (hput : insertRows db insertion = .ok after) :
    memoryHoldings.objects after = memoryHoldings.objects db := by
  cases insertRows_ok hput
  have hsame : objectOf ∘ insertion.extend = objectOf := funext (objectOf_extend insertion)
  simp only [memoryHoldings, List.map_map, hsame]

theorem insertRows_takes {insertion other : Insertion}
    (hput : insertRows db insertion = .ok after) (htakes : memoryHoldings.Takes db other) :
    memoryHoldings.Takes after other := by
  cases insertRows_ok hput
  obtain ⟨stored, hstored, hkeeps⟩ := htakes
  obtain ⟨rows, hrows⟩ := exists_extend_eq insertion stored
  -- What a table keeps depends on its columns only.
  refine ⟨{ stored with rows := rows }, ?_, hkeeps⟩
  rw [relation?_map_extend, hstored, Option.map_some, hrows]

theorem insertRows_rows {insertion : Insertion} (hput : insertRows db insertion = .ok after)
    (htakes : memoryHoldings.Takes db insertion) :
    tableRows after insertion.table insertion.columns =
      tableRows db insertion.table insertion.columns ++ insertion.rows := by
  cases insertRows_ok hput
  obtain ⟨stored, hstored, hkeeps⟩ := htakes
  have hsame : sameLetters stored.name insertion.table = true := sameLetters_of_relation? hstored
  rw [tableRows, tableRows, relation?_map_extend, hstored, Option.map_some, Insertion.extend,
    if_pos hsame]
  exact map_cellsOf_insert hkeeps

theorem insertRows_others {insertion : Insertion} (hput : insertRows db insertion = .ok after)
    {table : Text} (hother : sameLetters table insertion.table = false) (columns : List Text) :
    tableRows after table columns = tableRows db table columns := by
  cases insertRows_ok hput
  rw [tableRows, tableRows, relation?_map_extend]
  cases hfound : db.relation? table with
  | none => rfl
  | some relation =>
      cases relation with
      | view => rfl
      | table stored =>
          have hname : sameLetters stored.name table = true := sameLetters_of_relation? hfound
          have hapart : ¬ sameLetters stored.name insertion.table = true := fun hsame =>
            Bool.eq_false_iff.mp hother (sameLetters_iff.mpr
              ((sameLetters_iff.mp hname).symm.trans (sameLetters_iff.mp hsame)))
          rw [Option.map_some, Insertion.extend, if_neg hapart]

/-- The engine of databases in memory does what is documented. -/
theorem memoryEngine_obeys : memoryEngine.Obeys memoryHoldings where
  hasTable_iff hfound := by
    rw [hasTable_iff, ← Except.ok.inj hfound]
  createTable_there _ _ _ _ := createTable_there
  createTable_makes _ hmem _ _ := makes_createTable hmem
  createIndex_there _ _ _ _ := createIndex_there
  createIndex_makes _ _ _ _ := makes_createIndex
  insert_objects := insertRows_objects
  insert_takes hput _ := insertRows_takes hput
  insert_rows hput htakes := congrArg Multiset.ofList (insertRows_rows hput htakes)
  insert_others hput _ _ hother :=
    funext fun columns => congrArg Multiset.ofList (insertRows_others hput hother columns)

/-! ## The demo in an empty database -/

/-- The tables with the rows that are put into them. -/
def filledTables (clock : Clock) (keys : Keys) : List Table :=
  (tableDefinitions.zip (insertions clock keys)).map fun (definition, insertion) =>
    definition.made.insert insertion.columns insertion.rows

/-- Nothing fails in an empty database. -/
theorem relations_seed_empty (clock : Clock) (keys : Keys) :
    (memoryEngine.seed clock keys .empty).1.relations = (filledTables clock keys).map .table := rfl

theorem isKept_made {definition : TableDefinition} (hmem : definition ∈ tableDefinitions) :
    definition.made.IsKept := by
  have hnumbered : ∀ definition ∈ tableDefinitions, ∀ column ∈ definition.columns,
      definition.numbered? = some column.name → Affinity.ofType column.type = .integer := by
    decide
  exact Table.isKept_empty definition.name (hnumbered definition hmem)

/-- The columns that the rows of each table give cells for. -/
def givenColumns : List (List Text) :=
  [["id", "name"], ["id", "name", "birth_year"],
    ["id", "title", "year", "rating", "genre_id", "director_id", "created_at"],
    ["movie_id", "cinema", "seats_sold", "starts_at"]]

theorem columns_insertions (clock : Clock) (keys : Keys) :
    (insertions clock keys).map (·.columns) = givenColumns := rfl

theorem length_insertions (clock : Clock) (keys : Keys) :
    (insertions clock keys).map (·.rows.length) =
      [genres.length, directors.length, films.length, screeningCount] := by
  simp [insertions, genreRows, directorRows, filmRows, screeningRows]

theorem length_lt_of_mem_insertions {clock : Clock} {keys : Keys} {insertion : Insertion}
    (hmem : insertion ∈ insertions clock keys) : insertion.rows.length < integerBound := by
  have hlength : ∀ length ∈ [genres.length, directors.length, films.length, screeningCount],
      length < integerBound := by decide
  apply hlength
  rw [← length_insertions clock keys]
  exact List.mem_map_of_mem hmem

/-- No rows give the numbers of the rows themselves. -/
theorem unnumbered_of_mem_zip {clock : Clock} {keys : Keys} {definition : TableDefinition}
    {insertion : Insertion}
    (hmem : (definition, insertion) ∈ tableDefinitions.zip (insertions clock keys)) :
    ∀ column ∈ definition.columns, definition.numbered? = some column.name →
      ∀ name ∈ insertion.columns, Text.sameLetters name column.name = false := by
  have hunnamed : ∀ given ∈ tableDefinitions.zip givenColumns, ∀ column ∈ given.1.columns,
      given.1.numbered? = some column.name →
        ∀ name ∈ given.2, Text.sameLetters name column.name = false := by decide
  rw [← columns_insertions clock keys, List.zip_map_right] at hunnamed
  exact hunnamed _ (List.mem_map_of_mem hmem)

/-- The database that a server of the demo begins with is kept. -/
theorem isKept_seed_empty (clock : Clock) (keys : Keys) :
    (memoryEngine.seed clock keys .empty).1.IsKept := by
  intro table hmem
  rw [relations_seed_empty, List.mem_map] at hmem
  obtain ⟨filled, hfilled, heq⟩ := hmem
  cases heq
  obtain ⟨⟨definition, insertion⟩, hfilling, rfl⟩ := List.mem_map.mp hfilled
  obtain ⟨hdefinition, hinsertion⟩ := List.of_mem_zip hfilling
  apply (isKept_made hdefinition).insert
  · rw [TableDefinition.made, List.length_nil, Nat.zero_add]
    exact length_lt_of_mem_insertions hinsertion
  · exact unnumbered_of_mem_zip hfilling

end Demo

end TableBrowser.Database
