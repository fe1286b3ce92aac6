import Mathlib.Data.Multiset.AddSub
import TableBrowser.Database.Demo
import TableBrowser.Proofs.Text.LetterCase

/-!
# Making the tables of the demo

The tables and indexes of the demo are made one by one in a database that may hold anything
under their names.  What is relied on of the engine is what is documented of its statements.
Each step adds at most one empty table, with indexes of its own, or one index, and changes
nothing that is there, so a run of steps only adds such tables and indexes, also up to a step
that fails.  Behind a run in which nothing fails nothing is missing, and a further run has
nothing to do.
-/

namespace TableBrowser.Database.Demo

open TableBrowser.Text (sameLetters sameLetters_refl)

/-! ## What a database holds -/

inductive ObjectKind
  | table
  | view
  | index
  | trigger
  deriving DecidableEq

/-- An entry of the schema of a database. -/
structure Object (δ : Type) where
  kind : ObjectKind
  name : Text
  /-- The table or view that it belongs to. -/
  owner : Text
  declaration : δ

/-- What can be asked of a database. -/
structure Holdings (σ δ : Type) where
  objects : σ → Multiset (Object δ)
  /-- The cells of all rows of a table in some columns. -/
  rows : σ → (table : Text) → (columns : List Text) → Multiset Row
  /-- Whether a table takes rows just as they are given, if it takes them.  It does if its
  columns keep their cells, no constraint leaves out or replaces rows, and nothing else is done
  with them, by triggers or to number them. -/
  Takes : σ → Insertion → Prop

namespace Holdings

variable {σ δ : Type} (holdings : Holdings σ δ)

/-- There is a table or view of this name, in any letter case. -/
def HasRelation (db : σ) (name : Text) : Prop :=
  ∃ object ∈ holdings.objects db,
    (object.kind = .table ∨ object.kind = .view) ∧ sameLetters object.name name = true

/-- There is an index of this name, in any letter case. -/
def HasIndex (db : σ) (name : Text) : Prop :=
  ∃ object ∈ holdings.objects db, object.kind = .index ∧ sameLetters object.name name = true

/-- There is a table of exactly this name. -/
def HasTable (db : σ) (name : Text) : Prop :=
  ∃ object ∈ holdings.objects db, object.kind = .table ∧ object.name = name

/-- What a seed may add: demo tables that were missing, indexes of these tables, and demo
indexes that were missing. -/
inductive Adds (db : σ) : Object δ → Prop
  | table {definition : TableDefinition} (mem : definition ∈ tableDefinitions)
      (missing : ¬ holdings.HasRelation db definition.name) (declaration : δ) :
      Adds db ⟨.table, definition.name, definition.name, declaration⟩
  | keyIndex {definition : TableDefinition} (mem : definition ∈ tableDefinitions)
      (missing : ¬ holdings.HasRelation db definition.name) (name : Text) (declaration : δ) :
      Adds db ⟨.index, name, definition.name, declaration⟩
  | index {index : Index} (mem : index ∈ indexDefinitions)
      (missing : ¬ holdings.HasIndex db index.name) (owner : Text) (declaration : δ) :
      Adds db ⟨.index, index.name, owner, declaration⟩

/-- All objects are as they were, with what a seed may add. -/
def Extends (db after : σ) : Prop :=
  ∃ added, holdings.objects after = holdings.objects db + added ∧
    ∀ object ∈ added, holdings.Adds db object

/-- The database has grown by empty demo tables and by indexes. -/
structure Grows (db after : σ) : Prop where
  extends_objects : holdings.Extends db after
  rows_eq : holdings.rows after = holdings.rows db
  takes_of_takes : ∀ insertion, holdings.Takes db insertion → holdings.Takes after insertion
  /-- The tables that were made take the rows of the demo. -/
  takes_of_missing : ∀ clock keys, ∀ insertion ∈ insertions clock keys,
    ¬ holdings.HasRelation db insertion.table → holdings.HasRelation after insertion.table →
      holdings.Takes after insertion

variable {holdings} {db middle after : σ}

theorem HasTable.hasRelation {name : Text} (hthere : holdings.HasTable db name) :
    holdings.HasRelation db name := by
  obtain ⟨object, hmem, hkind, rfl⟩ := hthere
  exact ⟨object, hmem, .inl hkind, sameLetters_refl _⟩

theorem Extends.mem_objects (hextends : holdings.Extends db after) {object : Object δ}
    (hmem : object ∈ holdings.objects db) : object ∈ holdings.objects after := by
  obtain ⟨added, hobjects, -⟩ := hextends
  rw [hobjects]
  exact Multiset.mem_add.mpr (.inl hmem)

theorem Extends.hasRelation (hextends : holdings.Extends db after) {name : Text}
    (hthere : holdings.HasRelation db name) : holdings.HasRelation after name := by
  obtain ⟨object, hmem, hobject⟩ := hthere
  exact ⟨object, hextends.mem_objects hmem, hobject⟩

theorem Extends.hasIndex (hextends : holdings.Extends db after) {name : Text}
    (hthere : holdings.HasIndex db name) : holdings.HasIndex after name := by
  obtain ⟨object, hmem, hobject⟩ := hthere
  exact ⟨object, hextends.mem_objects hmem, hobject⟩

/-- What may be added later may be added now. -/
theorem Extends.adds (hextends : holdings.Extends db middle) {object : Object δ}
    (hadds : holdings.Adds middle object) : holdings.Adds db object := by
  cases hadds with
  | table hmem hmissing declaration =>
      exact .table hmem (fun hthere => hmissing (hextends.hasRelation hthere)) declaration
  | keyIndex hmem hmissing name declaration =>
      exact .keyIndex hmem (fun hthere => hmissing (hextends.hasRelation hthere)) name declaration
  | index hmem hmissing owner declaration =>
      exact .index hmem (fun hthere => hmissing (hextends.hasIndex hthere)) owner declaration

theorem Extends.refl (holdings : Holdings σ δ) (db : σ) : holdings.Extends db db :=
  ⟨0, (Multiset.add_zero _).symm, fun _ hmem => absurd hmem (Multiset.notMem_zero _)⟩

theorem Extends.trans (hleft : holdings.Extends db middle)
    (hright : holdings.Extends middle after) : holdings.Extends db after := by
  obtain ⟨added, hadded, hadds⟩ := id hleft
  obtain ⟨further, hfurther, hfurtherAdds⟩ := hright
  refine ⟨added + further, ?_, fun object hmem => ?_⟩
  · rw [hfurther, hadded, Multiset.add_assoc]
  · rcases Multiset.mem_add.mp hmem with hmem | hmem
    · exact hadds object hmem
    · exact hleft.adds (hfurtherAdds object hmem)

theorem Grows.refl (holdings : Holdings σ δ) (db : σ) : holdings.Grows db db where
  extends_objects := .refl holdings db
  rows_eq := rfl
  takes_of_takes _ htakes := htakes
  takes_of_missing _ _ _ _ hmissing hthere := absurd hthere hmissing

theorem Grows.trans (hleft : holdings.Grows db middle) (hright : holdings.Grows middle after) :
    holdings.Grows db after where
  extends_objects := hleft.extends_objects.trans hright.extends_objects
  rows_eq := hright.rows_eq.trans hleft.rows_eq
  takes_of_takes insertion htakes :=
    hright.takes_of_takes insertion (hleft.takes_of_takes insertion htakes)
  takes_of_missing clock keys insertion hmem hmissing hthere := by
    by_cases hmade : holdings.HasRelation middle insertion.table
    · exact hright.takes_of_takes insertion
        (hleft.takes_of_missing clock keys insertion hmem hmissing hmade)
    · exact hright.takes_of_missing clock keys insertion hmem hmade hthere

end Holdings

/-! ## What is relied on of the engine -/

/-- An empty table was made, and nothing else but indexes of its own. -/
structure Holdings.Makes {σ δ : Type} (holdings : Holdings σ δ) (db after : σ)
    (definition : TableDefinition) : Prop where
  objects_eq : ∃ declaration indexes,
    holdings.objects after = holdings.objects db +
      ({⟨.table, definition.name, definition.name, declaration⟩} + indexes) ∧
    ∀ index ∈ indexes, index.kind = .index ∧ index.owner = definition.name
  rows_eq : holdings.rows after = holdings.rows db
  takes_of_takes : ∀ insertion, holdings.Takes db insertion → holdings.Takes after insertion
  takes : ∀ clock keys, ∀ insertion ∈ insertions clock keys, insertion.table = definition.name →
    holdings.Takes after insertion

/-- What is documented of the statements of the demo, for whenever they are answered: what is
there is not made again, and rows only go where they are put, unless the table they are put
into does more with them. -/
structure Engine.Obeys {σ φ δ : Type} (engine : Engine σ φ) (holdings : Holdings σ δ) :
    Prop where
  hasTable_iff : ∀ {db name found}, engine.hasTable db name = .ok found →
    (found = true ↔ holdings.HasTable db name)
  createTable_there : ∀ definition ∈ tableDefinitions, ∀ {db after},
    engine.createTable db definition = .ok after →
    holdings.HasRelation db definition.name → after = db
  createTable_makes : ∀ definition ∈ tableDefinitions, ∀ {db after},
    engine.createTable db definition = .ok after →
    ¬ holdings.HasRelation db definition.name → holdings.Makes db after definition
  createIndex_there : ∀ index ∈ indexDefinitions, ∀ {db after},
    engine.createIndex db index = .ok after → holdings.HasIndex db index.name → after = db
  createIndex_makes : ∀ index ∈ indexDefinitions, ∀ {db after},
    engine.createIndex db index = .ok after → ¬ holdings.HasIndex db index.name →
    (∃ owner declaration, holdings.objects after =
      holdings.objects db + {⟨.index, index.name, owner, declaration⟩}) ∧
    holdings.rows after = holdings.rows db ∧
    ∀ insertion, holdings.Takes db insertion → holdings.Takes after insertion
  insert_objects : ∀ {db after insertion}, engine.insert db insertion = .ok after →
    holdings.objects after = holdings.objects db
  insert_takes : ∀ {db after insertion}, engine.insert db insertion = .ok after →
    ∀ other, holdings.Takes db other → holdings.Takes after other
  insert_rows : ∀ {db after insertion}, engine.insert db insertion = .ok after →
    holdings.Takes db insertion →
    holdings.rows after insertion.table insertion.columns =
      holdings.rows db insertion.table insertion.columns + insertion.rows
  insert_others : ∀ {db after insertion}, engine.insert db insertion = .ok after →
    holdings.Takes db insertion →
    ∀ table, sameLetters table insertion.table = false →
      holdings.rows after table = holdings.rows db table

/-! ## Runs of steps -/

section Runs

variable {σ φ α : Type} {step : σ → α → Except φ σ}

/-- A relation that all steps keep holds between the ends of a run, also of one that fails. -/
theorem related_runSteps {R : σ → σ → Prop} (hrefl : ∀ db, R db db)
    (htrans : ∀ {db middle after}, R db middle → R middle after → R db after) {items : List α}
    (hstep : ∀ item ∈ items, ∀ {db after}, step db item = .ok after → R db after) (db : σ) :
    R db (runSteps step db items).1 := by
  induction items generalizing db with
  | nil => exact hrefl db
  | cons first rest ih =>
      rw [runSteps]
      cases hfirst : step db first with
      | error fault => exact hrefl db
      | ok after =>
          exact htrans (hstep first List.mem_cons_self hfirst)
            (ih (fun item hmem => hstep item (List.mem_cons_of_mem first hmem)) after)

/-- What each step achieves and later steps keep is achieved for all items by a run in which
nothing fails. -/
theorem holds_of_runSteps_ok {P : α → σ → Prop} {items : List α}
    (hstep : ∀ item ∈ items, ∀ {db after}, step db item = .ok after → P item after)
    (hkeeps : ∀ item, ∀ other ∈ items, ∀ {db after}, step db other = .ok after →
      P item db → P item after)
    {db : σ} (hok : (runSteps step db items).2 = .ok ()) :
    ∀ item ∈ items, P item (runSteps step db items).1 := by
  induction items generalizing db with
  | nil => exact fun _ hmem => absurd hmem List.not_mem_nil
  | cons first rest ih =>
      obtain ⟨hfirst, hrest⟩ := List.forall_mem_cons.mp hstep
      have hlater (item : α) := (List.forall_mem_cons.mp (hkeeps item)).2
      rw [runSteps] at hok ⊢
      cases hmade : step db first with
      | error fault =>
          rw [hmade] at hok
          cases hok
      | ok after =>
          rw [hmade] at hok
          refine List.forall_mem_cons.mpr ⟨?_, ih hrest hlater hok⟩
          exact related_runSteps (R := fun db after => P first db → P first after)
            (fun _ => id) (fun hleft hright => hright ∘ hleft) (hlater first) after (hfirst hmade)

/-- Where no step has anything to do, a run changes nothing. -/
theorem runSteps_eq_self {items : List α} {db : σ}
    (hstep : ∀ item ∈ items, ∀ {after}, step db item = .ok after → after = db) :
    (runSteps step db items).1 = db := by
  induction items with
  | nil => rfl
  | cons first rest ih =>
      obtain ⟨hfirst, hrest⟩ := List.forall_mem_cons.mp hstep
      rw [runSteps]
      cases hmade : step db first with
      | error fault => rfl
      | ok after =>
          cases hfirst hmade
          exact ih hrest

end Runs

/-! ## The tables and indexes of the demo -/

/-- No demo table and no demo index is missing. -/
structure Holdings.IsPrepared {σ δ : Type} (holdings : Holdings σ δ) (db : σ) : Prop where
  tables : ∀ definition ∈ tableDefinitions, holdings.HasRelation db definition.name
  indexes : ∀ index ∈ indexDefinitions, holdings.HasIndex db index.name

theorem definition_eq_of_sameLetters : ∀ left ∈ tableDefinitions, ∀ right ∈ tableDefinitions,
    sameLetters left.name right.name = true → left = right := by
  decide

theorem tables_insertions (clock : Clock) (keys : Keys) :
    (insertions clock keys).map (·.table) = tableDefinitions.map (·.name) := rfl

theorem exists_definition_of_insertion {clock : Clock} {keys : Keys} {insertion : Insertion}
    (hmem : insertion ∈ insertions clock keys) :
    ∃ definition ∈ tableDefinitions, definition.name = insertion.table := by
  refine List.mem_map.mp ?_
  rw [← tables_insertions clock keys]
  exact List.mem_map_of_mem hmem

section Growth

variable {σ φ δ : Type} {engine : Engine σ φ} {holdings : Holdings σ δ} {db middle after : σ}

namespace Holdings

theorem Makes.hasRelation {definition : TableDefinition}
    (hmakes : holdings.Makes db after definition) : holdings.HasRelation after definition.name := by
  obtain ⟨declaration, indexes, hobjects, -⟩ := hmakes.objects_eq
  refine ⟨⟨.table, definition.name, definition.name, declaration⟩, ?_, .inl rfl,
    sameLetters_refl _⟩
  rw [hobjects]
  exact Multiset.mem_add.mpr (.inr (Multiset.mem_add.mpr (.inl (Multiset.mem_singleton_self _))))

/-- Relations that are new are the table that was made. -/
theorem Makes.sameLetters {definition : TableDefinition}
    (hmakes : holdings.Makes db after definition) {name : Text}
    (hmissing : ¬ holdings.HasRelation db name) (hthere : holdings.HasRelation after name) :
    Text.sameLetters definition.name name = true := by
  obtain ⟨declaration, indexes, hobjects, hindexes⟩ := hmakes.objects_eq
  obtain ⟨object, hmem, hkind, hname⟩ := hthere
  rw [hobjects, Multiset.mem_add, Multiset.mem_add, Multiset.mem_singleton] at hmem
  rcases hmem with hmem | rfl | hmem
  · exact absurd ⟨object, hmem, hkind, hname⟩ hmissing
  · exact hname
  · rw [(hindexes object hmem).1] at hkind
    rcases hkind with hkind | hkind <;> cases hkind

theorem Makes.grows {definition : TableDefinition} (hmem : definition ∈ tableDefinitions)
    (hmakes : holdings.Makes db after definition)
    (hmissing : ¬ holdings.HasRelation db definition.name) : holdings.Grows db after where
  extends_objects := by
    obtain ⟨declaration, indexes, hobjects, hindexes⟩ := hmakes.objects_eq
    refine ⟨_, hobjects, fun object hadded => ?_⟩
    rcases Multiset.mem_add.mp hadded with hadded | hadded
    · cases Multiset.mem_singleton.mp hadded
      exact .table hmem hmissing declaration
    · obtain ⟨kind, name, owner, declaration⟩ := object
      obtain ⟨rfl, rfl⟩ := hindexes _ hadded
      exact .keyIndex hmem hmissing name declaration
  rows_eq := hmakes.rows_eq
  takes_of_takes := hmakes.takes_of_takes
  takes_of_missing clock keys insertion hinsertion hbefore hthere := by
    obtain ⟨other, hother, hname⟩ := exists_definition_of_insertion hinsertion
    have hsame := hmakes.sameLetters hbefore hthere
    rw [← hname] at hsame
    rw [← definition_eq_of_sameLetters definition hmem other hother hsame] at hname
    exact hmakes.takes clock keys insertion hinsertion hname.symm

end Holdings

namespace Engine.Obeys

theorem grows_createTable (hobeys : engine.Obeys holdings) {definition : TableDefinition}
    (hmem : definition ∈ tableDefinitions) (hmade : engine.createTable db definition = .ok after) :
    holdings.Grows db after ∧ holdings.HasRelation after definition.name := by
  by_cases hthere : holdings.HasRelation db definition.name
  · cases hobeys.createTable_there definition hmem hmade hthere
    exact ⟨.refl holdings db, hthere⟩
  · have hmakes := hobeys.createTable_makes definition hmem hmade hthere
    exact ⟨hmakes.grows hmem hthere, hmakes.hasRelation⟩

theorem grows_createIndex (hobeys : engine.Obeys holdings) {index : Index}
    (hmem : index ∈ indexDefinitions) (hmade : engine.createIndex db index = .ok after) :
    holdings.Grows db after ∧ holdings.HasIndex after index.name := by
  by_cases hthere : holdings.HasIndex db index.name
  · cases hobeys.createIndex_there index hmem hmade hthere
    exact ⟨.refl holdings db, hthere⟩
  · obtain ⟨⟨owner, declaration, hobjects⟩, hrows, htakes⟩ :=
      hobeys.createIndex_makes index hmem hmade hthere
    have hnew : ⟨.index, index.name, owner, declaration⟩ ∈ holdings.objects after := by
      rw [hobjects]
      exact Multiset.mem_add.mpr (.inr (Multiset.mem_singleton_self _))
    refine ⟨⟨⟨_, hobjects, fun object hadded => ?_⟩, hrows, htakes, ?_⟩, ?_⟩
    · cases Multiset.mem_singleton.mp hadded
      exact .index hmem hthere owner declaration
    · rintro clock keys insertion - hmissing ⟨object, hobject, hkind, hname⟩
      rw [hobjects, Multiset.mem_add, Multiset.mem_singleton] at hobject
      rcases hobject with hobject | rfl
      · exact absurd ⟨object, hobject, hkind, hname⟩ hmissing
      · rcases hkind with hkind | hkind <;> cases hkind
    · exact ⟨_, hnew, rfl, sameLetters_refl _⟩

theorem grows_runTables (hobeys : engine.Obeys holdings) (db : σ) :
    holdings.Grows db (runSteps engine.createTable db tableDefinitions).1 :=
  related_runSteps (R := holdings.Grows) (.refl holdings) .trans
    (fun _ hmem => fun hmade => (hobeys.grows_createTable hmem hmade).1) db

theorem grows_runIndexes (hobeys : engine.Obeys holdings) (db : σ) :
    holdings.Grows db (runSteps engine.createIndex db indexDefinitions).1 :=
  related_runSteps (R := holdings.Grows) (.refl holdings) .trans
    (fun _ hmem => fun hmade => (hobeys.grows_createIndex hmem hmade).1) db

theorem grows_createSchema (hobeys : engine.Obeys holdings) (db : σ) :
    holdings.Grows db (engine.createSchema db).1 := by
  have htables := hobeys.grows_runTables db
  unfold createSchema
  split
  · next middle done hrun =>
      rw [hrun] at htables
      exact htables.trans (hobeys.grows_runIndexes middle)
  · next middle fault hrun => rwa [hrun] at htables

theorem isPrepared_createSchema (hobeys : engine.Obeys holdings)
    (hok : engine.createSchema db = (after, .ok ())) : holdings.IsPrepared after := by
  unfold createSchema at hok
  split at hok
  · next middle done hrun =>
      have htables : ∀ definition ∈ tableDefinitions,
          holdings.HasRelation middle definition.name := by
        have hall := holds_of_runSteps_ok
          (P := fun (definition : TableDefinition) db => holdings.HasRelation db definition.name)
          (fun _ hmem => fun hmade => (hobeys.grows_createTable hmem hmade).2)
          (fun _ _ hmem => fun hmade =>
            (hobeys.grows_createTable hmem hmade).1.extends_objects.hasRelation)
          (congrArg Prod.snd hrun)
        rwa [hrun] at hall
      have hgrows := hobeys.grows_runIndexes middle
      have hindexes := holds_of_runSteps_ok
        (P := fun (index : Index) db => holdings.HasIndex db index.name)
        (fun _ hmem => fun hmade => (hobeys.grows_createIndex hmem hmade).2)
        (fun _ _ hmem => fun hmade =>
          (hobeys.grows_createIndex hmem hmade).1.extends_objects.hasIndex)
        (congrArg Prod.snd hok)
      rw [hok] at hgrows hindexes
      exact ⟨fun definition hmem =>
        hgrows.extends_objects.hasRelation (htables definition hmem), hindexes⟩
  · cases hok

/-- Where nothing is missing, nothing is made. -/
theorem createSchema_eq_self (hobeys : engine.Obeys holdings)
    (hprepared : holdings.IsPrepared db) : (engine.createSchema db).1 = db := by
  have htables : (runSteps engine.createTable db tableDefinitions).1 = db :=
    runSteps_eq_self fun definition hmem => fun hmade =>
      hobeys.createTable_there definition hmem hmade (hprepared.tables definition hmem)
  have hindexes : (runSteps engine.createIndex db indexDefinitions).1 = db :=
    runSteps_eq_self fun index hmem => fun hmade =>
      hobeys.createIndex_there index hmem hmade (hprepared.indexes index hmem)
  unfold createSchema
  split
  · next middle done hrun =>
      rw [hrun] at htables
      cases htables
      exact hindexes
  · next middle fault hrun => rwa [hrun] at htables

end Engine.Obeys

end Growth

end TableBrowser.Database.Demo
