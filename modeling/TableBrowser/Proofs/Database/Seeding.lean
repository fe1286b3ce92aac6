import TableBrowser.Proofs.Database.Demo
import TableBrowser.Proofs.Database.Insertions
import TableBrowser.Proofs.Database.Insertions

/-!
# Seeding any database

The demo is put into a database that may hold anything under its names.  A run that succeeds
puts all rows into the four tables, next to what these had, if they take rows as they are given,
unless there is a table of films already.  A run that fails leaves all that was there, but also
the empty tables and the indexes that it made before: these are made outside the transaction of
the rows.  The table of films is looked for by its exact name and made by its name in any letter
case, so next to a table `MOVIES` every further run that succeeds puts all rows in once more.
-/

namespace TableBrowser.Database.Demo

open TableBrowser.Text (sameLetters)

section Runs

variable {σ φ δ : Type} {engine : Engine σ φ} {holdings : Holdings σ δ}
variable {clock : Clock} {keys : Keys} {db after : σ}

/-! ## Runs of the seed -/

/-- The demo was put into a database: its tables and indexes are there, made if they were
missing, and all its rows were put in one after another.  Tables that take rows as they are
given have these rows next to those that they had, and then no other table has changed. -/
structure Fills (engine : Engine σ φ) (holdings : Holdings σ δ) (clock : Clock) (keys : Keys)
    (db after : σ) : Prop where
  prepared : holdings.IsPrepared after
  extends_objects : holdings.Extends db after
  run : ∃ middle, holdings.Grows db middle ∧
    (insertions clock keys).foldlM engine.insert middle = .ok after
  gains : (∀ insertion ∈ insertions clock keys,
      holdings.HasRelation db insertion.table → holdings.Takes db insertion) →
    holdings.Gains db after (insertions clock keys)

theorem Holdings.IsPrepared.congr {middle : σ} (hprepared : holdings.IsPrepared middle)
    (hobjects : holdings.objects after = holdings.objects middle) :
    holdings.IsPrepared after := by
  constructor
  · intro definition hmem
    rw [Holdings.HasRelation, hobjects]
    exact hprepared.tables definition hmem
  · intro index hmem
    rw [Holdings.HasIndex, hobjects]
    exact hprepared.indexes index hmem

theorem fills_of_foldlM (hobeys : engine.Obeys holdings) {middle : σ}
    (hgrows : holdings.Grows db middle) (hprepared : holdings.IsPrepared middle)
    (hput : (insertions clock keys).foldlM engine.insert middle = .ok after) :
    Fills engine holdings clock keys db after := by
  have hobjects := hobeys.objects_foldlM hput
  refine ⟨hprepared.congr hobjects, ?_, ⟨middle, hgrows, hput⟩, fun htakes => ?_⟩
  · obtain ⟨added, hadded, hadds⟩ := hgrows.extends_objects
    exact ⟨added, hobjects.trans hadded, hadds⟩
  · have hall : ∀ insertion ∈ insertions clock keys, holdings.Takes middle insertion := by
      intro insertion hmem
      by_cases hthere : holdings.HasRelation db insertion.table
      · exact hgrows.takes_of_takes insertion (htakes insertion hmem hthere)
      · obtain ⟨definition, hdefinition, hname⟩ := exists_definition_of_insertion hmem
        exact hgrows.takes_of_missing clock keys insertion hmem hthere
          (hname ▸ hprepared.tables definition hdefinition)
    have hgains := hobeys.gains_foldlM (insertions_apart clock keys) hall hput
    constructor
    · intro insertion hmem
      rw [hgains.rows_eq insertion hmem, hgrows.rows_eq]
    · intro table htable
      rw [hgains.others_eq table htable, hgrows.rows_eq]

/-- What a run of the seed does: nothing where there is a table of films, and else it fills the
tables or fails. -/
inductive Seeds (engine : Engine σ φ) (holdings : Holdings σ δ) (clock : Clock) (keys : Keys)
    (db : σ) : σ → Except φ Unit → Prop
  | unknown (fault : φ) : Seeds engine holdings clock keys db db (.error fault)
  | skipped (there : holdings.HasTable db "movies") :
      Seeds engine holdings clock keys db db (.ok ())
  | filled {after : σ} (missing : ¬ holdings.HasTable db "movies")
      (fills : Fills engine holdings clock keys db after) :
      Seeds engine holdings clock keys db after (.ok ())
  | failed {after : σ} {fault : φ} (missing : ¬ holdings.HasTable db "movies")
      (grows : holdings.Grows db after)
      (unchanged : holdings.IsPrepared db → after = db) :
      Seeds engine holdings clock keys db after (.error fault)

theorem seeds_seed (hobeys : engine.Obeys holdings) (clock : Clock) (keys : Keys) (db : σ) :
    Seeds engine holdings clock keys db (engine.seed clock keys db).1
      (engine.seed clock keys db).2 := by
  unfold Engine.seed
  split
  · next fault _ => exact .unknown fault
  · next hfound => exact .skipped ((hobeys.hasTable_iff hfound).mp rfl)
  · next hfound =>
      have hmissing : ¬ holdings.HasTable db "movies" := fun hthere =>
        Bool.noConfusion ((hobeys.hasTable_iff hfound).mpr hthere)
      have hgrows := hobeys.grows_createSchema db
      have hself : holdings.IsPrepared db → (engine.createSchema db).1 = db :=
        hobeys.createSchema_eq_self
      split
      · next middle done hschema =>
          have hprepared : holdings.IsPrepared middle := hobeys.isPrepared_createSchema hschema
          rw [hschema] at hgrows hself
          rw [Engine.insertAll]
          split
          · next after hdone =>
              exact .filled hmissing
                (fills_of_foldlM hobeys hgrows hprepared (Engine.foldlM_of_transact hdone))
          · exact .failed hmissing hgrows hself
      · next middle fault hschema =>
          rw [hschema] at hgrows hself
          exact .failed hmissing hgrows hself

/-- A relation that a seed adds has the exact name of its table. -/
theorem Holdings.Adds.name_eq {object : Object δ} (hadds : holdings.Adds db object)
    (hkind : object.kind = .table ∨ object.kind = .view)
    (hname : sameLetters object.name "movies" = true) :
    object.kind = .table ∧ object.name = "movies" := by
  cases hadds with
  | table hmem _ declaration =>
      have hmovies := definition_eq_of_sameLetters _ hmem moviesTable (by decide) hname
      exact ⟨rfl, congrArg TableDefinition.name hmovies⟩
  | keyIndex | index => rcases hkind with hkind | hkind <;> cases hkind

/-- A table of films that the seed makes has its exact name. -/
theorem Fills.hasTable (hfills : Fills engine holdings clock keys db after)
    (hmissing : ¬ holdings.HasRelation db "movies") : holdings.HasTable after "movies" := by
  obtain ⟨added, hobjects, hadds⟩ := hfills.extends_objects
  obtain ⟨object, hmem, hkind, hname⟩ := hfills.prepared.tables moviesTable (by decide)
  rw [hobjects] at hmem
  rcases Multiset.mem_add.mp hmem with hold | hnew
  · exact absurd ⟨object, hold, hkind, hname⟩ hmissing
  · refine ⟨object, ?_, (hadds object hnew).name_eq hkind hname⟩
    rw [hobjects]
    exact hmem

namespace Seeds

variable {fault : φ}

theorem eq_of_hasTable {result : Except φ Unit}
    (hseeds : Seeds engine holdings clock keys db after result)
    (hthere : holdings.HasTable db "movies") : after = db := by
  cases hseeds with
  | unknown | skipped => rfl
  | filled hmissing | failed hmissing => exact absurd hthere hmissing

theorem fills (hseeds : Seeds engine holdings clock keys db after (.ok ()))
    (hmissing : ¬ holdings.HasTable db "movies") : Fills engine holdings clock keys db after := by
  cases hseeds with
  | skipped hthere => exact absurd hthere hmissing
  | filled _ hfills => exact hfills

theorem grows (hseeds : Seeds engine holdings clock keys db after (.error fault)) :
    holdings.Grows db after := by
  cases hseeds with
  | unknown => exact .refl holdings db
  | failed _ hgrows _ => exact hgrows

theorem hasTable (hseeds : Seeds engine holdings clock keys db after (.ok ()))
    (hmissing : ¬ holdings.HasRelation db "movies") : holdings.HasTable after "movies" := by
  cases hseeds with
  | skipped hthere => exact hthere
  | filled _ hfills => exact hfills.hasTable hmissing

theorem isPrepared (hseeds : Seeds engine holdings clock keys db after (.ok ()))
    (hmissing : ¬ holdings.HasTable after "movies") : holdings.IsPrepared after := by
  cases hseeds with
  | skipped hthere => exact absurd hthere hmissing
  | filled _ hfills => exact hfills.prepared

theorem eq_of_isPrepared (hseeds : Seeds engine holdings clock keys db after (.error fault))
    (hprepared : holdings.IsPrepared db) : after = db := by
  cases hseeds with
  | unknown => rfl
  | failed _ _ hunchanged => exact hunchanged hprepared

end Seeds

/-- For all databases and all engines whose statements do what is documented of them, a run of
the seed changes nothing next to a table of films.  Otherwise it fills the tables of the demo or
fails, and then all that was there is as it was, with empty tables and indexes next to it.  A
further run, of any engine, changes nothing next to a table of exactly that name, though it may
be one that a failed run left empty.  A run that made this table is so followed by runs that
change nothing.  After one that found it under a name in other letters, a further run puts all
rows in again or fails without a change. -/
theorem seed_outcomes {later : Engine σ φ} (hobeys : engine.Obeys holdings)
    (hlater : later.Obeys holdings) (clock laterClock : Clock) (keys laterKeys : Keys) (db : σ) :
    let seeded := engine.seed clock keys db
    let again := later.seed laterClock laterKeys seeded.1
    (holdings.HasTable db "movies" → seeded.1 = db) ∧
    (¬ holdings.HasTable db "movies" → seeded.2 = .ok () →
      Fills engine holdings clock keys db seeded.1) ∧
    (∀ fault, seeded.2 = .error fault → holdings.Grows db seeded.1) ∧
    (holdings.HasTable seeded.1 "movies" → again.1 = seeded.1) ∧
    (seeded.2 = .ok () → ¬ holdings.HasRelation db "movies" →
      holdings.HasTable seeded.1 "movies") ∧
    (seeded.2 = .ok () → ¬ holdings.HasTable seeded.1 "movies" →
      (again.2 = .ok () → Fills later holdings laterClock laterKeys seeded.1 again.1) ∧
      ∀ fault, again.2 = .error fault → again.1 = seeded.1) := by
  intro seeded again
  have hseeds : Seeds engine holdings clock keys db seeded.1 seeded.2 :=
    seeds_seed hobeys clock keys db
  have hagain : Seeds later holdings laterClock laterKeys seeded.1 again.1 again.2 :=
    seeds_seed hlater laterClock laterKeys seeded.1
  refine ⟨hseeds.eq_of_hasTable, fun hmissing hok => ?_, fun fault herror => ?_,
    hagain.eq_of_hasTable, fun hok hmissing => ?_, fun hok hmissing => ⟨fun hagainOk => ?_,
    fun fault herror => ?_⟩⟩
  · rw [hok] at hseeds
    exact hseeds.fills hmissing
  · rw [herror] at hseeds
    exact hseeds.grows
  · rw [hok] at hseeds
    exact hseeds.hasTable hmissing
  · rw [hagainOk] at hagain
    exact hagain.fills hmissing
  · rw [hok] at hseeds
    rw [herror] at hagain
    exact hagain.eq_of_isPrepared (hseeds.isPrepared hmissing)

end Runs

/-- Keys that tell runs apart. -/
def keysOfRun (run : UInt8) : Keys :=
  ⟨fun n => [run, 1, .ofNat n], fun n => [run, 2, .ofNat n], fun n => [run, 3, .ofNat n]⟩

/-- An empty database is seeded once. -/
theorem seed_outcomes_empty :
    let first := memoryEngine.seed (atOnce 0) (keysOfRun 1) .empty
    first.2 = .ok () ∧
      Fills memoryEngine memoryHoldings (atOnce 0) (keysOfRun 1) .empty first.1 ∧
      memoryHoldings.Gains .empty first.1 (insertions (atOnce 0) (keysOfRun 1)) ∧
      (memoryEngine.seed (atOnce 1) (keysOfRun 2) first.1).1 = first.1 := by
  intro first
  have hmissing (name : Text) : ¬ memoryHoldings.HasRelation .empty name := by
    rw [hasRelation_iff]
    exact Bool.false_ne_true
  obtain ⟨-, hfills, -, hskips, hnamed, -⟩ :=
    seed_outcomes memoryEngine_obeys memoryEngine_obeys (atOnce 0) (atOnce 1) (keysOfRun 1)
      (keysOfRun 2) .empty
  have hok : first.2 = .ok () := rfl
  have hfilled := hfills (fun hthere => hmissing _ hthere.hasRelation) hok
  exact ⟨hok, hfilled, hfilled.gains fun _ _ hthere => absurd hthere (hmissing _),
    hskips (hnamed hok (hmissing _))⟩

def rowCount? (db : Database) (name : Text) : Option Nat :=
  match db.relation? name with
  | some (.table stored) => some stored.rows.length
  | _ => none

/-- Tables for films and screenings, one with a name in capitals. -/
def capitalTables : Database :=
  ⟨[.table (.ofRows "MOVIES"
        [⟨"id", "BLOB"⟩, ⟨"title", "TEXT"⟩, ⟨"year", "INTEGER"⟩, ⟨"rating", "REAL"⟩,
          ⟨"genre_id", "BLOB"⟩, ⟨"director_id", "BLOB"⟩, ⟨"created_at", "TEXT"⟩] []),
      .table (.ofRows "screenings"
        [⟨"movie_id", "BLOB"⟩, ⟨"cinema", "TEXT"⟩, ⟨"seats_sold", "INTEGER"⟩,
          ⟨"starts_at", "TEXT"⟩] [])], []⟩

/-- A table of screenings without the column of an index. -/
def otherScreenings : Database :=
  ⟨[.table (.ofRows "screenings" [⟨"x", "INTEGER"⟩] [[.integer 1]])], []⟩

/-- A second run that succeeds doubles the rows, and a run that fails leaves tables behind, for
which the next one reports success. -/
theorem seed_repeats_and_leaves_tables :
    (let first := seed 0 (keysOfRun 1) capitalTables
      let second := seed 0 (keysOfRun 2) first.1
      first.2 = .ok () ∧ second.2 = .ok () ∧
        rowCount? first.1 "movies" = some 10 ∧ rowCount? second.1 "movies" = some 20) ∧
      (let failed := seed 0 (keysOfRun 1) otherScreenings
      let next := seed 0 (keysOfRun 2) failed.1
      failed.2 = .error (.noSuchColumn "starts_at") ∧
        failed.1.relations.map (·.name) = ["screenings", "genres", "directors", "movies"] ∧
        next.2 = .ok () ∧ rowCount? next.1 "movies" = some 0) := by
  decide +kernel

end TableBrowser.Database.Demo
