import TableBrowser.Proofs.Database.Schema

/-!
# Putting rows into tables

Insertions make no objects.  Into tables that take rows as they are given, insertions of
different names do not touch each other, and all of them are done or none.
-/

namespace TableBrowser.Database.Demo

open TableBrowser.Text (sameLetters sameLetters_comm)

section Insertions

variable {σ φ δ : Type} {engine : Engine σ φ} {holdings : Holdings σ δ} {db after : σ}
variable {all : List Insertion}

/-- The tables of the insertions have got their rows, and those of other names have got none. -/
structure Holdings.Gains (holdings : Holdings σ δ) (db after : σ) (all : List Insertion) :
    Prop where
  rows_eq : ∀ insertion ∈ all,
    holdings.rows after insertion.table insertion.columns =
      holdings.rows db insertion.table insertion.columns + insertion.rows
  others_eq : ∀ table, (∀ insertion ∈ all, sameLetters table insertion.table = false) →
    holdings.rows after table = holdings.rows db table

theorem insertions_apart (clock : Clock) (keys : Keys) :
    (insertions clock keys).Pairwise fun left right =>
      sameLetters left.table right.table = false := by
  have hapart : (tableDefinitions.map (·.name)).Pairwise fun left right =>
      sameLetters left right = false := by decide
  rw [← tables_insertions clock keys] at hapart
  exact List.pairwise_map.mp hapart

namespace Engine

theorem foldlM_of_transact (hdone : engine.transact db all = .ok after) :
    all.foldlM engine.insert db = .ok after := by
  simp only [transact, bind, Except.bind] at hdone
  split at hdone
  · cases hdone
  · split at hdone
    · cases hdone
    · next filled hfilled =>
        split at hdone
        · cases hdone
        · cases hdone
          exact hfilled

namespace Obeys

theorem objects_foldlM (hobeys : engine.Obeys holdings)
    (hput : all.foldlM engine.insert db = .ok after) :
    holdings.objects after = holdings.objects db := by
  induction all generalizing db with
  | nil =>
      cases hput
      rfl
  | cons first rest ih =>
      rw [List.foldlM_cons] at hput
      cases hfirst : engine.insert db first with
      | error fault =>
          rw [hfirst] at hput
          cases hput
      | ok middle =>
          rw [hfirst] at hput
          exact (ih hput).trans (hobeys.insert_objects hfirst)

theorem gains_foldlM (hobeys : engine.Obeys holdings)
    (hapart : all.Pairwise fun left right => sameLetters left.table right.table = false)
    (htakes : ∀ insertion ∈ all, holdings.Takes db insertion)
    (hput : all.foldlM engine.insert db = .ok after) : holdings.Gains db after all := by
  induction all generalizing db with
  | nil =>
      cases hput
      exact ⟨fun _ hmem => absurd hmem List.not_mem_nil, fun _ _ => rfl⟩
  | cons first rest ih =>
      obtain ⟨hothers, hrest⟩ := List.pairwise_cons.mp hapart
      obtain ⟨htakesFirst, htakesRest⟩ := List.forall_mem_cons.mp htakes
      rw [List.foldlM_cons] at hput
      cases hfirst : engine.insert db first with
      | error fault =>
          rw [hfirst] at hput
          cases hput
      | ok middle =>
          rw [hfirst] at hput
          have hgains : holdings.Gains middle after rest :=
            ih hrest (fun insertion hmem =>
              hobeys.insert_takes hfirst insertion (htakesRest insertion hmem)) hput
          have hunchanged := hobeys.insert_others hfirst htakesFirst
          refine ⟨List.forall_mem_cons.mpr ⟨?_, fun insertion hmem => ?_⟩, fun table htable => ?_⟩
          · rw [hgains.others_eq first.table hothers]
            exact hobeys.insert_rows hfirst htakesFirst
          · have hother := hothers insertion hmem
            rw [sameLetters_comm] at hother
            rw [hgains.rows_eq insertion hmem, hunchanged insertion.table hother]
          · -- Each step changes the rows of one name, so other names go through all steps.
            obtain ⟨hother, hlater⟩ := List.forall_mem_cons.mp htable
            rw [hgains.others_eq table hlater, hunchanged table hother]

end Obeys

end Engine

end Insertions

end TableBrowser.Database.Demo
