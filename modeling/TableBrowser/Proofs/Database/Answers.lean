import TableBrowser.Database.Query
import TableBrowser.Proofs.Database.Arrangement
import TableBrowser.Proofs.Database.Contents
import TableBrowser.Proofs.Database.Readable

/-!
# What a database in memory answers

A database in memory answers the statements over a table or view as its contents demand: it
counts the rows of which a clause is true, and it lists them in an order that depends neither
on the limit nor on the offset.
-/

namespace TableBrowser.Database

open TableBrowser.Filter TableBrowser.Sql TableBrowser.Paging

/-- The test of what a comparison says. -/
def Test.ofProposition (now : Int) (scope : Scope) (proposition : Proposition) : Test :=
  ⟨scope.reference? now proposition.column, proposition.comparator,
    comparandCell now proposition.comparand⟩

/-- What a table or view of a database in memory shows at a moment. -/
def Source.contents (source : Source) (now : Int) : Contents Entry where
  columns := source.columns.map (·.name)
  rows := entries source.table
  cells := Entry.cells
  truth proposition := (Test.ofProposition now (.ofSource source) proposition).truth
  order column a b :=
    (sortCell (.ofSource source) column a).order (sortCell (.ofSource source) column b)

variable {db : Database} {now : Int} {source : Source} {text : Text}

theorem selected_contents (source : Source) (now : Int)
    (groups? : Option (List (List Comparison))) :
    (source.contents now).selected (groups?.map clauseOf) =
      selectedRows source now (groups?.map clauseOf) := by
  cases groups? with
  | none => rfl
  | some groups =>
      refine List.filter_congr fun entry _ => ?_
      rw [testsOf, Clause.truth_clauseOf, clauseOf, formulaMap_leaves, formulaTruth_leaves,
        List.map_map]
      simp only [Function.comp_def, List.map_map]
      rfl

theorem isListing_arrangedRows (hkept : source.table.IsKept) (db : Database)
    (groups? : Option (List (List Comparison))) (order? : Option SortOrder) :
    (source.contents now).IsListing ((source.contents now).selected (groups?.map clauseOf)) order?
      (arrangedRows db source now (groups?.map clauseOf) order?) where
  perm := selected_contents source now groups? ▸
    arrangedRows_perm db source now (groups?.map clauseOf) order?
  sorted := by
    rintro order rfl
    exact isSorted_arrangedRows hkept db groups? order

/-! ## Running a statement -/

/-- What a statement over a source is answered with. -/
def answerOver (db : Database) (source : Source) (now : Int) (limits : Limits)
    (statement : Statement) : Answer :=
  if statement.counts then .count (selectedRows source now statement.clause?).length
  else
    let arranged := arrangedRows db source now statement.clause? statement.order?
    let shown :=
      if statement.paged then (arranged.drop limits.offset).take limits.limit else arranged
    .rows (source.columns.map (·.name)) (shown.map (·.cells))

theorem answer_of_no_source {statement : Statement} {reason : Reason}
    (hsource : db.source statement.table = .error reason) (now : Int) (limits : Limits) :
    db.answer now limits statement = .error ⟨reason, none⟩ := by
  unfold answer
  rw [hsource]
  rfl

/-- A statement over a source is refused for its clause or answered. -/
theorem answer_of_source {statement : Statement} (hsource : db.source statement.table = .ok source)
    (now : Int) (limits : Limits) :
    db.answer now limits statement =
      match statement.clause?.bind (refusal? source now) with
      | some refusal => .error refusal
      | none => .ok (answerOver db source now limits statement) := by
  unfold answer
  rw [hsource]
  cases hrefusal : statement.clause?.bind (refusal? source now) with
  | some refusal => simp only [Except.mapError, bind, Except.bind, hrefusal]; rfl
  | none =>
      simp only [Except.mapError, bind, Except.bind, hrefusal]
      unfold answerOver
      cases statement.counts <;> rfl

theorem run_of_refusal {refusal : Refusal} (hread : readStatement text = .error refusal)
    (now : Int) (limits : Limits) : db.run now limits text = .error refusal := by
  rw [run, hread]
  rfl

theorem run_of_statement {statement : Statement} (hread : readStatement text = .ok statement)
    (now : Int) (limits : Limits) :
    db.run now limits text = db.answer now limits statement := by
  rw [run, hread]
  rfl

/-- A text that is answered is answered as the statement that it is read as. -/
theorem run_eq_ok {statement : Statement} (hread : Statement.read .sqlite text = .ok statement)
    (hsource : db.source statement.table = .ok source) {limits : Limits} {found : Answer}
    (hrun : db.run now limits text = .ok found) :
    found = answerOver db source now limits statement := by
  cases haccepted : readStatement text with
  | error refusal =>
      rw [run_of_refusal haccepted] at hrun
      cases hrun
  | ok accepted =>
      rw [run_of_statement haccepted, readStatement_eq_of_read hread haccepted,
        answer_of_source hsource] at hrun
      cases hrefusal : statement.clause?.bind (refusal? source now) with
      | some refusal =>
          rw [hrefusal] at hrun
          cases hrun
      | none =>
          rw [hrefusal] at hrun
          exact (Except.ok.inj hrun).symm

/-- Neither a limit nor an offset is a reason to refuse a statement. -/
theorem exists_run_of_run {limits : Limits} {found : Answer}
    (hrun : db.run now limits text = .ok found) (others : Limits) :
    ∃ answered, db.run now others text = .ok answered := by
  cases hread : readStatement text with
  | error refusal =>
      rw [run_of_refusal hread] at hrun
      cases hrun
  | ok statement =>
      rw [run_of_statement hread] at hrun ⊢
      cases hsource : db.source statement.table with
      | error reason =>
          rw [answer_of_no_source hsource] at hrun
          cases hrun
      | ok source =>
          rw [answer_of_source hsource] at hrun ⊢
          cases hrefusal : statement.clause?.bind (refusal? source now) with
          | some refusal =>
              rw [hrefusal] at hrun
              cases hrun
          | none => exact ⟨_, rfl⟩

/-! ## The connection to a database -/

/-- The question for a relation is no statement over one table. -/
theorem ne_relationCountText {counts paged : Bool} {table : Text}
    {groups? : Option (List (List Comparison))} {order? : Option SortOrder}
    (hreads : ReadsAs text counts table groups? order? paged) :
    text ≠ Connection.relationCountText := by
  rintro rfl
  obtain ⟨statement, hread, -⟩ := hreads
  have hnone : (Statement.read .sqlite Connection.relationCountText).toOption.isNone = true := by
    decide +kernel
  rw [hread] at hnone
  cases hnone

/-- A database in memory shows the contents of its tables and views. -/
theorem connection_shows (hkept : db.IsKept) {table : Text}
    (hsource : db.source table = .ok source) :
    db.connection.Shows table source.contents where
  counts := by
    intro moment text groups? count hreads hcount
    have hother := ne_relationCountText hreads
    obtain ⟨statement, hread, hcounts, htable, hclause, -, -⟩ := hreads
    simp only [connection, if_neg hother] at hcount
    cases hrun : db.run moment ⟨0, 0⟩ text with
    | error refusal =>
        rw [hrun] at hcount
        cases hcount
    | ok found =>
        have hfound := run_eq_ok hread (htable ▸ hsource) hrun
        rw [answerOver, hcounts, if_pos rfl, hclause, ← selected_contents] at hfound
        rw [hrun, hfound] at hcount
        exact (Except.ok.inj hcount).symm
  lists := by
    intro moment text groups? order? hreads
    obtain ⟨statement, hread, hcounts, htable, hclause, horder, hpaged⟩ := hreads
    refine ⟨_, isListing_arrangedRows (hkept.sourceBehind hsource) db groups? order?, ?_⟩
    intro limit offset columns rows hrows
    simp only [connection] at hrows
    cases hrun : db.run moment ⟨limit, offset⟩ text with
    | error refusal =>
        rw [hrun] at hrows
        cases hrows
    | ok found =>
        have hfound := run_eq_ok hread (htable ▸ hsource) hrun
        rw [answerOver, hcounts, if_neg Bool.false_ne_true, hpaged, hclause, horder] at hfound
        rw [hrun, hfound] at hrows
        cases hrows
        exact ⟨rfl, rfl⟩
  fits := by
    intro moment
    show (entries source.table).length < integerBound
    rw [entries, List.length_map, List.length_zipIdx]
    exact (hkept.sourceBehind hsource).rows_lt

theorem exists_rows_of_rows {moment : Int} {limit offset : Nat} {found : List Text × List Row}
    (hrows : db.connection.rows moment text limit offset = .ok found) (limit' offset' : Nat) :
    ∃ shown, db.connection.rows moment text limit' offset' = .ok shown := by
  cases hrun : db.run moment ⟨limit, offset⟩ text with
  | error refusal =>
      simp only [connection, hrun] at hrows
      cases hrows
  | ok answered =>
      obtain ⟨other, hother⟩ := exists_run_of_run hrun ⟨limit', offset'⟩
      simp only [connection, hother]
      cases other <;> exact ⟨_, rfl⟩

end TableBrowser.Database
