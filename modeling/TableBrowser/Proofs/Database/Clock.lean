import TableBrowser.Proofs.Database.Answers

/-!
# Statements that do not speak of the time

Only dates and the words of the clock have other values later.  A database that stays as it is
answers a statement without them alike at all moments.  So does a database in memory: what the
words of a clause refer to, whether they are refused and how it goes about the clause are the
same at all moments.
-/

namespace TableBrowser

open TableBrowser.Filter TableBrowser.Paging TableBrowser.Sql

/-- The words that stand for the time at which they are read. -/
def clockWords : List Text :=
  ["current_date", "current_time", "current_timestamp"]

/-- Neither side of a comparison is about the time. -/
structure Sql.Proposition.IsTimeless (proposition : Proposition) : Prop where
  column : ∀ word ∈ clockWords, Text.sameLetters word proposition.column = false
  comparand : ∀ moment, proposition.comparand ≠ .moment moment

/-- No comparison of a clause is about the time. -/
def AreTimeless (groups? : Option (List (List Comparison))) : Prop :=
  ∀ groups, groups? = some groups → ∀ group ∈ groups, ∀ comparison ∈ group,
    (Proposition.ofComparison comparison).IsTimeless

/-- No condition of a filter is about the time. -/
def IsTimelessFilter (filter? : Option Predicate) : Prop :=
  ∀ predicate, filter? = some predicate → ∀ condition ∈ predicate.conditions,
    (Proposition.ofCondition condition).IsTimeless

/-- A table that stays as it is: its statements are answered alike at all moments, unless they
speak of the time. -/
structure Connection.IsSteady (connection : Connection) (table : Text) : Prop where
  counts : ∀ text groups?, ReadsAs text true table groups? none false → AreTimeless groups? →
    ∀ now later, connection.number later text [] = connection.number now text []
  lists : ∀ text groups? order?, ReadsAs text false table groups? order? true →
    AreTimeless groups? → ∀ now later limit offset,
      connection.rows later text limit offset = connection.rows now text limit offset

namespace Database

variable (source : Source) (now later : Int)

/-! ## Plans -/

/-- A word refers to the same at all moments, or to a constant at each. -/
theorem reference?_congr (scope : Scope) (word : Text) :
    scope.reference? now word = scope.reference? later word ∨
      ∃ left right, scope.reference? now word = some (.constant left) ∧
        scope.reference? later word = some (.constant right) := by
  rw [Scope.reference?, Scope.reference?]
  split
  · exact .inl rfl
  · cases ConstantWord.ofWord? word with
    | none => exact .inl rfl
    | some constant => exact .inr ⟨_, _, rfl, rfl⟩

theorem isNone_reference?_congr (scope : Scope) (word : Text) :
    (scope.reference? now word).isNone = (scope.reference? later word).isNone := by
  rcases reference?_congr now later scope word with heq | ⟨left, right, hnow, hlater⟩
  · rw [heq]
  · rw [hnow, hlater]
    rfl

theorem soughtOf?_congr (word : Text) :
    (Subject.ofSource source now).soughtOf? word =
      (Subject.ofSource source later).soughtOf? word := by
  show ((Scope.ofSource source).reference? now word).bind (Subject.ofSource source now).soughtBy? =
    ((Scope.ofSource source).reference? later word).bind (Subject.ofSource source later).soughtBy?
  rcases reference?_congr now later (.ofSource source) word with heq | ⟨left, right, hnow, hlater⟩
  · rw [heq]
    rfl
  · rw [hnow, hlater]
    rfl

theorem factorTerm_congr (factor : Factor Comparison) :
    factorTerm (.ofSource source now) factor = factorTerm (.ofSource source later) factor := by
  cases factor with
  | leaf comparison =>
      rw [factorTerm, factorTerm, comparisonTerm, comparisonTerm, soughtOf?_congr source now later]
  | any groups => simp only [factorTerm, soughtOf?_congr source now later]

theorem patternTerms_congr (place : Nat) (comparison : Comparison) :
    patternTerms (.ofSource source now) place comparison =
      patternTerms (.ofSource source later) place comparison := by
  rw [patternTerms, patternTerms, soughtOf?_congr source now later]
  rfl

theorem groupTerms_congr :
    groupTerms (.ofSource source now) = groupTerms (.ofSource source later) := by
  funext group
  have hfactors : factorTerm (.ofSource source now) = factorTerm (.ofSource source later) :=
    funext (factorTerm_congr source now later)
  have hpatterns : patternTerms (.ofSource source now) = patternTerms (.ofSource source later) :=
    funext fun place => funext (patternTerms_congr source now later place)
  rw [groupTerms, groupTerms, hfactors, hpatterns]

theorem termsOf_congr (clause? : Option Clause) :
    Plan.termsOf (.ofSource source now) clause? =
      Plan.termsOf (.ofSource source later) clause? := by
  unfold Plan.termsOf
  rw [groupTerms_congr source now later]
  rfl

/-- A database does not look at the clock to plan how it visits the rows of a clause. -/
theorem choose_congr (indexes : List Index) (clause? : Option Clause)
    (order? : Option SortOrder) :
    Plan.choose (.ofSource source now) indexes clause? order? =
      Plan.choose (.ofSource source later) indexes clause? order? := by
  unfold Plan.choose
  rw [termsOf_congr source now later]
  rfl

/-! ## Tests -/

variable {now later}

theorem name_mem_clockWords {word : ConstantWord} (hclock : word ≠ .nothing) :
    word.name ∈ clockWords := by
  cases word with
  | nothing => exact absurd rfl hclock
  | currentDate | currentTime | currentTimestamp => decide

theorem reference?_eq_of_isTimeless (scope : Scope) {proposition : Proposition}
    (htimeless : proposition.IsTimeless) :
    scope.reference? now proposition.column = scope.reference? later proposition.column := by
  rw [Scope.reference?, Scope.reference?]
  split
  · rfl
  · cases hword : ConstantWord.ofWord? proposition.column with
    | none => rfl
    | some word =>
        have hsame : Text.sameLetters word.name proposition.column = true :=
          List.find?_some (p := fun word : ConstantWord =>
            Text.sameLetters word.name proposition.column) hword
        have hnothing : word = .nothing := by
          by_contra hclock
          rw [htimeless.column _ (name_mem_clockWords hclock)] at hsame
          cases hsame
        rw [hnothing]
        rfl

/-- The test of a comparison that is not about the time is the same at all moments. -/
theorem ofComparison_eq_of_isTimeless (scope : Scope) {comparison : Comparison}
    (htimeless : (Proposition.ofComparison comparison).IsTimeless) :
    Test.ofComparison now scope comparison = Test.ofComparison later scope comparison := by
  have hreference : scope.reference? now comparison.column.value =
      scope.reference? later comparison.column.value := reference?_eq_of_isTimeless scope htimeless
  have hright : comparandCell now comparison.comparand.value =
      comparandCell later comparison.comparand.value := by
    cases hcomparand : comparison.comparand.value with
    | number | string | bytes => rfl
    | moment moment => exact absurd hcomparand (htimeless.comparand moment)
  rw [Test.ofComparison, Test.ofComparison, hright]
  exact congrArg (fun reference? => Test.mk reference? _ _) hreference

variable {db : Database} {groups? : Option (List (List Comparison))}

theorem map_testsOf_eq (htimeless : AreTimeless groups?) :
    (groups?.map clauseOf).map (testsOf source now) =
      (groups?.map clauseOf).map (testsOf source later) := by
  cases groups? with
  | none => rfl
  | some groups =>
      have htests : groups.map (·.map (Test.ofComparison now (.ofSource source))) =
          groups.map (·.map (Test.ofComparison later (.ofSource source))) :=
        List.map_congr_left fun group hgroup => List.map_congr_left fun comparison hmem =>
          ofComparison_eq_of_isTimeless _ (htimeless groups rfl group hgroup comparison hmem)
      simp only [Option.map_some, testsOf, clauseOf, formulaMap_leaves, htests]

/-! ## Answers -/

theorem clauseRefusal?_congr (now later : Int) (scope : Scope) :
    clauseRefusal? now scope = clauseRefusal? later scope := by
  funext clause
  simp only [clauseRefusal?, isNone_reference?_congr now later]

theorem refusal?_eq_of_tests {clause : Clause}
    (htests : testsOf source now clause = testsOf source later clause) :
    refusal? source now clause = refusal? source later clause := by
  rw [refusal?, refusal?, clauseRefusal?_congr now later]
  simp only [testsOf] at htests
  rw [htests]

theorem answerOver_eq_of_tests {statement : Statement}
    (htests : statement.clause?.map (testsOf source now) =
      statement.clause?.map (testsOf source later)) (limits : Limits) :
    answerOver db source now limits statement = answerOver db source later limits statement := by
  have harranged : arrangedRows db source now statement.clause? statement.order? =
      arrangedRows db source later statement.clause? statement.order? := by
    rw [arrangedRows, arrangedRows, selectedRows, selectedRows, htests,
      choose_congr source now later]
  rw [answerOver, answerOver, selectedRows, selectedRows, htests, harranged]

theorem answer_eq_of_tests {statement : Statement}
    (htests : ∀ source, statement.clause?.map (testsOf source now) =
      statement.clause?.map (testsOf source later)) (limits : Limits) :
    db.answer now limits statement = db.answer later limits statement := by
  cases hsource : db.source statement.table with
  | error reason => rw [answer_of_no_source hsource, answer_of_no_source hsource]
  | ok source =>
      have hrefusal : statement.clause?.bind (refusal? source now) =
          statement.clause?.bind (refusal? source later) := by
        have hsame := htests source
        cases hclause : statement.clause? with
        | none => rfl
        | some clause =>
            rw [hclause] at hsame
            exact refusal?_eq_of_tests source (Option.some.inj hsame)
      rw [answer_of_source hsource, answer_of_source hsource, hrefusal,
        answerOver_eq_of_tests source (htests source)]

/-- A statement that does not speak of the time is answered alike at all moments. -/
theorem run_eq_of_areTimeless {text table : Text} {counts paged : Bool}
    {order? : Option SortOrder} (hreads : ReadsAs text counts table groups? order? paged)
    (htimeless : AreTimeless groups?) (limits : Limits) :
    db.run now limits text = db.run later limits text := by
  obtain ⟨statement, hwhole, -, -, hclause, -, -⟩ := hreads
  cases hread : readStatement text with
  | error refusal => rw [run_of_refusal hread, run_of_refusal hread]
  | ok accepted =>
      rw [run_of_statement hread, run_of_statement hread, readStatement_eq_of_read hwhole hread]
      refine answer_eq_of_tests (fun source => ?_) limits
      rw [hclause]
      exact map_testsOf_eq source htimeless

/-- A database in memory stays as it is. -/
theorem connection_isSteady (db : Database) (table : Text) : db.connection.IsSteady table where
  counts := by
    intro text groups? hreads htimeless now later
    have hrun : db.run later ⟨0, 0⟩ text = db.run now ⟨0, 0⟩ text :=
      run_eq_of_areTimeless hreads htimeless _
    simp only [connection, hrun]
  lists := by
    intro text groups? order? hreads htimeless now later limit offset
    have hrun : db.run later ⟨limit, offset⟩ text = db.run now ⟨limit, offset⟩ text :=
      run_eq_of_areTimeless hreads htimeless _
    simp only [connection, hrun]

end Database

end TableBrowser
