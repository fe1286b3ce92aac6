import TableBrowser.Proofs.Database.Clock
import TableBrowser.Proofs.Database.TextColumn

/-!
# Columns that a filter refers to

The column of a condition is written bare, so a database reads it as a word of its own.  The
word refers to the column unless it begins with a digit or stands for a constant: then the
condition is about the constant, and a filter on the column selects all rows or none.
-/

namespace TableBrowser

open TableBrowser.Database (IsName isName_congr)
open TableBrowser.Filter TableBrowser.Sql TableBrowser.Paging
open TableBrowser.Text (sameLetters)

/-! ## What is relied on of bare words -/

/-- The connection answers a statement, by a number or by rows. -/
def Connection.Answers (connection : Connection) (moment : Int) (text : Text) : Prop :=
  (∃ count, connection.number moment text [] = .ok count) ∨
    ∃ limit offset found, connection.rows moment text limit offset = .ok found

/-- What is documented of the bare words of a clause, by the places of the columns that they
refer to.  Words that begin with a digit are numbers, and the words of constants are constants.
Any other word of a clause that is answered refers to the column of its letters, if there is
one. -/
structure Connection.ReadsWords {ε : Type} (connection : Connection) (table : Text)
    (contents : Int → Contents ε) (refers? : Text → Option Nat) : Prop where
  cell : ∀ moment proposition place, refers? proposition.column = some place →
    ∀ a b, ((contents moment).cells a)[place]? = ((contents moment).cells b)[place]? →
      (contents moment).truth proposition a = (contents moment).truth proposition b
  constant : ∀ moment proposition, ¬ IsName proposition.column →
    ∀ a b, (contents moment).truth proposition a = (contents moment).truth proposition b
  unnamed : ∀ word, ¬ IsName word → refers? word = none
  named : ∀ moment text counts groups order? paged,
    ReadsAs text counts table (some groups) order? paged → connection.Answers moment text →
    ∀ group ∈ groups, ∀ comparison ∈ group, IsName comparison.column.value →
    ∀ place column, (contents moment).columns[place]? = some column →
      sameLetters column comparison.column.value = true →
      refers? comparison.column.value = some place

namespace Connection.ReadsWords

variable {ε : Type} {connection : Connection} {table name : Text} {contents : Int → Contents ε}
variable {refers? : Text → Option Nat} {place : Nat} {predicate : Predicate} {moment : Int}

/-- Where all conditions are about a column, its cell decides whether a row matches. -/
theorem truth_eq_of_cells (hwords : connection.ReadsWords table contents refers?)
    (hrefers : ∀ condition ∈ predicate.conditions, refers? condition.column.value = some place)
    {a b : ε}
    (hcells : ((contents moment).cells a)[place]? = ((contents moment).cells b)[place]?) :
    predicate.truth ((contents moment).truth · a) =
      predicate.truth ((contents moment).truth · b) :=
  Predicate.truth_congr fun condition hcondition =>
    hwords.cell moment (.ofCondition condition) place (hrefers condition hcondition) a b hcells

/-- Where all conditions are about constants, a filter has the same truth for all rows. -/
theorem truth_eq_of_constants (hwords : connection.ReadsWords table contents refers?)
    (hconstants : ∀ condition ∈ predicate.conditions, ¬ IsName condition.column.value)
    (a b : ε) :
    predicate.truth ((contents moment).truth · a) =
      predicate.truth ((contents moment).truth · b) :=
  Predicate.truth_congr fun condition hcondition =>
    hwords.constant moment (.ofCondition condition) (hconstants condition hcondition) a b

/-- The left side of a comparison that is answered refers to the column of its letters exactly
if this column has a name that is neither a number nor a constant. -/
theorem refers_iff (hwords : connection.ReadsWords table contents refers?)
    (hcolumn : ∀ moment, (contents moment).columns[place]? = some name)
    (hnamed : ∀ condition ∈ predicate.conditions,
      sameLetters condition.column.value name = true)
    {text : Text} {counts paged : Bool} {groups : List (List Comparison)}
    {order? : Option SortOrder} (hreads : ReadsAs text counts table (some groups) order? paged)
    (hmeans : GroupsSay text (some predicate) (some groups))
    (hanswered : connection.Answers moment text) {group : List Comparison}
    (hgroup : group ∈ groups) {comparison : Comparison} (hmem : comparison ∈ group) :
    refers? comparison.column.value = some place ↔ IsName name := by
  obtain ⟨condition, hcondition, hsame⟩ := hmeans.exists_condition hgroup hmem
  have hword : comparison.column.value = condition.column.value :=
    congrArg Proposition.column hsame
  have hletters : sameLetters comparison.column.value name = true :=
    hword ▸ hnamed condition hcondition
  rw [← isName_congr hletters]
  constructor
  · intro hrefers
    by_contra hconstant
    rw [hwords.unnamed _ hconstant] at hrefers
    cases hrefers
  · intro hisName
    refine hwords.named moment text counts groups order? paged hreads hanswered group hgroup
      comparison hmem hisName place name (hcolumn moment) ?_
    rw [Text.sameLetters_comm]
    exact hletters

end Connection.ReadsWords

/-! ## Fetching by a filter on one column -/

/-- The statements of a page are read back with a clause that says what the filter says. -/
theorem exists_groups_of_statements {table : Text} {predicate : Predicate}
    (htyped : IsTypedFilter (some predicate)) {request : PageRequest}
    (hclause : request.clause? = some (predicateText .sqlite predicate)) :
    ∀ text ∈ [countText table request.clause?,
        pageText table request.clause? request.orderBy? request.direction?],
      ∃ counts groups order? paged, ReadsAs text counts table (some groups) order? paged ∧
        GroupsSay text (some predicate) (some groups) := by
  have hrow (counts : Bool) (order? : Option SortOrder) (paged : Bool) :
      ∃ groups, ReadsAs (rowText (statementRow .sqlite counts table (some predicate) order?
          paged)) counts table (some groups) order? paged ∧
        GroupsSay (rowText (statementRow .sqlite counts table (some predicate) order? paged))
          (some predicate) (some groups) := by
    obtain ⟨groups?, hreads, hmeans⟩ := readsAs_statementRow counts table htyped order? paged
    cases groups? with
    | none => cases hmeans
    | some groups => exact ⟨groups, hreads, hmeans⟩
  have hcount := hrow true none false
  have hpage := hrow false (sortOrder? request.orderBy? request.direction?) true
  rw [rowText_countRow, Option.map_some, ← hclause] at hcount
  rw [rowText_pageRow, Option.map_some, ← hclause] at hpage
  obtain ⟨counted, hcounted⟩ := hcount
  obtain ⟨listed, hlisted⟩ := hpage
  exact List.forall_mem_cons.mpr ⟨⟨_, counted, _, _, hcounted⟩,
    List.forall_mem_singleton.mpr ⟨_, listed, _, _, hlisted⟩⟩

/-- For all tables and views and every filter on one column that is compiled and of which a page
is answered: the left sides of the comparisons in its statements refer to the column exactly if
the name of the column is neither a number nor a constant.  Then the cells of the column alone
decide which rows are selected.  Otherwise all rows are selected or none. -/
theorem Connection.refers_to_its_column_iff {ε : Type} {connection : Connection} {table : Text}
    {contents : Int → Contents ε} (hshows : connection.Shows table contents)
    {refers? : Text → Option Nat} (hwords : connection.ReadsWords table contents refers?)
    {name : Text} {place : Nat}
    (hcolumn : ∀ moment, (contents moment).columns[place]? = some name)
    {columns : List Column} {source : Text} {predicate : Predicate}
    (hread : Predicate.read columns source = .ok predicate)
    (hnamed : ∀ condition ∈ predicate.conditions,
      sameLetters condition.column.value name = true)
    {request : PageRequest} (hclause : request.clause? = some (predicateText .sqlite predicate))
    {clock : Clock} {page : Page}
    (hfetch : (connection.source ⟨clock, .done⟩).page table request = .ok page) :
    (∀ text ∈ [countText table request.clause?,
        pageText table request.clause? request.orderBy? request.direction?],
      ∃ counts groups order? paged, ReadsAs text counts table (some groups) order? paged ∧
        GroupsSay text (some predicate) (some groups) ∧
        ∀ group ∈ groups, ∀ comparison ∈ group,
          (refers? comparison.column.value = some place ↔ IsName name)) ∧
      connection.Fetches table contents request
        (fun moment => (contents moment).matching (some predicate)) ∧
      (IsName name → ∀ moment, ∀ a ∈ (contents moment).rows, ∀ b ∈ (contents moment).rows,
        ((contents moment).cells a)[place]? = ((contents moment).cells b)[place]? →
        (a ∈ (contents moment).matching (some predicate) ↔
          b ∈ (contents moment).matching (some predicate))) ∧
      (¬ IsName name → ∀ moment,
        (∀ row ∈ (contents moment).rows, row ∈ (contents moment).matching (some predicate)) ∨
          (contents moment).matching (some predicate) = []) := by
  have htyped : IsTypedFilter (some predicate) :=
    isTypedFilter_of_read fun _ heq => Option.some.inj heq ▸ ⟨_, _, hread⟩
  have hruns := statementsRun_of_page hfetch
  have hanswers : ∀ text ∈ [countText table request.clause?,
      pageText table request.clause? request.orderBy? request.direction?],
      ∃ moment, connection.Answers moment text :=
    List.forall_mem_cons.mpr ⟨⟨_, .inl hruns.counts⟩,
      List.forall_mem_singleton.mpr ⟨_, .inr ⟨_, _, hruns.selects⟩⟩⟩
  have hword : ∀ text ∈ [countText table request.clause?,
      pageText table request.clause? request.orderBy? request.direction?],
      ∃ counts groups order? paged, ReadsAs text counts table (some groups) order? paged ∧
        GroupsSay text (some predicate) (some groups) ∧
        ∀ group ∈ groups, ∀ comparison ∈ group,
          (refers? comparison.column.value = some place ↔ IsName name) := by
    intro text hmem
    obtain ⟨counts, groups, order?, paged, hreads, hmeans⟩ :=
      exists_groups_of_statements htyped hclause text hmem
    obtain ⟨moment, hanswered⟩ := hanswers text hmem
    exact ⟨counts, groups, order?, paged, hreads, hmeans, fun group hgroup comparison hin =>
      hwords.refers_iff hcolumn hnamed hreads hmeans hanswered hgroup hin⟩
  refine ⟨hword, hshows.fetches htyped hclause, fun hisName moment a ha b hb hcells => ?_,
    fun hconstant moment => ?_⟩
  · obtain ⟨counts, groups, order?, paged, -, hmeans, hrefers⟩ := hword _ List.mem_cons_self
    have hconditions : ∀ condition ∈ predicate.conditions,
        refers? condition.column.value = some place := by
      intro condition hcondition
      obtain ⟨group, hgroup, comparison, hin, hsame⟩ := hmeans.exists_comparison hcondition
      have hcolumnWord : comparison.column.value = condition.column.value :=
        congrArg Proposition.column hsame
      rw [← hcolumnWord]
      exact (hrefers group hgroup comparison hin).mpr hisName
    rw [Contents.mem_matching_some, Contents.mem_matching_some, and_iff_right ha,
      and_iff_right hb, hwords.truth_eq_of_cells hconditions hcells]
  · have hconstants : ∀ condition ∈ predicate.conditions, ¬ IsName condition.column.value :=
      fun condition hcondition => (isName_congr (hnamed condition hcondition)).not.mpr hconstant
    rw [or_iff_not_imp_right]
    intro hne row hrow
    obtain ⟨other, hother⟩ := List.exists_mem_of_ne_nil _ hne
    rw [Contents.mem_matching_some] at hother ⊢
    exact ⟨hrow, (hwords.truth_eq_of_constants hconstants row other).trans hother.2⟩

namespace Database

/-! ## Bare words in a database in memory -/

/-- The place of the column that a word refers to. -/
def Source.refersTo? (source : Source) (word : Text) : Option Nat :=
  match (Scope.ofSource source).reference? 0 word with
  | some (.column place _) => some place
  | _ => none

theorem Source.reference?_of_refersTo? {source : Source} {word : Text} {place : Nat}
    (hrefers : source.refersTo? word = some place) (now : Int) :
    ∃ affinity, (Scope.ofSource source).reference? now word = some (.column place affinity) := by
  rw [refersTo?] at hrefers
  split at hrefers
  · next found affinity hreference =>
      cases hrefers
      rcases reference?_congr 0 now (.ofSource source) word with hsame | ⟨left, right, hleft, -⟩
      · exact ⟨affinity, hsame.symm.trans hreference⟩
      · cases hreference.symm.trans hleft
  · cases hrefers

/-- A database in memory reads bare words as it is documented, if no two columns have the same
letters. -/
theorem connection_readsWords (db : Database) (table : Text) {source : Source}
    (hdistinct : ∀ column place, source.columns[place]? = some column →
      source.HasColumn column place) :
    db.connection.ReadsWords table source.contents source.refersTo? where
  cell := by
    intro moment proposition place hrefers a b hcells
    obtain ⟨affinity, hreference⟩ := source.reference?_of_refersTo? hrefers moment
    have hcells : a.cells[place]? = b.cells[place]? := hcells
    have htruth (entry : Entry) : (source.contents moment).truth proposition entry =
        compareCells proposition.comparator affinity ((entry.cells[place]?).getD .null)
          (comparandCell moment proposition.comparand) := by
      show Test.truth entry ⟨(Scope.ofSource source).reference? moment proposition.column, _, _⟩ = _
      rw [hreference]
      rfl
    rw [htruth, htruth, hcells]
  constant := by
    intro moment proposition hconstant a b
    obtain ⟨constant, hreference⟩ : ∃ constant,
        (Scope.ofSource source).reference? moment proposition.column = some (.constant constant) :=
      Scope.exists_constant hconstant
    show Test.truth a ⟨(Scope.ofSource source).reference? moment proposition.column, _, _⟩ =
      Test.truth b ⟨(Scope.ofSource source).reference? moment proposition.column, _, _⟩
    rw [hreference]
    rfl
  unnamed := by
    intro word hconstant
    obtain ⟨constant, hreference⟩ : ∃ constant,
        (Scope.ofSource source).reference? 0 word = some (.constant constant) :=
      Scope.exists_constant hconstant
    rw [Source.refersTo?, hreference]
  named := by
    intro moment text counts groups order? paged _ _ group _ comparison _ hname place column hplace
      hsame
    have hplace : (source.columns.map (·.name))[place]? = some column := hplace
    rw [List.getElem?_map, Option.map_eq_some_iff] at hplace
    obtain ⟨found, hfound, rfl⟩ := hplace
    have hreference : (Scope.ofSource source).reference? 0 comparison.column.value =
        some (.column place (.ofType found.type)) := by
      rw [Text.sameLetters_comm] at hsame
      exact (hdistinct found place hfound).reference?_of_isName hsame hname
    rw [Source.refersTo?, hreference]

/-! ## Tables of one column -/

def namedTable (name : Text) (numbers : List Int) : Table :=
  .ofRows "t" [⟨name, "INTEGER"⟩] (numbers.map fun n => [.integer n])

def namedOnly (name : Text) (numbers : List Int) : Database :=
  ⟨[.table (namedTable name numbers)], []⟩

theorem columns_namedTable (name : Text) (numbers : List Int) :
    (namedTable name numbers).columns = [⟨name, "INTEGER"⟩] := by
  have htype : Table.keptType "INTEGER" = "INTEGER".toList := by decide +kernel
  change [Column.mk name (Table.keptType "INTEGER")] = _
  rw [htype]

theorem namedOnly_readsWords (name : Text) (numbers : List Int) :
    (namedOnly name numbers).connection.ReadsWords "t"
      (Source.contents ⟨namedTable name numbers, false⟩)
      (Source.refersTo? ⟨namedTable name numbers, false⟩) := by
  refine connection_readsWords _ _ fun column place hplace => ⟨hplace, ?_⟩
  have hcolumns : Source.columns ⟨namedTable name numbers, false⟩ = [⟨name, "INTEGER"⟩] :=
    columns_namedTable name numbers
  rw [hcolumns] at hplace ⊢
  intro other namesake hother _
  have hlast {index : Nat} {found : Column}
      (hfound : [Column.mk name "INTEGER"][index]? = some found) : index = 0 := by
    obtain ⟨hlt, -⟩ := List.getElem?_eq_some_iff.mp hfound
    exact Nat.lt_one_iff.mp hlt
  rw [hlast hplace, hlast hother]

theorem namedOnly_shows (name : Text) {numbers : List Int}
    (hlength : numbers.length < integerBound) :
    (namedOnly name numbers).connection.Shows "t"
      (Source.contents ⟨namedTable name numbers, false⟩) := by
  refine connection_shows (fun table hmem => ?_) rfl
  cases List.mem_singleton.mp hmem
  exact Table.isKept_ofRows _ _ (by rwa [List.length_map])

/-- A column that is called like a number cannot be asked for its cells: all rows are selected,
or none.  Neither can one that is called like a constant. -/
theorem numbers_refer_to_no_column :
    (Text.IsWord "2024" ∧
      (namedTable "2024" [5, 2024]).columns = [⟨"2024", "INTEGER"⟩] ∧
      Source.refersTo? ⟨namedTable "2024" [5, 2024], false⟩ "2024" = none ∧
      ∃ compiled page,
        compile .sqlite (namedTable "2024" [5, 2024]).columns "2024=2024" = .ok compiled ∧
          ((namedOnly "2024" [5, 2024]).connection.source ⟨atOnce 0, .done⟩).page "t"
            (requestOf compiled.clause none none) = .ok page ∧
          page.rows.map (·.map shownNumber?) = [[some 5], [some 2024]]) ∧
      Text.IsWord "null" ∧
        (namedTable "null" [1]).columns = [⟨"null", "INTEGER"⟩] ∧
        Source.refersTo? ⟨namedTable "null" [1], false⟩ "null" = none ∧
        ∃ compiled page,
          compile .sqlite (namedTable "null" [1]).columns "null=1" = .ok compiled ∧
            ((namedOnly "null" [1]).connection.source ⟨atOnce 0, .done⟩).page "t"
              (requestOf compiled.clause none none) = .ok page ∧
            page.rows.map (·.map shownNumber?) = [] := by
  constructor
  · obtain ⟨compiled, hcompile, hclause⟩ : ∃ compiled,
        compile .sqlite (namedTable "2024" [5, 2024]).columns "2024=2024" = .ok compiled ∧
          compiled.clause = "2024 = 2024".toList :=
      exists_ok (by decide +kernel)
    obtain ⟨page, hfetch, hrows⟩ : ∃ page,
        ((namedOnly "2024" [5, 2024]).connection.source ⟨atOnce 0, .done⟩).page "t"
            (requestOf "2024 = 2024" none none) = .ok page ∧
          page.rows.map (·.map shownNumber?) = [[some 5], [some 2024]] :=
      exists_ok (by decide +kernel)
    exact ⟨by decide, columns_namedTable _ _, by decide +kernel, compiled, page, hcompile,
      hclause ▸ hfetch, hrows⟩
  · obtain ⟨compiled, hcompile, hclause⟩ : ∃ compiled,
        compile .sqlite (namedTable "null" [1]).columns "null=1" = .ok compiled ∧
          compiled.clause = "null = 1".toList :=
      exists_ok (by decide +kernel)
    obtain ⟨page, hfetch, hrows⟩ : ∃ page,
        ((namedOnly "null" [1]).connection.source ⟨atOnce 0, .done⟩).page "t"
            (requestOf "null = 1" none none) = .ok page ∧
          page.rows.map (·.map shownNumber?) = [] :=
      exists_ok (by decide +kernel)
    exact ⟨by decide, columns_namedTable _ _, by decide +kernel, compiled, page, hcompile,
      hclause ▸ hfetch, hrows⟩

end Database

open TableBrowser.Database in
/-- The column of an ordinary word is found in any letter case. -/
theorem Connection.refers_to_its_column_iff_year :
    ∃ predicate, Predicate.read (namedTable "year" [5, 2024]).columns "YEAR>5|year=5" =
        .ok predicate ∧
      ∀ a ∈ entries (namedTable "year" [5, 2024]), ∀ b ∈ entries (namedTable "year" [5, 2024]),
        a.cells[0]? = b.cells[0]? →
        (a ∈ (Source.contents ⟨namedTable "year" [5, 2024], false⟩ 0).matching (some predicate) ↔
          b ∈ (Source.contents ⟨namedTable "year" [5, 2024], false⟩ 0).matching
            (some predicate)) := by
  obtain ⟨predicate, hread, hpredicate⟩ : ∃ predicate,
      Predicate.read (namedTable "year" [5, 2024]).columns "YEAR>5|year=5" = .ok predicate ∧
        (predicateText .sqlite predicate,
          predicate.conditions.all (sameLetters ·.column.value "year")) =
            ("YEAR > 5 OR year = 5".toList, true) :=
    exists_ok (by decide +kernel)
  obtain ⟨hclause, hall⟩ := Prod.mk.inj hpredicate
  obtain ⟨page, hfetch, -⟩ : ∃ page,
      ((namedOnly "year" [5, 2024]).connection.source ⟨atOnce 0, .done⟩).page "t"
          (requestOf "YEAR > 5 OR year = 5" none none) = .ok page ∧ page.rows.length = 2 :=
    exists_ok (by decide +kernel)
  have hcolumn (moment : Int) :
      (Source.contents ⟨namedTable "year" [5, 2024], false⟩ moment).columns[0]? =
        some "year".toList := by
    show ((namedTable "year" [5, 2024]).columns.map (·.name))[0]? = _
    rw [columns_namedTable]
    rfl
  obtain ⟨-, -, hcells, -⟩ := refers_to_its_column_iff
    (namedOnly_shows "year" (by decide)) (namedOnly_readsWords "year" [5, 2024]) hcolumn hread
    (List.all_eq_true.mp hall) (congrArg some hclause.symm) hfetch
  exact ⟨predicate, hread, hcells (by decide +kernel) 0⟩

end TableBrowser
