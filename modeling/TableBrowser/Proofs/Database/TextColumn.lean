import TableBrowser.Filter.Compile
import TableBrowser.Proofs.Database.ColumnNames
import TableBrowser.Proofs.Database.Pages
import TableBrowser.Proofs.Database.SoughtText
import TableBrowser.Proofs.Database.ZeroFree
import TableBrowser.Proofs.Filter.SingleCondition

/-!
# Columns of text

A filter that asks for a value of a column of text finds the rows with one text in this
column.  The text is the value as it was typed, unless the value has the form of a number:
then it is the text of that number, so that `007` finds `7` and not itself.
-/

namespace TableBrowser

open TableBrowser.Database (Cell fitsInteger)
open TableBrowser.Filter TableBrowser.Sql TableBrowser.Paging

/-! ## Filters of one condition -/

section Single

variable {ε : Type} {contents : Contents ε} {predicate : Predicate} {condition : Condition}

theorem Filter.Predicate.IsSingle.truth_eq {judge : Proposition → Database.Truth}
    (hsingle : predicate.IsSingle condition) :
    predicate.truth judge = judge (.ofCondition condition) := by
  obtain ⟨group, hgroups, hconditions⟩ := hsingle
  rw [Predicate.truth, hgroups, List.map_singleton, Group.truth, hconditions, List.map_singleton,
    Database.Truth.any_all_singleton]

theorem Contents.matching_of_isSingle (hsingle : predicate.IsSingle condition) :
    contents.matching (some predicate) =
      contents.rows.filter fun row =>
        contents.truth (.ofCondition condition) row == some true := by
  refine List.filter_congr fun row _ => ?_
  rw [hsingle.truth_eq]

/-- A clause of one comparison has the truth of the comparison. -/
theorem Sql.Clause.truth_leaf (judge : Proposition → Database.Truth) (comparison : Comparison) :
    Clause.truth judge [[.leaf comparison]] = judge (.ofComparison comparison) :=
  (Clause.truth_clauseOf judge [[comparison]]).trans (Database.Truth.any_all_singleton _)

/-- The clause of one condition selects the rows that match it. -/
theorem Contents.selected_of_isSingle (hsingle : predicate.IsSingle condition)
    {comparison : Comparison}
    (hsame : Proposition.ofComparison comparison = .ofCondition condition) :
    contents.selected (some [[.leaf comparison]]) = contents.matching (some predicate) := by
  refine List.filter_congr fun row _ => ?_
  rw [hsingle.truth_eq, Clause.truth_leaf, hsame]

end Single

/-! ## What is relied on of a column of text -/

/-- The column at a place is declared as text, and it is the only one that a word names. -/
structure IsTextColumn (columns : List Column) (word : Text) (place : Nat) : Prop where
  declared : ∃ column, columns[place]? = some column ∧
    Text.sameLetters "TEXT" column.type = true
  named_iff : ∀ other column, columns[other]? = some column →
    (Text.sameLetters column.name word = true ↔ other = place)

namespace IsTextColumn

variable {columns : List Column} {word : Text} {place : Nat}

theorem exists_column (hcolumn : IsTextColumn columns word place) :
    ∃ column, columns[place]? = some column ∧ Text.sameLetters "TEXT" column.type = true ∧
      Text.sameLetters column.name word = true := by
  obtain ⟨column, hplace, htype⟩ := hcolumn.declared
  exact ⟨column, hplace, htype, (hcolumn.named_iff place column hplace).mpr rfl⟩

/-- No other column is found by the word, with or without regard to letter case. -/
theorem exists_typeOf?_eq (hcolumn : IsTextColumn columns word place) :
    ∃ type, Column.typeOf? columns word = some type ∧ Text.sameLetters "TEXT" type = true := by
  obtain ⟨column, hplace, htype, hname⟩ := hcolumn.exists_column
  have honly : ∀ found ∈ columns, Text.sameLetters found.name word = true → found = column := by
    intro found hfound hsame
    obtain ⟨other, hother⟩ := List.mem_iff_getElem?.mp hfound
    rw [(hcolumn.named_iff other found hother).mp hsame, hplace] at hother
    exact (Option.some.inj hother).symm
  have hloose : columns.find? (Text.sameLetters ·.name word) = some column := by
    cases hfind : columns.find? (Text.sameLetters ·.name word) with
    | none =>
        exact absurd hname (List.find?_eq_none.mp hfind column (List.mem_of_getElem? hplace))
    | some found =>
        have hsame : Text.sameLetters found.name word = true := by
          simpa using List.find?_some hfind
        rw [honly found (List.mem_of_find?_eq_some hfind) hsame]
  refine ⟨column.type, ?_, htype⟩
  rw [Column.typeOf?, hloose]
  cases hexact : columns.find? (·.name == word) with
  | none => rw [Option.none_or, Option.map_some]
  | some found =>
      have hsame : Text.sameLetters found.name word = true := by
        have hsame : found.name = word := by simpa using List.find?_some hexact
        rw [hsame]
        exact beq_self_eq_true _
      rw [honly found (List.mem_of_find?_eq_some hexact) hsame, Option.some_or, Option.map_some]

/-- Values of a column of text are never taken for raw bytes. -/
theorem classify_eq (hcolumn : IsTextColumn columns word place) (value : Text) :
    Operand.classify (Column.typeOf? columns word) value =
      if Operand.isNumeric value then .number value else .text value := by
  obtain ⟨type, htype, htext⟩ := hcolumn.exists_typeOf?_eq
  refine Operand.classify_of_not_binary ?_ value
  rw [htype, Option.any_some, Column.holdsBinary, ← Text.sameLetters_iff.mp htext]
  decide +kernel

end IsTextColumn

namespace Contents

variable {ε : Type} (contents : Contents ε)

/-- What is documented of a column of text with the default collation: it is compared with a
string as it is, and with a number by the text of the number. -/
structure ComparesText (word : Text) (place : Nat) (written : Text → Text) : Prop where
  string : ∀ value, ∀ row ∈ contents.rows,
    contents.truth ⟨word, .equal, .string value⟩ row = some true ↔
      (contents.cells row)[place]? = some (.text value)
  number : ∀ literal, Operand.isNumeric literal = true → ∀ row ∈ contents.rows,
    contents.truth ⟨word, .equal, .number literal⟩ row = some true ↔
      (contents.cells row)[place]? = some (.text (written literal))

def rowsWith (place : Nat) (cell : Cell) : List ε :=
  contents.rows.filter fun row => (contents.cells row)[place]? = some cell

variable {contents}

/-- An equality of a column of text is true of the rows with the text that is sought. -/
theorem matching_equality {columns : List Column} {word value : Text} {place : Nat}
    {written : Text → Text} (hcolumn : IsTextColumn columns word place)
    (hcompares : contents.ComparesText word place written) {predicate : Predicate}
    {condition : Condition} (hsingle : predicate.IsSingle condition)
    (hmeaning : condition.meaning =
      ⟨word, .equal, .classify (Column.typeOf? columns word) value⟩) :
    contents.matching (some predicate) =
      contents.rowsWith place (.text (soughtText written value)) := by
  obtain ⟨hname, hop, hoperand⟩ :
      condition.column.value = word ∧ condition.op.value = .equal ∧
        condition.operand.value =
          .classify (Column.typeOf? columns word) value := Meaning.mk.inj hmeaning
  rw [hcolumn.classify_eq] at hoperand
  rw [matching_of_isSingle hsingle]
  refine List.filter_congr fun row hrow => ?_
  rw [Bool.eq_iff_iff, beq_iff_eq, decide_eq_true_iff, Proposition.ofCondition, hname, hop,
    hoperand]
  cases hnumeric : Operand.isNumeric value with
  | true =>
      rw [soughtText_of_isNumeric hnumeric]
      exact hcompares.number value hnumeric row hrow
  | false =>
      rw [soughtText_of_not_isNumeric hnumeric]
      exact hcompares.string value row hrow

end Contents

/-! ## Fetching by an equality -/

/-- The clause of an equality has a zero only if its value has one. -/
theorem isReadable_equality {columns : List Column} {word value : Text} {place : Nat}
    (hcolumn : IsTextColumn columns word place) (hword : Text.IsWord word) {condition : Condition}
    (hmeaning : condition.meaning =
      ⟨word, .equal, .classify (Column.typeOf? columns word) value⟩)
    (hvalue : IsReadable value) : IsReadable (conditionText .sqlite condition) := by
  obtain ⟨hname, hop, hoperand⟩ :
      condition.column.value = word ∧ condition.op.value = .equal ∧
        condition.operand.value =
          .classify (Column.typeOf? columns word) value := Meaning.mk.inj hmeaning
  have hblank : IsReadable " ".toList := by decide +kernel
  have hequals : IsReadable Operator.equal.keyword := by decide +kernel
  have hletters : IsReadable word := isReadable_of_class (by decide) hword.chars
  have hcomparand : IsReadable
      (comparandText .sqlite .equal (.classify (Column.typeOf? columns word) value)) := by
    rw [hcolumn.classify_eq]
    split
    · exact hvalue
    · exact isReadable_quoted (by decide) hvalue
  rw [conditionText, hname, hop, hoperand]
  exact (((hletters.append hblank).append hequals).append hblank).append hcomparand

namespace Database

/-! ## Columns of text in a database in memory -/

/-- A cell of a column of text equals a constant exactly if it is the constant as text. -/
theorem compareCells_equal_text_iff {cell constant : Cell} {t : Text}
    (hstored : IsStored .text cell) (hconstant : Affinity.textIfNumber constant = .text t) :
    compareCells .equal .text cell constant = some true ↔ cell = .text t := by
  constructor
  · intro htrue
    have hkey := key_eq_of_compareCells hstored htrue
    rw [convertedBy, if_neg (by decide), if_pos rfl, hconstant] at hkey
    exact Cell.eq_of_key_eq (Nat.le_refl 2) hkey
  · rintro rfl
    have hpair : Affinity.reconcile .text .none (.text t) constant = (.text t, .text t) := by
      rw [Affinity.reconcile, if_neg (by decide), if_pos (by decide), hconstant]
      rfl
    have hequal := (Cell.order_isEq_iff (.text t) (.text t)).mpr rfl
    simp [compareCells, hpair, satisfies, hequal]

theorem ofType_eq_text {type : Text} (htype : Text.sameLetters "TEXT" type = true) :
    Affinity.ofType type = .text := by
  rw [Affinity.ofType, ← Text.sameLetters_iff.mp htype]
  exact if_neg (by decide +kernel) |>.trans (if_pos (by decide +kernel))

variable {source : Source} {word : Text} {place : Nat}

/-- The word stands for the column at its place. -/
theorem reference?_of_isTextColumn (hcolumn : IsTextColumn source.columns word place)
    (hname : IsName word) (now : Int) :
    (Scope.ofSource source).reference? now word = some (.column place .text) := by
  obtain ⟨column, hplace, htype, hsame⟩ := hcolumn.exists_column
  have hnamed : source.HasColumn column place :=
    { at_place := hplace
      unique := fun other namesake hother hletters =>
        (hcolumn.named_iff other namesake hother).mp (Text.sameLetters_congr hsame _ ▸ hletters) }
  have hletters : Text.sameLetters word column.name = true := by
    rw [Text.sameLetters_comm]
    exact hsame
  rw [hnamed.reference?_of_isName hletters hname, ofType_eq_text htype]

/-- The cells of the column are kept in a form that is left as it is. -/
theorem isStored_of_isTextColumn (hcolumn : IsTextColumn source.columns word place)
    (hkept : source.table.IsKept) {entry : Entry} (hentry : entry ∈ entries source.table) :
    IsStored .text ((entry.cells[place]?).getD .null) := by
  obtain ⟨column, hplace, htype, -⟩ := hcolumn.exists_column
  obtain ⟨stored, hstored, haffinity⟩ := source.affinity_of_columns hplace
  obtain ⟨index, hrow, -⟩ := exists_row_of_mem_entries hentry
  have hcell := hkept.stored _ (List.mem_of_getElem? hrow) place stored hstored
  rwa [← haffinity, ofType_eq_text htype] at hcell

/-- A database in memory compares a column of text as it is documented. -/
theorem Source.contents_comparesText (hkept : source.table.IsKept)
    (hcolumn : IsTextColumn source.columns word place) (hname : IsName word) (now : Int) :
    (source.contents now).ComparesText word place numberLiteralText := by
  have htruth (comparand : Comparand) {t : Text}
      (hconstant : Affinity.textIfNumber (comparandCell now comparand) = .text t)
      {entry : Entry} (hentry : entry ∈ entries source.table) :
      (source.contents now).truth ⟨word, .equal, comparand⟩ entry = some true ↔
        entry.cells[place]? = some (.text t) := by
    have htest : (source.contents now).truth ⟨word, .equal, comparand⟩ entry =
        compareCells .equal .text ((entry.cells[place]?).getD .null)
          (comparandCell now comparand) := by
      show Test.truth entry ⟨(Scope.ofSource source).reference? now word, _, _⟩ = _
      rw [reference?_of_isTextColumn hcolumn hname]
      rfl
    rw [htest, compareCells_equal_text_iff (isStored_of_isTextColumn hcolumn hkept hentry)
      hconstant]
    cases entry.cells[place]? with
    | none => simp
    | some cell => simp
  exact
    { string := fun value entry hentry => htruth (.string value) rfl hentry
      number := fun literal _ entry hentry =>
        htruth (.number literal) (textIfNumber_numeralCell literal) hentry }

/-! ## Tables of texts -/

def textTable (texts : List Text) : Table :=
  .ofRows "t" [⟨"c", "TEXT"⟩] (texts.map fun t => [.text t])

def textsOnly (texts : List Text) : Database :=
  ⟨[.table (textTable texts)], []⟩

theorem textsOnly_shows {texts : List Text} (hlength : texts.length < integerBound) :
    (textsOnly texts).connection.Shows "t" (Source.contents ⟨textTable texts, false⟩) := by
  refine connection_shows (fun table hmem => ?_) rfl
  cases List.mem_singleton.mp hmem
  exact Table.isKept_ofRows _ _ (by rwa [List.length_map])

theorem columns_textTable (texts : List Text) :
    (textTable texts).columns = [⟨"c", "TEXT"⟩] := by
  have htype : Table.keptType "TEXT" = "TEXT".toList := by decide +kernel
  change [Column.mk "c".toList (Table.keptType "TEXT")] = _
  rw [htype]

theorem isTextColumn_textTable (texts : List Text) :
    IsTextColumn (textTable texts).columns "c" 0 := by
  rw [columns_textTable]
  constructor
  · exact ⟨_, rfl, by decide⟩
  · intro other column hcolumn
    cases other with
    | zero =>
        cases hcolumn
        exact ⟨fun _ => rfl, fun _ => by decide +kernel⟩
    | succ other => cases hcolumn

end Database

end TableBrowser
