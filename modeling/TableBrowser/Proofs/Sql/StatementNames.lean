import TableBrowser.Filter.Compile
import TableBrowser.Proofs.Sql.StatementRow

/-!
# Names in statements

The statements of a page take the name of a table and that of a sort column from outside.  By
the lexical rules each of them stays one name, whatever it contains: no character of it is read
as anything else, and the clause between them is cut in both statements as it is cut alone.
-/

namespace TableBrowser

/-- What stands in a text stands further behind if the text is put behind another one. -/
def Located.behind {α : Type} (offset : Nat) (located : Located α) : Located α :=
  ⟨located.value, ⟨offset + located.span.start, offset + located.span.stop⟩⟩

namespace Sql

open TableBrowser.Filter TableBrowser.Paging TableBrowser.Text

/-! ## Lexemes of a row -/

theorem placed_add (row : List Piece) (offset start : Nat) :
    placed (offset + start) row = (placed start row).map (·.behind offset) := by
  induction row generalizing start with
  | nil => rfl
  | cons piece rest ih =>
      cases piece with
      | blank => rw [placed, placed, Nat.add_assoc, ih]
      | solid lexeme =>
          rw [placed, placed, List.map_cons, Nat.add_assoc, ih]
          rfl

/-- Every lexeme of a row is cut from the characters that it is written with. -/
theorem slice?_of_mem_placed {row : List Piece} (before behind : Text) {lexeme : Located Lexeme}
    (hmem : lexeme ∈ placed before.byteSize row) :
    Text.slice? (before ++ (rowText row ++ behind)) lexeme.span = some lexeme.value.toText := by
  induction row generalizing before with
  | nil => cases hmem
  | cons piece rest ih =>
      cases piece with
      | blank =>
          have hbefore : before.byteSize + 1 = Text.byteSize (before ++ [' ']) :=
            (byteSize_append before [' ']).symm
          rw [placed, hbefore] at hmem
          simpa using ih (before ++ [' ']) hmem
      | solid first =>
          rw [placed] at hmem
          rcases List.mem_cons.mp hmem with rfl | hmem
          · rw [rowText_solid, List.append_assoc, ← Lexeme.byteSize_toText]
            exact slice?_append before first.toText (rowText rest ++ behind)
          · rw [← Lexeme.byteSize_toText, ← byteSize_append] at hmem
            simpa using ih (before ++ first.toText) hmem

theorem start_le_of_mem_placed {row : List Piece} {offset : Nat} {lexeme : Located Lexeme}
    (hmem : lexeme ∈ placed offset row) : offset ≤ lexeme.span.start := by
  induction row generalizing offset with
  | nil => cases hmem
  | cons piece rest ih =>
      cases piece with
      | blank => exact Nat.le_trans (Nat.le_succ offset) (ih hmem)
      | solid first =>
          rcases List.mem_cons.mp hmem with rfl | hmem
          · exact Nat.le_refl offset
          · exact Nat.le_trans (Nat.le_add_right _ _) (ih hmem)

/-- No two lexemes of a row share a byte. -/
theorem pairwise_placed (row : List Piece) (offset : Nat) :
    (placed offset row).Pairwise fun left right => left.span.stop ≤ right.span.start := by
  induction row generalizing offset with
  | nil => exact .nil
  | cons piece rest ih =>
      cases piece with
      | blank => exact ih (offset + 1)
      | solid lexeme => exact .cons (fun _ hmem => start_le_of_mem_placed hmem) (ih _)

/-! ## A text inside of another one -/

/-- A text is one given text with lexemes on both sides.  The given text is cut as it is cut
alone, each lexeme is cut from the characters that it is written with, and no two lexemes share
a byte. -/
structure Surrounds (text : Text) (front : List Lexeme) (inner : Text) (back : List Lexeme) :
    Prop where
  cut : ∃ before behind opening closing, text = before ++ (inner ++ behind) ∧
    lexemes text = opening ++ ((lexemes inner).map (·.behind before.byteSize) ++ closing) ∧
      opening.map (·.value) = front ∧ closing.map (·.value) = back
  written : ∀ lexeme ∈ lexemes text, text.slice? lexeme.span = some lexeme.value.toText
  apart : (lexemes text).Pairwise fun left right => left.span.stop ≤ right.span.start

theorem surrounds_rowText {left inner right : List Piece} (hinner : Separated inner [])
    (hwhole : Separated (left ++ (inner ++ right)) []) :
    Surrounds (rowText (left ++ (inner ++ right))) (rowLexemes left) (rowText inner)
      (rowLexemes right) := by
  have hlexemes := lexemes_rowText hwhole
  refine ⟨⟨rowText left, rowText right, placed 0 left,
    placed ((rowText left).byteSize + (rowText inner).byteSize) right, by simp, ?_,
    map_value_placed left 0, map_value_placed right _⟩, ?_, ?_⟩
  · rw [hlexemes, lexemes_rowText hinner, ← placed_add, Nat.add_zero, placed_append,
      placed_append, Nat.zero_add]
  · intro lexeme hmem
    rw [hlexemes] at hmem
    have hslice := slice?_of_mem_placed [] [] hmem
    rwa [List.nil_append, List.append_nil] at hslice
  · rw [hlexemes]
    exact pairwise_placed _ 0

/-! ## Names -/

def Lexeme.name? : Lexeme → Option Text
  | .name value => some value
  | _ => none

/-- The names that a text is read with, in their order. -/
def namesOf (text : Text) : List Text :=
  (lexemes text).filterMap (·.value.name?)

theorem namesOf_rowText {row : List Piece} (hseparated : Separated row []) :
    namesOf (rowText row) = rowPicks Lexeme.name? row :=
  filterMap_lexemes_rowText Lexeme.name? hseparated

/-! ## A clause has no names -/

theorem rowNames_numberRow (digits : Text) : rowPicks Lexeme.name? (numberRow digits) = [] := by
  have hunsigned (t : Text) : (unsignedLexeme t).name? = none := by
    unfold unsignedLexeme
    split <;> rfl
  unfold numberRow
  split
  · rw [rowPicks_solid rfl, rowPicks_solid (hunsigned _)]
    rfl
  · rw [rowPicks_solid (hunsigned _)]
    rfl

theorem rowNames_comparandRow (op : Operator) (operand : Operand) :
    rowPicks Lexeme.name? (comparandRow .sqlite op operand) = [] := by
  cases operand with
  | number digits => exact rowNames_numberRow digits
  | text value => rfl
  | binary uuid => rfl
  | date date => cases date <;> rfl

theorem rowNames_groupsRow (groups : List Group) :
    rowPicks Lexeme.name? (groupsRow .sqlite groups) = [] := by
  rw [rowPicks_groupsRow (fun _ => rfl) (fun _ => rfl)]
  simp [rowNames_comparandRow]

/-! ## The two statements of a page -/

/-- There is no clause, or it is what a filter compiles to. -/
def IsCompiledClause (clause? : Option Text) : Prop :=
  ∀ clause, clause? = some clause → ∃ columns source preview,
    compile .sqlite columns source = .ok ⟨clause, preview⟩

/-- The clause was written for a filter that was read. -/
theorem IsCompiledClause.exists_filter {clause? : Option Text}
    (hclause : IsCompiledClause clause?) :
    ∃ filter? : Option Predicate,
      IsTypedFilter filter? ∧ clause? = filter?.map (predicateText .sqlite) := by
  cases clause? with
  | none => exact ⟨none, nofun, rfl⟩
  | some clause =>
      obtain ⟨columns, source, preview, hcompile⟩ := hclause clause rfl
      obtain ⟨predicate, hread, hcompiled⟩ := exists_read_of_compile hcompile
      refine ⟨some predicate, ?_, congrArg (some ·.clause) hcompiled.symm⟩
      rintro other ⟨⟩
      exact Predicate.isTyped_of_read hread

/-- What stands in front of a clause: what is selected, the table and the keyword of the
clause, if there is one. -/
def frontLexemes (selected : List Lexeme) (table : Text) (filtered : Bool) : List Lexeme :=
  .word "SELECT" :: selected ++
    (.word "FROM" :: .name table :: if filtered then [.word "WHERE"] else [])

/-- What stands behind the clause of a page: the order, if there is one, the limit and the
offset. -/
def backLexemes (orderBy? : Option Text) (direction? : Option Direction) : List Lexeme :=
  (match orderBy? with
    | none => []
    | some column =>
      [.word "ORDER", .word "BY", .name column, .word (direction?.getD .ascending).keyword]) ++
    [.word "LIMIT", .symbol ['?'], .word "1", .word "OFFSET", .symbol ['?'], .word "2"]

/-- A statement is its clause between lexemes of its own. -/
theorem surrounds_statementRow (counts : Bool) (table : Text) {filter? : Option Predicate}
    (htyped : IsTypedFilter filter?) (order? : Option SortOrder) (paged : Bool) :
    Surrounds (rowText (statementRow .sqlite counts table filter? order? paged))
      (frontLexemes
        (if counts then [.word "COUNT", .symbol ['('], .symbol ['*'], .symbol [')']]
          else [.symbol ['*']]) table filter?.isSome)
      ((filter?.map (predicateText .sqlite)).getD []) (rowLexemes (endingRow order? paged)) := by
  have hwhole := separated_statementRow .sqlite counts table htyped order? paged
  cases filter? with
  | none =>
      have hsurrounds := surrounds_rowText (separated_nil []) hwhole
      cases counts <;> exact hsurrounds
  | some predicate =>
      have hinner : Separated (groupsRow .sqlite predicate.groups) [] :=
        separated_groupsRow .sqlite (htyped predicate rfl).2 delimits_nil
      have hrow : statementRow .sqlite counts table (some predicate) order? paged =
          (headRow counts table ++ keywordRow "WHERE") ++
            (groupsRow .sqlite predicate.groups ++ endingRow order? paged) := by
        simp [statementRow, whereRow]
      rw [hrow] at hwhole ⊢
      have hsurrounds := surrounds_rowText hinner hwhole
      rw [rowText_groupsRow] at hsurrounds
      cases counts <;> exact hsurrounds

theorem rowNames_statementRow (counts : Bool) (table : Text) (filter? : Option Predicate)
    (order? : Option SortOrder) (paged : Bool) :
    rowPicks Lexeme.name? (statementRow .sqlite counts table filter? order? paged) =
      table :: (order?.map (·.column)).toList := by
  have hhead : rowPicks Lexeme.name? (headRow counts table) = [table] := by cases counts <;> rfl
  have hwhere : rowPicks Lexeme.name? (whereRow .sqlite filter?) = [] := by
    cases filter? with
    | none => rfl
    | some predicate =>
        rw [whereRow, rowPicks_append, rowNames_groupsRow]
        rfl
  have hending : rowPicks Lexeme.name? (endingRow order? paged) =
      (order?.map (·.column)).toList := by
    cases order? <;> cases paged <;> rfl
  rw [statementRow, rowPicks_append, rowPicks_append, hhead, hwhere, hending]
  rfl

theorem isSome_eq_of_rel {α β : Type} {related : α → β → Prop} {a? : Option α} {b? : Option β}
    (hrel : Option.Rel related a? b?) : a?.isSome = b?.isSome := by
  cases hrel <;> rfl

/-- In both statements of a page the name of the table is one name behind `FROM`, and the
clause behind it is the given one, which is cut as it is cut alone.  The page is ordered by one
name, that of the sort column, in the direction asked for, and takes a limit and an offset.
There are no other names, and nothing in a name is read as anything else. -/
theorem names_stay_quoted (table : Text) (orderBy? : Option Text) (direction? : Option Direction)
    (clause? : Option Text) (hclause : IsCompiledClause clause?) :
    Surrounds (countText table clause?)
        (frontLexemes [.word "COUNT", .symbol ['('], .symbol ['*'], .symbol [')']] table
          clause?.isSome) (clause?.getD []) [] ∧
      Surrounds (pageText table clause? orderBy? direction?)
        (frontLexemes [.symbol ['*']] table clause?.isSome) (clause?.getD [])
        (backLexemes orderBy? direction?) ∧
      namesOf (countText table clause?) = [table] ∧
      namesOf (pageText table clause? orderBy? direction?) = table :: orderBy?.toList ∧
      (∃ parts?, parts?.isSome = clause?.isSome ∧
        Statement.read .sqlite (countText table clause?) =
          .ok ⟨true, table, parts?, none, false⟩) ∧
      ∃ parts?, parts?.isSome = clause?.isSome ∧
        Statement.read .sqlite (pageText table clause? orderBy? direction?) =
          .ok ⟨false, table, parts?, sortOrder? orderBy? direction?, true⟩ := by
  obtain ⟨filter?, htyped, rfl⟩ := hclause.exists_filter
  have hcount := rowText_countRow .sqlite table filter?
  have hpage := rowText_pageRow .sqlite table filter? orderBy? direction?
  have hsome : (filter?.map (predicateText .sqlite)).isSome = filter?.isSome := Option.isSome_map
  have hback : rowLexemes (endingRow (sortOrder? orderBy? direction?) true) =
      backLexemes orderBy? direction? := by
    cases orderBy? <;> rfl
  have hcolumn : ((sortOrder? orderBy? direction?).map (·.column)).toList = orderBy?.toList := by
    cases orderBy? <;> rfl
  refine ⟨?_, ?_, ?_, ?_, ?_, ?_⟩
  · rw [hsome, ← hcount]
    exact surrounds_statementRow true table htyped none false
  · rw [hsome, ← hpage, ← hback]
    exact surrounds_statementRow false table htyped _ true
  · rw [← hcount, namesOf_rowText (separated_statementRow _ _ _ htyped _ _),
      rowNames_statementRow]
    rfl
  · rw [← hpage, namesOf_rowText (separated_statementRow _ _ _ htyped _ _),
      rowNames_statementRow, hcolumn]
  · obtain ⟨⟨_, _, parts?, _, _⟩, hread, rfl, rfl, rfl, rfl, hmeans⟩ :=
      read_statementRow .sqlite true table htyped none false
    exact ⟨parts?, by rw [hsome, isSome_eq_of_rel hmeans, Statement.clause?, Option.isSome_map],
      by rw [← hcount, hread]⟩
  · obtain ⟨⟨_, _, parts?, _, _⟩, hread, rfl, rfl, rfl, rfl, hmeans⟩ :=
      read_statementRow .sqlite false table htyped (sortOrder? orderBy? direction?) true
    exact ⟨parts?, by rw [hsome, isSome_eq_of_rel hmeans, Statement.clause?, Option.isSome_map],
      by rw [← hpage, hread]⟩

/-- Quotation marks and the words of a statement inside of names, and a filter that is typed
with both kinds of quotation marks. -/
theorem names_stay_quoted_quotes :
    ∃ compiled, compile .sqlite [] "a=O'B\" ORDER BY \"x|b<@2w&c=-1.5" = .ok compiled ∧
      Surrounds (countText "a\" WHERE \"1\"\"" (some compiled.clause))
        (frontLexemes [.word "COUNT", .symbol ['('], .symbol ['*'], .symbol [')']]
          "a\" WHERE \"1\"\"" true) compiled.clause [] ∧
      namesOf (pageText "a\" WHERE \"1\"\"" (some compiled.clause) (some "\" DESC --\"")
        (some .descending)) = ["a\" WHERE \"1\"\"", "\" DESC --\""] := by
  obtain ⟨compiled, hcompile⟩ : ∃ compiled,
      compile .sqlite [] "a=O'B\" ORDER BY \"x|b<@2w&c=-1.5" = .ok compiled := ⟨_, rfl⟩
  obtain ⟨hcount, -, -, hnames, -⟩ := names_stay_quoted "a\" WHERE \"1\"\"" (some "\" DESC --\"")
    (some .descending) (some compiled.clause) (by
      intro clause heq
      cases heq
      exact ⟨_, _, compiled.preview, hcompile⟩)
  exact ⟨compiled, hcompile, hcount, hnames⟩

end Sql

end TableBrowser
