import TableBrowser.Proofs.Sql.ClauseReadback
import TableBrowser.Sql.Statement

/-!
# Statements as rows of lexemes

The two statements of a page are written as rows of lexemes: what is selected and the
name of the table, then a clause, an order and the parameters, as far as there are any.
Each of these parts is read back as what it was written for, whatever the names are and
whatever the values of the clause contain.
-/

namespace TableBrowser.Sql

open TableBrowser.Filter TableBrowser.Paging TableBrowser.Text

/-! ## Rows of statements -/

/-- What is selected, and from which table. -/
def headRow (counts : Bool) (table : Text) : List Piece :=
  let selected : List Piece :=
    if counts then
      [.solid (.word "COUNT"), .solid (.symbol ['(']), .solid (.symbol ['*']),
        .solid (.symbol [')'])]
    else [.solid (.symbol ['*'])]
  .solid (.word "SELECT") :: .blank :: selected ++
    (keywordRow "FROM" ++ [.solid (.name table)])

def whereRow (dialect : Dialect) : Option Predicate → List Piece
  | none => []
  | some predicate => keywordRow "WHERE" ++ groupsRow dialect predicate.groups

def orderRow : Option SortOrder → List Piece
  | none => []
  | some order =>
    keywordRow "ORDER" ++
      [.solid (.word "BY"), .blank, .solid (.name order.column), .blank,
        .solid (.word order.direction.keyword)]

/-- The limit and the offset as parameters. -/
def pagingRow : List Piece :=
  keywordRow "LIMIT" ++ [.solid (.symbol ['?']), .solid (.word "1")] ++
    (keywordRow "OFFSET" ++ [.solid (.symbol ['?']), .solid (.word "2")])

/-- What stands behind the clause. -/
def endingRow (order? : Option SortOrder) (paged : Bool) : List Piece :=
  orderRow order? ++ if paged then pagingRow else []

def statementRow (dialect : Dialect) (counts : Bool) (table : Text)
    (filter? : Option Predicate) (order? : Option SortOrder) (paged : Bool) : List Piece :=
  headRow counts table ++ (whereRow dialect filter? ++ endingRow order? paged)

/-- The order that a statement is written with. -/
def sortOrder? (orderBy? : Option Text) (direction? : Option Direction) : Option SortOrder :=
  orderBy?.map (⟨·, direction?.getD .ascending⟩)

theorem rowText_whereRow (dialect : Dialect) (filter? : Option Predicate) :
    rowText (whereRow dialect filter?) =
      whereText (filter?.map (predicateText dialect)) := by
  cases filter? with
  | none => rfl
  | some predicate =>
      rw [whereRow, rowText_append, rowText_groupsRow]
      rfl

theorem rowText_orderRow (orderBy? : Option Text) (direction? : Option Direction) :
    rowText (orderRow (sortOrder? orderBy? direction?)) = orderText orderBy? direction? := by
  cases orderBy? with
  | none => rfl
  | some column =>
      have htext : orderText (some column) direction? =
          " ORDER BY ".toList ++ quotedName column ++ " ".toList ++
            (direction?.getD .ascending).keyword := rfl
      have hrow : rowText (orderRow (sortOrder? (some column) direction?)) =
          " ORDER BY ".toList ++ (quotedName column ++ (" ".toList ++
            ((direction?.getD .ascending).keyword ++ []))) := rfl
      rw [htext, hrow, List.append_nil, List.append_assoc, List.append_assoc]

theorem rowText_headRow (counts : Bool) (table : Text) :
    rowText (headRow counts table) =
      (if counts then "SELECT COUNT(*) FROM " else "SELECT * FROM ").toList ++
        quotedName table := by
  cases counts with
  | true =>
      have hrow : rowText (headRow true table) =
          "SELECT COUNT(*) FROM ".toList ++ (quotedName table ++ []) := rfl
      rw [hrow, List.append_nil, if_pos rfl]
  | false =>
      have hrow : rowText (headRow false table) =
          "SELECT * FROM ".toList ++ (quotedName table ++ []) := rfl
      rw [hrow, List.append_nil, if_neg Bool.false_ne_true]

/-- The row of a counting statement is its text. -/
theorem rowText_countRow (dialect : Dialect) (table : Text) (filter? : Option Predicate) :
    rowText (statementRow dialect true table filter? none false) =
      countText table (filter?.map (predicateText dialect)) := by
  have hending : endingRow none false = [] := rfl
  rw [statementRow, hending, List.append_nil, rowText_append, rowText_headRow,
    rowText_whereRow]
  rfl

/-- The row of a selecting statement is its text. -/
theorem rowText_pageRow (dialect : Dialect) (table : Text) (filter? : Option Predicate)
    (orderBy? : Option Text) (direction? : Option Direction) :
    rowText (statementRow dialect false table filter? (sortOrder? orderBy? direction?) true) =
      pageText table (filter?.map (predicateText dialect)) orderBy? direction? := by
  have hpaging : rowText pagingRow = " LIMIT ?1 OFFSET ?2".toList := rfl
  rw [statementRow, rowText_append, rowText_append, rowText_headRow, rowText_whereRow,
    endingRow, rowText_append, rowText_orderRow, if_pos rfl, hpaging, ← List.append_assoc,
    ← List.append_assoc]
  rfl

/-! ## The lexemes of a statement stay apart -/

theorem separated_headRow (counts : Bool) (table : Text) {behind : Text}
    (hbehind : Delimits behind) : Separated (headRow counts table) behind := by
  have hname := Lexeme.name_endsBefore table hbehind
  cases counts with
  | true =>
      refine ⟨Lexeme.word_endsBefore (by decide) (by simp),
        Lexeme.word_endsBefore (by decide) (by simp), ?_⟩
      refine ⟨Lexeme.symbol_endsBefore (by decide) _, Lexeme.symbol_endsBefore (by decide) _,
        Lexeme.symbol_endsBefore (by decide) _, ?_⟩
      exact ⟨Lexeme.word_endsBefore (by decide) (by simp), hname, trivial⟩
  | false =>
      refine ⟨Lexeme.word_endsBefore (by decide) (by simp),
        Lexeme.symbol_endsBefore (by decide) _, ?_⟩
      exact ⟨Lexeme.word_endsBefore (by decide) (by simp), hname, trivial⟩

theorem separated_orderRow (order? : Option SortOrder) {behind : Text}
    (hbehind : Delimits behind) : Separated (orderRow order?) behind := by
  cases order? with
  | none => trivial
  | some order =>
      have hdirection : IsWord order.direction.keyword := by
        cases order.direction <;> decide
      refine ⟨Lexeme.word_endsBefore (by decide) (by simp),
        Lexeme.word_endsBefore (by decide) (by simp),
        Lexeme.name_endsBefore order.column (by simp), ?_⟩
      exact ⟨Lexeme.word_endsBefore hdirection hbehind, trivial⟩

theorem separated_pagingRow : Separated pagingRow [] := by
  refine ⟨Lexeme.word_endsBefore (by decide) (by simp),
    Lexeme.symbol_endsBefore (by decide) _,
    Lexeme.word_endsBefore (by decide) (by simp [keywordRow]), ?_⟩
  exact ⟨Lexeme.word_endsBefore (by decide) (by simp),
    Lexeme.symbol_endsBefore (by decide) _, Lexeme.word_endsBefore (by decide) (by simp),
    trivial⟩

theorem separated_endingRow (order? : Option SortOrder) (paged : Bool) :
    Separated (endingRow order? paged) [] := by
  rw [endingRow, separated_append]
  cases paged with
  | true =>
      exact ⟨separated_orderRow order? (by simp [pagingRow, keywordRow]), separated_pagingRow⟩
  | false => exact ⟨separated_orderRow order? (by simp), trivial⟩

theorem delimits_endingRow (order? : Option SortOrder) (paged : Bool) :
    Delimits (rowText (endingRow order? paged)) := by
  cases order? <;> cases paged <;> simp [endingRow, orderRow, pagingRow, keywordRow]

/-- The filter was read from a text, so that its columns and numbers are as typed. -/
def IsTypedFilter (filter? : Option Predicate) : Prop :=
  ∀ predicate, filter? = some predicate →
    predicate.groups ≠ [] ∧ ∀ group ∈ predicate.groups, group.IsTyped

theorem separated_statementRow (dialect : Dialect) (counts : Bool) (table : Text)
    {filter? : Option Predicate} (htyped : IsTypedFilter filter?) (order? : Option SortOrder)
    (paged : Bool) :
    Separated (statementRow dialect counts table filter? order? paged) [] := by
  have hending := delimits_endingRow order? paged
  rw [statementRow, separated_append, separated_append]
  refine ⟨separated_headRow counts table ?_, ?_, separated_endingRow order? paged⟩
  · cases filter? with
    | none => simpa [whereRow] using hending
    | some predicate => simp [whereRow, keywordRow]
  · cases filter? with
    | none => trivial
    | some predicate =>
        rw [List.append_nil, whereRow, separated_append]
        exact ⟨separated_keywordRow (by decide) _,
          separated_groupsRow dialect (htyped predicate rfl).2 hending⟩

/-! ## Statements read back -/

variable {dialect : Dialect} {counts paged : Bool} {table : Text} {order? : Option SortOrder}

/-- The cutting of a clause stops in front of an order and of parameters. -/
theorem partsFrom_endingRow (order? : Option SortOrder) (paged : Bool) (offset fuel : Nat) :
    partsFrom dialect (fuel + 1) false 0 (placed offset (endingRow order? paged)) =
      ⟨[], placed offset (endingRow order? paged), false, 0⟩ := by
  cases order? <;> cases paged <;> rfl

theorem clauseAt_endingRow (order? : Option SortOrder) (paged : Bool) (offset : Nat) :
    Statement.clauseAt dialect (placed offset (endingRow order? paged)) =
      .ok (none, placed offset (endingRow order? paged)) := by
  cases order? <;> cases paged <;> rfl

theorem clauseAt_where (span : Span) {lexemes : Lexemes} {parts : List Part}
    (hcuts : CutsInto dialect true lexemes parts) (order? : Option SortOrder) (paged : Bool)
    (offset : Nat) :
    Statement.clauseAt dialect
        (⟨.word "WHERE", span⟩ :: (lexemes ++ placed offset (endingRow order? paged))) =
      .ok (some parts, placed offset (endingRow order? paged)) := by
  have hkeyword : isKeyword "WHERE" (.word "WHERE") = true := rfl
  have hparts := hcuts.partsAt_append (partsFrom_endingRow order? paged offset)
  simp only [Statement.clauseAt, hkeyword, hparts]
  rfl

/-- The rest of a statement is read behind its clause. -/
theorem tail_of_clauseAt {lexemes : Lexemes} {parts? : Option (List Part)} {offset : Nat}
    (hclause : Statement.clauseAt dialect lexemes =
      .ok (parts?, placed offset (endingRow order? paged))) :
    Statement.tail dialect counts table lexemes = .ok ⟨counts, table, parts?, order?, paged⟩ := by
  rw [Statement.tail, hclause]
  cases order? with
  | none => cases paged <;> rfl
  | some order =>
      obtain ⟨column, direction⟩ := order
      cases direction <;> cases paged <;> rfl

theorem ofLexemes_headRow (counts : Bool) (table : Text) (behind : Lexemes) :
    Statement.ofLexemes dialect (placed 0 (headRow counts table) ++ behind) =
      Statement.tail dialect counts table behind := by
  cases counts <;> rfl

/-- A clause says what the groups of a predicate say, in their order, and each part of a
condition stands in the text at the bytes it was read from. -/
def ClauseSays (dialect : Dialect) (text : Text) (predicate : Predicate) (clause : Clause) :
    Prop :=
  ∃ comparisons : List (List Comparison),
    clause = comparisons.map (·.map .leaf) ∧
      List.Forall₂ (fun group => GroupReadsBack dialect text group.conditions)
        predicate.groups comparisons

/-- A statement is read back with its table, its order and its parameters, and its clause
says what the filter says. -/
theorem read_statementRow (dialect : Dialect) (counts : Bool) (table : Text)
    {filter? : Option Predicate} (htyped : IsTypedFilter filter?) (order? : Option SortOrder)
    (paged : Bool) :
    ∃ statement : Statement,
      Statement.read dialect (rowText (statementRow dialect counts table filter? order? paged)) =
          .ok statement ∧
        statement.counts = counts ∧ statement.table = table ∧ statement.order? = order? ∧
        statement.paged = paged ∧
        Option.Rel
          (ClauseSays dialect (rowText (statementRow dialect counts table filter? order? paged)))
          filter? statement.clause? := by
  have hlexemes := lexemes_rowText
    (separated_statementRow dialect counts table htyped order? paged)
  have hhead : placed 0 (statementRow dialect counts table filter? order? paged) =
      placed 0 (headRow counts table) ++
        placed (rowText (headRow counts table)).byteSize
          (whereRow dialect filter? ++ endingRow order? paged) := by
    rw [statementRow, placed_append, Nat.zero_add]
  cases filter? with
  | none =>
      refine ⟨⟨counts, table, none, order?, paged⟩, ?_, rfl, rfl, rfl, rfl, .none⟩
      rw [Statement.read, hlexemes, hhead, ofLexemes_headRow]
      exact tail_of_clauseAt (clauseAt_endingRow order? paged _)
  | some predicate =>
      obtain ⟨hne, hgroups⟩ := htyped predicate rfl
      let before := rowText (headRow counts table) ++ rowText (keywordRow "WHERE")
      obtain ⟨parts, clause, hcuts, hparts, hreads⟩ :=
        cutsInto_groupsRow dialect hne hgroups before (rowText (endingRow order? paged))
      refine ⟨⟨counts, table, some parts, order?, paged⟩, ?_, rfl, rfl, rfl, rfl, ?_⟩
      · rw [Statement.read, hlexemes, hhead, ofLexemes_headRow]
        apply tail_of_clauseAt
        rw [whereRow, List.append_assoc, placed_append, ← byteSize_append, placed_append]
        exact clauseAt_where _ hcuts order? paged _
      · refine .some ⟨clause, hparts, ?_⟩
        have htext : rowText (statementRow dialect counts table (some predicate) order? paged) =
            before ++ (rowText (groupsRow dialect predicate.groups) ++
              rowText (endingRow order? paged)) := by
          simp [before, statementRow, whereRow]
        rw [htext]
        exact hreads

end TableBrowser.Sql
