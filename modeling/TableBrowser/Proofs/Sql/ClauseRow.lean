import TableBrowser.Proofs.Sql.ConditionRow

/-!
# Clauses as rows of lexemes

A predicate is written as a row of lexemes, its groups between `OR` and the
conditions of a group between `AND`.  A group of several conditions stands in
parentheses.
-/

namespace TableBrowser.Sql

open TableBrowser.Filter TableBrowser.Text

def keywordRow (keyword : Text) : List Piece :=
  [.blank, .solid (.word keyword), .blank]

/-- The conditions of a group, each behind its `AND`. -/
def andRow (dialect : Dialect) (conditions : List Condition) : List Piece :=
  conditions.flatMap fun condition => keywordRow "AND" ++ conditionRow dialect condition

def conditionsRow (dialect : Dialect) : List Condition → List Piece
  | [] => []
  | [condition] => conditionRow dialect condition
  | first :: second :: rest =>
    .solid (.symbol ['(']) :: (conditionRow dialect first ++ andRow dialect (second :: rest)) ++
      [.solid (.symbol [')'])]

/-- The groups of a predicate, each behind its `OR`. -/
def orRow (dialect : Dialect) (groups : List Group) : List Piece :=
  groups.flatMap fun group => keywordRow "OR" ++ conditionsRow dialect group.conditions

def groupsRow (dialect : Dialect) : List Group → List Piece
  | [] => []
  | first :: rest => conditionsRow dialect first.conditions ++ orRow dialect rest

theorem intercalate_cons (separator first : Text) (rest : List Text) :
    List.intercalate separator (first :: rest) =
      first ++ rest.flatMap fun part => separator ++ part := by
  induction rest generalizing first with
  | nil => simp [List.intercalate]
  | cons second rest ih =>
      rw [List.flatMap_cons, ← List.append_assoc, List.append_assoc first, List.append_assoc,
        ← ih second]
      simp [List.intercalate]

theorem rowText_andRow (dialect : Dialect) (conditions : List Condition) :
    rowText (andRow dialect conditions) =
      conditions.flatMap fun condition => " AND ".toList ++ conditionText dialect condition := by
  rw [andRow, rowText_flatMap]
  simp [keywordRow, rowText_conditionRow]

theorem rowText_conditionsRow (dialect : Dialect) (group : Group) :
    rowText (conditionsRow dialect group.conditions) = groupText dialect group := by
  obtain ⟨conditions, span⟩ := group
  match conditions with
  | [] => simp [conditionsRow, groupText]
  | [condition] => simp [conditionsRow, groupText, rowText_conditionRow]
  | first :: second :: rest =>
      simp [conditionsRow, groupText, rowText_conditionRow, rowText_andRow, intercalate_cons,
        List.flatMap_map]

theorem rowText_groupsRow (dialect : Dialect) (predicate : Predicate) :
    rowText (groupsRow dialect predicate.groups) = predicateText dialect predicate := by
  obtain ⟨groups, span⟩ := predicate
  cases groups with
  | nil => simp [groupsRow, predicateText, List.intercalate]
  | cons first rest =>
      rw [groupsRow, rowText_append, orRow, rowText_flatMap, predicateText, List.map_cons,
        intercalate_cons, List.flatMap_map]
      simp [keywordRow, rowText_conditionsRow]

/-! ## The lexemes of a clause stay apart -/

theorem separated_keywordRow {keyword : Text} (hkeyword : IsWord keyword) (behind : Text) :
    Separated (keywordRow keyword) behind :=
  ⟨Lexeme.word_endsBefore hkeyword (by simp), trivial⟩

theorem delimits_rowText_flatMap {α : Type} {keyword : Text} (row : α → List Piece)
    (items : List α) {behind : Text} (hbehind : Delimits behind) :
    Delimits (rowText (items.flatMap fun item => keywordRow keyword ++ row item) ++ behind) := by
  cases items with
  | nil => simpa using hbehind
  | cons first rest => simp [keywordRow]

/-- Items behind a keyword stay apart if each of them does. -/
theorem separated_flatMap {α : Type} {keyword : Text} (hkeyword : IsWord keyword)
    (row : α → List Piece) {items : List α}
    (hitems : ∀ item ∈ items, ∀ after, Delimits after → Separated (row item) after)
    {behind : Text} (hbehind : Delimits behind) :
    Separated (items.flatMap fun item => keywordRow keyword ++ row item) behind := by
  induction items with
  | nil => trivial
  | cons first rest ih =>
      have hrest := ih fun item hitem => hitems item (by simp [hitem])
      rw [List.flatMap_cons, separated_append, separated_append]
      refine ⟨⟨separated_keywordRow hkeyword _, ?_⟩, hrest⟩
      exact hitems first (by simp) _ (delimits_rowText_flatMap row rest hbehind)

theorem separated_conditionsRow (dialect : Dialect) {conditions : List Condition}
    (htyped : ∀ condition ∈ conditions, condition.IsTyped) {behind : Text}
    (hbehind : Delimits behind) : Separated (conditionsRow dialect conditions) behind := by
  match conditions with
  | [] => trivial
  | [condition] => exact separated_conditionRow dialect (htyped condition (by simp)) hbehind
  | first :: second :: rest =>
      have hclose : Delimits (rowText [.solid (.symbol [')'])] ++ behind) := by simp
      rw [conditionsRow, List.cons_append, separated_solid, separated_append, separated_append]
      refine ⟨Lexeme.symbol_endsBefore (by decide) _, ⟨?_, ?_⟩, ?_⟩
      · exact separated_conditionRow dialect (htyped first (by simp))
          (delimits_rowText_flatMap _ _ hclose)
      · exact separated_flatMap (by decide) _
          (fun condition hmem after hafter =>
            separated_conditionRow dialect (htyped condition (by simp [hmem])) hafter) hclose
      · exact ⟨Lexeme.symbol_endsBefore (by decide) _, trivial⟩

theorem separated_groupsRow (dialect : Dialect) {groups : List Group}
    (htyped : ∀ group ∈ groups, group.IsTyped) {behind : Text} (hbehind : Delimits behind) :
    Separated (groupsRow dialect groups) behind := by
  cases groups with
  | nil => trivial
  | cons first rest =>
      rw [groupsRow, separated_append]
      constructor
      · exact separated_conditionsRow dialect (htyped first (by simp)).conditions_typed
          (delimits_rowText_flatMap _ _ hbehind)
      · exact separated_flatMap (by decide) _
          (fun group hmem after hafter =>
            separated_conditionsRow dialect (htyped group (by simp [hmem])).conditions_typed
              hafter) hbehind

/-! ## Picking from the lexemes of a clause -/

section

variable {α : Type} {pick? : Lexeme → Option α}
variable (hword : ∀ t, pick? (.word t) = none) (hsymbol : ∀ t, pick? (.symbol t) = none)

include hword in
theorem rowPicks_flatMap {β : Type} (keyword : Text) (row : β → List Piece) (items : List β) :
    rowPicks pick? (items.flatMap fun item => keywordRow keyword ++ row item) =
      items.flatMap fun item => rowPicks pick? (row item) := by
  induction items with
  | nil => rfl
  | cons first rest ih =>
      rw [List.flatMap_cons, rowPicks_append, rowPicks_append, ih, keywordRow, rowPicks_blank,
        rowPicks_solid (hword keyword), List.flatMap_cons]
      rfl

include hword hsymbol

theorem rowPicks_conditionRow (dialect : Dialect) (condition : Condition) :
    rowPicks pick? (conditionRow dialect condition) =
      rowPicks pick? (comparandRow dialect condition.op.value condition.operand.value) := by
  have hoperator : pick? (operatorLexeme condition.op.value) = none := by
    cases condition.op.value with
    | contains | startsWith | endsWith => exact hword _
    | equal | notEqual | greater | greaterEqual | less | lessEqual => exact hsymbol _
  rw [conditionRow, rowPicks_solid (hword _), rowPicks_blank, rowPicks_solid hoperator,
    rowPicks_blank]

theorem rowPicks_conditionsRow (dialect : Dialect) (conditions : List Condition) :
    rowPicks pick? (conditionsRow dialect conditions) = conditions.flatMap fun condition =>
      rowPicks pick? (comparandRow dialect condition.op.value condition.operand.value) := by
  match conditions with
  | [] => rfl
  | [condition] =>
      rw [conditionsRow, rowPicks_conditionRow hword hsymbol, List.flatMap_singleton]
  | first :: second :: rest =>
      have hclose : rowPicks pick? [.solid (.symbol [')'])] = [] := rowPicks_solid (hsymbol _) []
      rw [conditionsRow, List.cons_append, rowPicks_solid (hsymbol _), rowPicks_append,
        rowPicks_append, andRow, rowPicks_flatMap hword, hclose, List.append_nil]
      simp only [rowPicks_conditionRow hword hsymbol, List.flatMap_cons]

/-- From a clause is picked what is picked from its operands. -/
theorem rowPicks_groupsRow (dialect : Dialect) (groups : List Group) :
    rowPicks pick? (groupsRow dialect groups) = groups.flatMap fun group =>
      group.conditions.flatMap fun condition =>
        rowPicks pick? (comparandRow dialect condition.op.value condition.operand.value) := by
  cases groups with
  | nil => rfl
  | cons first rest =>
      rw [groupsRow, rowPicks_append, orRow, rowPicks_flatMap hword, List.flatMap_cons]
      simp only [rowPicks_conditionsRow hword hsymbol]

end

end TableBrowser.Sql
