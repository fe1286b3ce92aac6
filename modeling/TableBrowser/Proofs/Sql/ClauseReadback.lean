import Mathlib.Data.List.Forall2
import TableBrowser.Proofs.Sql.ClauseRow
import TableBrowser.Sql.Reader

/-!
# Clauses read back

Reading the clause of a predicate gives its groups and conditions back, in their
order, and nothing else.  The proof follows the two steps of reading: first the row
of lexemes is cut into parts, and then the parts are put together.
-/

namespace TableBrowser.Sql

open TableBrowser.Filter TableBrowser.Text

/-! ## Cutting a clause into parts -/

/-- The reading with parts put before those it has. -/
def PartReading.behindParts (parts : List Part) (reading : PartReading) : PartReading :=
  { reading with parts := parts ++ reading.parts }

/-- The lexemes are cut into these parts, whatever stands behind them, and a
connective or the end is expected there. -/
structure CutsInto (dialect : Dialect) (expectsFactor : Bool) (lexemes : Lexemes)
    (parts : List Part) : Prop where
  partsFrom_eq : ∀ fuel depth behind,
    partsFrom dialect (parts.length + fuel) expectsFactor depth (lexemes ++ behind) =
      (partsFrom dialect fuel false depth behind).behindParts parts
  length_le : parts.length ≤ lexemes.length

namespace CutsInto

variable {dialect : Dialect} {expectsFactor : Bool} {lexemes left right : Lexemes}
variable {parts leftParts rightParts : List Part}

theorem nil : CutsInto dialect false [] [] := by
  refine ⟨fun fuel depth behind => ?_, Nat.le_refl 0⟩
  simp [PartReading.behindParts]

theorem append (hleft : CutsInto dialect expectsFactor left leftParts)
    (hright : CutsInto dialect false right rightParts) :
    CutsInto dialect expectsFactor (left ++ right) (leftParts ++ rightParts) := by
  refine ⟨fun fuel depth behind => ?_, ?_⟩
  · rw [List.length_append, Nat.add_assoc, List.append_assoc, hleft.partsFrom_eq,
      hright.partsFrom_eq]
    simp [PartReading.behindParts]
  · have hleftLength := hleft.length_le
    have hrightLength := hright.length_le
    rw [List.length_append, List.length_append]
    omega

theorem condition {condition : Condition} (htyped : condition.IsTyped) (offset : Nat) :
    CutsInto dialect true (placed offset (conditionRow dialect condition))
      [.comparison (.ofCondition dialect offset condition)] := by
  refine ⟨fun fuel depth behind => ?_, by simp [conditionRow, placed]⟩
  have hcomparison := comparison?_conditionRow dialect htyped offset behind
  rw [List.length_singleton, Nat.add_comm, partsFrom]
  · rw [hcomparison]
    rfl
  · intro span rest hrow
    rw [conditionRow, placed, List.cons_append] at hrow
    cases hrow

/-- The cutting stops in front of lexemes that are no connective. -/
theorem partsAt_append (hparts : CutsInto dialect true lexemes parts) {behind : Lexemes}
    (hstops : ∀ fuel, partsFrom dialect (fuel + 1) false 0 behind = ⟨[], behind, false, 0⟩) :
    partsAt dialect (lexemes ++ behind) = ⟨parts, behind, false, 0⟩ := by
  have hlength := hparts.length_le
  obtain ⟨spare, hspare⟩ :
      ∃ spare, (lexemes ++ behind).length + 1 = parts.length + (spare + 1) :=
    ⟨(lexemes ++ behind).length - parts.length, by rw [List.length_append]; omega⟩
  rw [partsAt, hspare, hparts.partsFrom_eq, hstops]
  simp [PartReading.behindParts]

/-- Lexemes that are cut into parts to the end are cut whole. -/
theorem partsAt_eq (hparts : CutsInto dialect true lexemes parts) :
    partsAt dialect lexemes = ⟨parts, [], false, 0⟩ := by
  have hstops : ∀ fuel, partsFrom dialect (fuel + 1) false 0 [] = ⟨[], [], false, 0⟩ := by
    intro fuel
    rw [partsFrom]
  have hcut := hparts.partsAt_append hstops
  rwa [List.append_nil] at hcut

theorem and (hparts : CutsInto dialect true lexemes parts) (span : Span) :
    CutsInto dialect false (⟨.word "AND", span⟩ :: lexemes) (.and span :: parts) := by
  refine ⟨fun fuel depth behind => ?_, Nat.succ_le_succ hparts.length_le⟩
  have hkeyword : partsFrom dialect (parts.length + fuel + 1) false depth
      (⟨.word "AND", span⟩ :: (lexemes ++ behind)) =
        (partsFrom dialect (parts.length + fuel) true depth (lexemes ++ behind)).before
          (.and span) := rfl
  rw [List.length_cons, Nat.add_right_comm, List.cons_append, hkeyword, hparts.partsFrom_eq]
  rfl

theorem or (hparts : CutsInto dialect true lexemes parts) (span : Span) :
    CutsInto dialect false (⟨.word "OR", span⟩ :: lexemes) (.or span :: parts) := by
  refine ⟨fun fuel depth behind => ?_, Nat.succ_le_succ hparts.length_le⟩
  have hkeyword : partsFrom dialect (parts.length + fuel + 1) false depth
      (⟨.word "OR", span⟩ :: (lexemes ++ behind)) =
        (partsFrom dialect (parts.length + fuel) true depth (lexemes ++ behind)).before
          (.or span) := rfl
  rw [List.length_cons, Nat.add_right_comm, List.cons_append, hkeyword, hparts.partsFrom_eq]
  rfl

theorem parentheses (hparts : CutsInto dialect true lexemes parts) (opening closing : Span) :
    CutsInto dialect true
      (⟨.symbol ['('], opening⟩ :: (lexemes ++ [⟨.symbol [')'], closing⟩]))
      (.opening :: (parts ++ [.closing])) := by
  refine ⟨fun fuel depth behind => ?_, ?_⟩
  · have hfuel : (Part.opening :: (parts ++ [Part.closing])).length + fuel =
        parts.length + (fuel + 1) + 1 := by
      rw [List.length_cons, List.length_append, List.length_singleton]
      omega
    have hopening : partsFrom dialect (parts.length + (fuel + 1) + 1) true depth
        (⟨.symbol ['('], opening⟩ :: (lexemes ++ ⟨.symbol [')'], closing⟩ :: behind)) =
          (partsFrom dialect (parts.length + (fuel + 1)) true (depth + 1)
            (lexemes ++ ⟨.symbol [')'], closing⟩ :: behind)).before .opening := rfl
    have hclosing : partsFrom dialect (fuel + 1) false (depth + 1)
        (⟨.symbol [')'], closing⟩ :: behind) =
          (partsFrom dialect fuel false depth behind).before .closing := rfl
    rw [hfuel, List.cons_append, List.append_assoc, List.singleton_append, hopening,
      hparts.partsFrom_eq, hclosing]
    simp [PartReading.behindParts, PartReading.before]
  · have hlength := hparts.length_le
    simp only [List.length_cons, List.length_append, List.length_nil]
    omega

end CutsInto

/-! ## Putting parts together -/

/-- The parts add these factors to the group at hand, wherever they stand. -/
def AddsFactors (parts : List Part) (factors : List (Factor Comparison)) : Prop :=
  ∀ stack level rest, Clause.assemble stack level (parts ++ rest) =
    Clause.assemble stack (level.add factors) rest

namespace AddsFactors

variable {parts leftParts rightParts : List Part}
variable {factors leftFactors rightFactors : List (Factor Comparison)}

theorem nil : AddsFactors [] [] := by
  intro stack level rest
  simp [Level.add]

theorem comparison (comparison : Comparison) :
    AddsFactors [.comparison comparison] [.leaf comparison] := by
  intro stack level rest
  rw [List.singleton_append, Clause.assemble]

theorem and (hparts : AddsFactors parts factors) (span : Span) :
    AddsFactors (.and span :: parts) factors := by
  intro stack level rest
  rw [List.cons_append, Clause.assemble]
  exact hparts stack level rest

theorem append (hleft : AddsFactors leftParts leftFactors)
    (hright : AddsFactors rightParts rightFactors) :
    AddsFactors (leftParts ++ rightParts) (leftFactors ++ rightFactors) := by
  intro stack level rest
  rw [List.append_assoc, hleft, hright]
  simp [Level.add]

/-- A group in parentheses adds its factors to the group around it. -/
theorem parentheses (hparts : AddsFactors parts factors) :
    AddsFactors (.opening :: (parts ++ [.closing])) factors := by
  intro stack level rest
  rw [List.cons_append, Clause.assemble, List.append_assoc, hparts, List.singleton_append,
    Clause.assemble]
  rfl

end AddsFactors

/-! ## Reading conditions and groups back -/

/-- A comparison says what a condition says, and each of its three parts stands in
the text at the bytes it was read from. -/
structure ReadsBack (dialect : Dialect) (text : Text) (condition : Condition)
    (comparison : Comparison) : Prop where
  column : comparison.column.value = condition.column.value
  comparator : comparison.comparator.value = .ofOperator condition.op.value
  comparand : comparison.comparand.value =
    .ofOperand dialect condition.op.value condition.operand.value
  slice_column : text.slice? comparison.column.span = some condition.column.value
  slice_comparator : text.slice? comparison.comparator.span = some condition.op.value.keyword
  slice_comparand : text.slice? comparison.comparand.span =
    some (comparandText dialect condition.op.value condition.operand.value)

theorem ReadsBack.ofCondition (dialect : Dialect) (before behind : Text)
    (condition : Condition) :
    ReadsBack dialect (before ++ (conditionText dialect condition ++ behind)) condition
      (.ofCondition dialect before.byteSize condition) := by
  obtain ⟨⟨column, columnSpan⟩, ⟨op, opSpan⟩, ⟨operand, operandSpan⟩, span⟩ := condition
  have hblank : (' ' : Char).utf8Size = 1 := rfl
  have hcomparator := slice?_append (before ++ column ++ [' ']) op.keyword
    (' ' :: (comparandText dialect op operand ++ behind))
  have hcomparand := slice?_append (before ++ column ++ ' ' :: op.keyword ++ [' '])
    (comparandText dialect op operand) behind
  have hcolumn := slice?_append before column
    (' ' :: (op.keyword ++ ' ' :: (comparandText dialect op operand ++ behind)))
  simp only [byteSize_append, byteSize_cons, byteSize_nil, hblank, List.append_assoc,
    List.cons_append, List.nil_append, Nat.add_zero] at hcomparator hcomparand
  refine ⟨rfl, rfl, rfl, ?_, ?_, ?_⟩
  · simpa [conditionText, Comparison.ofCondition] using hcolumn
  · simpa [conditionText, Comparison.ofCondition, Nat.add_assoc] using hcomparator
  · simpa [conditionText, Comparison.ofCondition, Nat.add_assoc] using hcomparand

/-- The comparisons say, in order, what the conditions of a group say. -/
def GroupReadsBack (dialect : Dialect) (text : Text) (conditions : List Condition)
    (comparisons : List Comparison) : Prop :=
  List.Forall₂ (ReadsBack dialect text) conditions comparisons

/-- A row that is written behind some text is cut into parts that add the
comparisons of a group. -/
def RowReadsBack (dialect : Dialect) (expectsFactor : Bool) (before behind : Text)
    (row : List Piece) (conditions : List Condition) : Prop :=
  ∃ parts comparisons,
    CutsInto dialect expectsFactor (placed before.byteSize row) parts ∧
      AddsFactors parts (comparisons.map .leaf) ∧
      GroupReadsBack dialect (before ++ (rowText row ++ behind)) conditions comparisons

theorem rowReadsBack_condition (dialect : Dialect) {condition : Condition}
    (htyped : condition.IsTyped) (before behind : Text) :
    RowReadsBack dialect true before behind (conditionRow dialect condition) [condition] := by
  refine ⟨_, [.ofCondition dialect before.byteSize condition],
    .condition htyped before.byteSize, .comparison _, ?_⟩
  rw [rowText_conditionRow]
  exact .cons (.ofCondition dialect before behind condition) .nil

/-- The text of a condition by itself is a clause of one comparison. -/
theorem ofText?_conditionText (dialect : Dialect) {condition : Condition}
    (htyped : condition.IsTyped) :
    Clause.ofText? dialect (conditionText dialect condition) =
      some [[.leaf (.ofCondition dialect 0 condition)]] := by
  have hlexemes : lexemes (conditionText dialect condition) =
      placed 0 (conditionRow dialect condition) := by
    rw [← rowText_conditionRow]
    exact lexemes_rowText (separated_conditionRow dialect htyped (by simp))
  rw [Clause.ofText?, hlexemes, (CutsInto.condition htyped 0).partsAt_eq]
  rfl

/-- Two rows behind each other read back as the conditions of both. -/
theorem RowReadsBack.append {dialect : Dialect} {expectsFactor : Bool} {before behind : Text}
    {left right : List Piece} {leftConditions rightConditions : List Condition}
    (hleft : RowReadsBack dialect expectsFactor before (rowText right ++ behind) left
      leftConditions)
    (hright : RowReadsBack dialect false (before ++ rowText left) behind right
      rightConditions) :
    RowReadsBack dialect expectsFactor before behind (left ++ right)
      (leftConditions ++ rightConditions) := by
  obtain ⟨leftParts, leftComparisons, hleftCuts, hleftAdds, hleftReads⟩ := hleft
  obtain ⟨rightParts, rightComparisons, hrightCuts, hrightAdds, hrightReads⟩ := hright
  refine ⟨leftParts ++ rightParts, leftComparisons ++ rightComparisons, ?_, ?_, ?_⟩
  · rw [placed_append, ← byteSize_append]
    exact hleftCuts.append hrightCuts
  · rw [List.map_append]
    exact hleftAdds.append hrightAdds
  · rw [List.append_assoc] at hrightReads
    rw [rowText_append, List.append_assoc]
    exact List.rel_append hleftReads hrightReads

theorem RowReadsBack.and {dialect : Dialect} {before behind : Text} {row : List Piece}
    {conditions : List Condition}
    (hrow : RowReadsBack dialect true (before ++ rowText (keywordRow "AND")) behind row
      conditions) :
    RowReadsBack dialect false before behind (keywordRow "AND" ++ row) conditions := by
  obtain ⟨parts, comparisons, hcuts, hadds, hreads⟩ := hrow
  let start := before.byteSize + 1
  let span : Span := ⟨start, start + Text.byteSize "AND"⟩
  refine ⟨.and span :: parts, comparisons, ?_, hadds.and span, ?_⟩
  · rw [placed_append, ← byteSize_append]
    exact hcuts.and span
  · rw [List.append_assoc] at hreads
    rw [rowText_append, List.append_assoc]
    exact hreads

theorem rowReadsBack_andRow (dialect : Dialect) {conditions : List Condition}
    (htyped : ∀ condition ∈ conditions, condition.IsTyped) (before behind : Text) :
    RowReadsBack dialect false before behind (andRow dialect conditions) conditions := by
  induction conditions generalizing before with
  | nil => exact ⟨[], [], .nil, .nil, .nil⟩
  | cons first rest ih =>
      have hfirst := rowReadsBack_condition dialect (htyped first (by simp))
        (before ++ rowText (keywordRow "AND")) (rowText (andRow dialect rest) ++ behind)
      have hrest := ih (fun condition hmem => htyped condition (by simp [hmem]))
        (before ++ rowText (keywordRow "AND" ++ conditionRow dialect first))
      exact hfirst.and.append hrest

theorem rowReadsBack_conditionsRow (dialect : Dialect) {group : Group}
    (htyped : group.IsTyped) (before behind : Text) :
    RowReadsBack dialect true before behind (conditionsRow dialect group.conditions)
      group.conditions := by
  obtain ⟨conditions, span⟩ := group
  match conditions with
  | [] => exact absurd rfl htyped.conditions_ne_nil
  | [condition] =>
      exact rowReadsBack_condition dialect (htyped.conditions_typed condition (by simp)) before
        behind
  | first :: second :: rest =>
      have hfirst := rowReadsBack_condition dialect
        (htyped.conditions_typed first (by simp)) (before ++ ['('])
        (rowText (andRow dialect (second :: rest)) ++ ')' :: behind)
      have hrest := rowReadsBack_andRow dialect
        (fun condition hmem => htyped.conditions_typed condition (List.mem_cons_of_mem _ hmem))
        (before ++ ['('] ++ rowText (conditionRow dialect first)) (')' :: behind)
      obtain ⟨parts, comparisons, hcuts, hadds, hreads⟩ := hfirst.append hrest
      refine ⟨.opening :: (parts ++ [.closing]), comparisons, ?_, hadds.parentheses, ?_⟩
      · have hmark : Text.byteSize ['('] = 1 := rfl
        rw [byteSize_append, hmark] at hcuts
        rw [conditionsRow, List.cons_append, placed, placed_append]
        exact hcuts.parentheses _ _
      · rw [List.append_assoc, List.singleton_append] at hreads
        rw [conditionsRow, List.cons_append, rowText_solid, rowText_append]
        simpa using hreads

/-- The groups behind their `OR`s are cut into parts that close the group at hand and
add their own. -/
theorem cutsInto_orRow (dialect : Dialect) {groups : List Group}
    (htyped : ∀ group ∈ groups, group.IsTyped) (before behind : Text) :
    ∃ parts clause,
      CutsInto dialect false (placed before.byteSize (orRow dialect groups)) parts ∧
        (∀ level, Clause.assemble [] level parts =
          level.closeGroup.groups ++ clause.map (·.map .leaf)) ∧
        List.Forall₂ (fun group comparisons =>
            GroupReadsBack dialect (before ++ (rowText (orRow dialect groups) ++ behind))
              group.conditions comparisons) groups clause := by
  induction groups generalizing before with
  | nil =>
      refine ⟨[], [], .nil, fun level => ?_, .nil⟩
      simp [Clause.assemble, Level.clause]
  | cons first rest ih =>
      have hrow : orRow dialect (first :: rest) =
          keywordRow "OR" ++ (conditionsRow dialect first.conditions ++ orRow dialect rest) := by
        rw [orRow, List.flatMap_cons, List.append_assoc]
        rfl
      obtain ⟨firstParts, comparisons, hfirstCuts, hfirstAdds, hfirstReads⟩ :=
        rowReadsBack_conditionsRow dialect (htyped first (by simp))
          (before ++ rowText (keywordRow "OR")) (rowText (orRow dialect rest) ++ behind)
      obtain ⟨parts, clause, hcuts, hassemble, hreads⟩ :=
        ih (fun group hmem => htyped group (by simp [hmem]))
          (before ++ rowText (keywordRow "OR") ++ rowText (conditionsRow dialect first.conditions))
      let start := before.byteSize + 1
      let span : Span := ⟨start, start + Text.byteSize "OR"⟩
      refine ⟨.or span :: (firstParts ++ parts), comparisons :: clause, ?_, ?_, ?_⟩
      · rw [hrow, placed_append, placed_append, ← byteSize_append, ← byteSize_append]
        exact (hfirstCuts.append hcuts).or span
      · intro level
        rw [Clause.assemble, hfirstAdds, hassemble]
        simp [Level.closeGroup, Level.add]
      · rw [hrow, rowText_append, rowText_append]
        simp only [List.append_assoc] at hfirstReads hreads ⊢
        exact .cons hfirstReads hreads

/-- The groups of a clause that is written behind some text are cut into parts, and
these are put together to what the groups say. -/
theorem cutsInto_groupsRow (dialect : Dialect) {groups : List Group} (hne : groups ≠ [])
    (htyped : ∀ group ∈ groups, group.IsTyped) (before behind : Text) :
    ∃ parts clause,
      CutsInto dialect true (placed before.byteSize (groupsRow dialect groups)) parts ∧
        Clause.ofParts parts = clause.map (·.map .leaf) ∧
        List.Forall₂ (fun group comparisons =>
            GroupReadsBack dialect (before ++ (rowText (groupsRow dialect groups) ++ behind))
              group.conditions comparisons) groups clause := by
  obtain ⟨first, rest, rfl⟩ := List.exists_cons_of_ne_nil hne
  obtain ⟨firstParts, comparisons, hfirstCuts, hfirstAdds, hfirstReads⟩ :=
    rowReadsBack_conditionsRow dialect (htyped first (by simp)) before
      (rowText (orRow dialect rest) ++ behind)
  obtain ⟨parts, clause, hcuts, hassemble, hreads⟩ :=
    cutsInto_orRow dialect (fun group hmem => htyped group (List.mem_cons_of_mem _ hmem))
      (before ++ rowText (conditionsRow dialect first.conditions)) behind
  refine ⟨firstParts ++ parts, comparisons :: clause, ?_, ?_, ?_⟩
  · rw [groupsRow, placed_append, ← byteSize_append]
    exact hfirstCuts.append hcuts
  · rw [Clause.ofParts, hfirstAdds, hassemble]
    simp [Level.closeGroup, Level.add, Level.empty]
  · rw [groupsRow, rowText_append]
    rw [List.append_assoc] at hreads ⊢
    exact .cons hfirstReads hreads

theorem reads_groupsRow (dialect : Dialect) {groups : List Group} (hne : groups ≠ [])
    (htyped : ∀ group ∈ groups, group.IsTyped) :
    ∃ parts clause,
      CutsInto dialect true (placed 0 (groupsRow dialect groups)) parts ∧
        Clause.ofParts parts = clause.map (·.map .leaf) ∧
        List.Forall₂ (fun group comparisons =>
            GroupReadsBack dialect (rowText (groupsRow dialect groups)) group.conditions
              comparisons) groups clause := by
  have hreads := cutsInto_groupsRow dialect hne htyped [] []
  rwa [List.append_nil] at hreads

/-- A clause that was written for a predicate is read back as its groups of
conditions, in their order.  Every column, operator and operand is what was written,
and each of them is read from the bytes it was written to. -/
theorem clause_readsBack (dialect : Dialect) (columns : List Column) (source : Text)
    (predicate : Predicate) (hread : Predicate.read columns source = .ok predicate) :
    ∃ clause : List (List Comparison),
      Clause.ofText? dialect (predicateText dialect predicate) =
          some (clause.map (·.map .leaf)) ∧
        List.Forall₂ (fun group comparisons =>
            List.Forall₂ (ReadsBack dialect (predicateText dialect predicate))
              group.conditions comparisons) predicate.groups clause := by
  obtain ⟨hne, htyped⟩ := Predicate.isTyped_of_read hread
  obtain ⟨parts, clause, hcuts, hparts, hreads⟩ := reads_groupsRow dialect hne htyped
  rw [rowText_groupsRow] at hreads
  refine ⟨clause, ?_, hreads⟩
  have hlexemes : lexemes (predicateText dialect predicate) =
      placed 0 (groupsRow dialect predicate.groups) := by
    rw [← rowText_groupsRow]
    exact lexemes_rowText (separated_groupsRow dialect htyped (by simp))
  rw [Clause.ofText?, hlexemes, hcuts.partsAt_eq]
  simp [PartReading.isWhole, hparts]

/-- Quotation marks, keywords and a parenthesis inside of a value stay inside. -/
theorem clause_readsBack_quotes :
    ∃ predicate clause,
      Predicate.read [] "a=x' OR (b&c*O'B|d<@2w|and=-2.5" = .ok predicate ∧
        Clause.ofText? .sqlite (predicateText .sqlite predicate) =
          some (clause.map (·.map .leaf)) ∧
        List.Forall₂ (fun group comparisons =>
            List.Forall₂ (ReadsBack .sqlite (predicateText .sqlite predicate))
              group.conditions comparisons) predicate.groups clause := by
  obtain ⟨predicate, hread⟩ : ∃ predicate,
      Predicate.read [] "a=x' OR (b&c*O'B|d<@2w|and=-2.5" = .ok predicate := ⟨_, rfl⟩
  obtain ⟨clause, hclause⟩ := clause_readsBack .sqlite [] _ predicate hread
  exact ⟨predicate, clause, hread, hclause⟩

end TableBrowser.Sql
