import TableBrowser.Filter.Compile
import TableBrowser.Proofs.Filter.SingleCondition

/-!
# Filters without combinators

A source without combinators can be compiled as a filter and as a condition.  A condition
takes one question mark off its text; a filter takes one off its source and another one off
each piece.  So the two agree unless two question marks stand in front, and then the filter
is what the condition behind the first of them is.
-/

namespace TableBrowser.Filter

open TableBrowser.Sql (Dialect)

variable {columns : List Column} {source : Text}

/-- A result, with no more of a failure than its cause. -/
def outcome {α : Type} (result : Except Failure α) : Except Cause α :=
  result.mapError (·.cause)

/-! ## One condition at a place -/

/-- What becomes of the text at a place that is compiled as one condition. -/
def outcomeAt (dialect : Dialect) (columns : List Column) (placed : Placed) :
    Except Cause Compiled :=
  outcome ((Condition.readAt columns placed).map (·.compiled dialect))

/-- A place shows in spans only. -/
theorem outcomeAt_congr (dialect : Dialect) (columns : List Column) {left right : Placed}
    (htext : left.strip.text = right.strip.text) :
    outcomeAt dialect columns left = outcomeAt dialect columns right := by
  rw [outcomeAt, outcomeAt]
  cases hleft : ConditionParts.read left with
  | ok parts =>
      obtain ⟨written, hproper, hwritten, rfl⟩ := ConditionParts.exists_isProper_of_read hleft
      have hright := ConditionParts.read_of_isProper hproper (htext.symm.trans hwritten)
      rw [Condition.readAt_of_ok hleft, Condition.readAt_of_ok hright]
      simp only [ConditionText.partsAt]
      cases operandOf? columns written.column written.op written.value <;> rfl
  | error failure =>
      cases hright : ConditionParts.read right with
      | ok parts =>
          obtain ⟨written, hproper, hwritten, -⟩ := ConditionParts.exists_isProper_of_read hright
          have hok := ConditionParts.read_of_isProper hproper (htext.trans hwritten)
          cases hleft.symm.trans hok
      | error other =>
          have hcause : failure.cause = other.cause := by
            rw [ConditionParts.cause_of_read hleft, ConditionParts.cause_of_read hright, htext]
          rw [Condition.readAt_of_error hleft, Condition.readAt_of_error hright]
          exact congrArg Except.error hcause

theorem outcomeAt_of_nil (dialect : Dialect) (columns : List Column) {placed : Placed}
    (hempty : placed.strip.text = []) :
    outcomeAt dialect columns placed = .error .emptyInput := by
  have hparts : ConditionParts.read placed =
      .error (.of .emptyInput ⟨placed.strip.offset, placed.strip.offset⟩) := by
    simp only [ConditionParts.read, if_pos hempty]
  rw [outcomeAt, Condition.readAt_of_error hparts]
  rfl

/-- A condition does not begin with a question mark. -/
theorem outcomeAt_of_mark (dialect : Dialect) (columns : List Column) {placed : Placed}
    (hmark : placed.strip.text.head? = some '?') :
    outcomeAt dialect columns placed = .error (.invalidCondition placed.strip.text) := by
  have hsolid : placed.strip.text ≠ [] := by
    intro hempty
    rw [hempty] at hmark
    cases hmark
  cases hparts : ConditionParts.read placed with
  | ok parts =>
      obtain ⟨written, hproper, htext, -⟩ := ConditionParts.exists_isProper_of_read hparts
      exact absurd (htext ▸ hmark) hproper.head?_ne
  | error failure =>
      have hcause := ConditionParts.cause_of_read hparts
      rw [if_neg hsolid] at hcause
      rw [outcomeAt, Condition.readAt_of_error hparts, ← hcause]
      rfl

theorem outcome_compileCondition (dialect : Dialect) (columns : List Column) (source : Text) :
    outcome ((compileCondition dialect columns source).map (·.compiled)) =
      outcomeAt dialect columns ⟨source, 0⟩ := by
  rw [outcomeAt, compileCondition, Condition.read]
  cases Condition.readAt columns ⟨source, 0⟩ <;> rfl

/-! ## Filters of one piece -/

theorem Predicate.IsSingle.preview_eq {predicate : Predicate} {condition : Condition}
    (hsingle : predicate.IsSingle condition) :
    predicate.preview = "WHERE " ++ condition.preview := by
  obtain ⟨group, hgroups, hconditions⟩ := hsingle
  have hgroup : group.preview = condition.preview := by
    rw [Group.preview, hconditions, List.map_singleton, List.intercalate_singleton]
  have hjoined : List.intercalate " OR ".toList (predicate.groups.map (·.preview)) =
      condition.preview := by
    rw [hgroups, List.map_singleton, List.intercalate_singleton, hgroup]
  exact congrArg ("WHERE ".toList ++ ·) hjoined

theorem Predicate.IsSingle.compiled_eq {predicate : Predicate} {condition : Condition}
    (hsingle : predicate.IsSingle condition) (dialect : Dialect) :
    predicate.compiled dialect = condition.compiled dialect := by
  rw [compiled, hsingle.predicateText_eq dialect, hsingle.preview_eq]
  rfl

theorem isPlain_strip (hplain : IsPlain source) : IsPlain (Placed.mk source 0).strip.text := by
  obtain ⟨before, behind, htext, -⟩ := (Placed.mk source 0).strip_within
  intro c hc
  exact hplain c (by rw [show source = _ from htext]; simp [hc])

/-- A filter without combinators is empty, or it is blank behind its question mark, or it is
one condition. -/
theorem outcome_compile_of_isPlain (dialect : Dialect) (columns : List Column)
    (hplain : IsPlain source) :
    outcome (compile dialect columns source) =
      if bareText source = [] then .error .emptyInput
      else if bareText (bareText source) = [] then .error .noConditions
      else outcomeAt dialect columns (Placed.mk source 0).strip := by
  have hbody : (Placed.mk source 0).strip.text = bareText source := Placed.strip_text _
  have hblank : (Placed.mk source 0).strip.isBlank = true ↔ bareText (bareText source) = [] := by
    rw [Placed.isBlank_iff, Placed.strip_text, hbody]
  have hpieces := conditionPieces_of_isPlain (isPlain_strip hplain)
  by_cases hempty : bareText source = []
  · rw [if_pos hempty, compile, Predicate.read, if_pos (hbody.trans hempty)]
    rfl
  rw [if_neg hempty]
  by_cases hnone : bareText (bareText source) = []
  · rw [if_pos (hblank.mpr hnone)] at hpieces
    rw [if_pos hnone, compile, Predicate.read_eq, Predicate.readBySplitting]
    simp only [hbody, if_neg hempty, hpieces]
    rfl
  · rw [if_neg (hblank.not.mpr hnone)] at hpieces
    rw [if_neg hnone, outcomeAt, compile]
    rcases Predicate.read_of_piece hpieces with
      ⟨failure, hfailed, hsource⟩ | ⟨condition, predicate, hread, hsource, hsingle⟩
    · rw [hfailed, hsource]
      rfl
    · rw [hread, hsource]
      exact congrArg Except.ok (hsingle.compiled_eq dialect)

/-! ## The two entry points -/

/-- A filter without combinators agrees with its condition, unless two question marks stand
in front.  Then it is no condition, and as a filter it is what stands behind the first of
the marks. -/
theorem compile_agrees_with_compileCondition (dialect : Dialect) (columns : List Column)
    (hplain : IsPlain source) :
    (IsMarkedOnce source →
      outcome (compile dialect columns source) =
        outcome ((compileCondition dialect columns source).map (·.compiled))) ∧
      ∀ rest, source.trimStart = '?' :: rest → ¬ IsUnmarked rest →
        outcome ((compileCondition dialect columns source).map (·.compiled)) =
            .error (.invalidCondition (Text.trim rest)) ∧
          outcome (compile dialect columns source) =
            if bareText rest = [] then .error .noConditions
            else outcome ((compileCondition dialect columns rest).map (·.compiled)) := by
  have hstrip : (Placed.mk source 0).strip.text = bareText source := Placed.strip_text _
  have hagain : (Placed.mk source 0).strip.strip.text = bareText (bareText source) := by
    rw [Placed.strip_text, hstrip]
  simp only [outcome_compile_of_isPlain dialect columns hplain, outcome_compileCondition]
  constructor
  · intro honce
    rw [bareText_bareText honce] at hagain ⊢
    by_cases hempty : bareText source = []
    · rw [if_pos hempty, outcomeAt_of_nil dialect columns (hstrip.trans hempty)]
    · rw [if_neg hempty, if_neg hempty]
      exact outcomeAt_congr dialect columns (hagain.trans hstrip.symm)
  · intro rest hmark hmarks
    have hrest := bareText_of_mark hmark
    have hhead := head?_trim_of_not_isUnmarked hmarks
    have hsolid : Text.trim rest ≠ [] := by
      intro hempty
      rw [hempty] at hhead
      cases hhead
    rw [hrest] at hstrip
    rw [hrest, bareText_trim] at hagain ⊢
    constructor
    · rw [outcomeAt_of_mark dialect columns (hstrip ▸ hhead), hstrip]
    · rw [if_neg hsolid, outcomeAt_congr dialect columns
        (hagain.trans (Placed.strip_text ⟨rest, 0⟩).symm)]

theorem compile_agrees_with_compileCondition_once :
    IsPlain "? seen = @7d" ∧
      outcome (compile .sqlite [] "? seen = @7d") =
        outcome ((compileCondition .sqlite [] "? seen = @7d").map (·.compiled)) := by
  have hplain : IsPlain "? seen = @7d" := by decide
  have honce : IsMarkedOnce "? seen = @7d" := by decide
  exact ⟨hplain, (compile_agrees_with_compileCondition .sqlite [] hplain).1 honce⟩

/-- Two question marks come off a filter and only one of them off a condition. -/
theorem compile_disagrees_with_compileCondition :
    IsPlain "??a=1" ∧
      compile .sqlite [] "??a=1" = .ok ⟨"a = 1", "WHERE a equals 1"⟩ ∧
      outcome ((compileCondition .sqlite [] "??a=1").map (·.compiled)) =
        .error (.invalidCondition "?a=1") :=
  ⟨by decide, rfl, rfl⟩

end TableBrowser.Filter
