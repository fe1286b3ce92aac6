import TableBrowser.Filter.Compile
import TableBrowser.Proofs.Filter.Descent
import TableBrowser.Proofs.Text.Readback

/-!
# What a filter is read as

A filter that is read has at least one group and no empty group, and each of its
conditions has the form in which it was typed: a column that is a word and, where
the operand is a number, the digits of a number.
-/

namespace TableBrowser.Filter

/-- The parts of a condition that are written out as they were typed. -/
structure Condition.IsTyped (condition : Condition) : Prop where
  column_word : Text.IsWord condition.column.value
  number_numeric : ∀ digits, condition.operand.value = .number digits →
    Operand.isNumeric digits = true

/-- A group with conditions, each of them as it was typed. -/
structure Group.IsTyped (group : Group) : Prop where
  conditions_ne_nil : group.conditions ≠ []
  conditions_typed : ∀ condition ∈ group.conditions, condition.IsTyped

/-! ## One condition -/

theorem ConditionParts.column_of_read {placed : Placed} {parts : ConditionParts}
    (hread : read placed = .ok parts) :
    parts.column.value = placed.strip.text.takeWhile Text.isWordChar ∧
      parts.column.value ≠ [] := by
  simp only [read] at hread
  split at hread
  · cases hread
  · split at hread
    · cases hread
    · next hcolumn =>
        split at hread
        · cases hread
        · split at hread
          · cases hread
          · cases hread
            exact ⟨rfl, hcolumn⟩

theorem Operand.isNumeric_of_classify {type? : Option Text} {raw digits : Text}
    (hclass : classify type? raw = .number digits) : isNumeric digits = true := by
  unfold classify at hclass
  split at hclass
  · next hnumeric =>
      cases hclass
      exact hnumeric
  · split at hclass
    · split at hclass <;> cases hclass
    · cases hclass

theorem ConditionParts.isNumeric_of_operand {columns : List Column} {parts : ConditionParts}
    {digits : Text} (hoperand : parts.operand columns = .ok (.number digits)) :
    Operand.isNumeric digits = true := by
  unfold operand at hoperand
  split at hoperand
  · split at hoperand <;> cases hoperand
  · split at hoperand
    · cases hoperand
    · exact Operand.isNumeric_of_classify (Except.ok.inj hoperand)

theorem Condition.readAt_eq_ok {columns : List Column} {placed : Placed}
    {condition : Condition} (hread : readAt columns placed = .ok condition) :
    ∃ parts operand, ConditionParts.read placed = .ok parts ∧
      parts.operand columns = .ok operand ∧
      condition = ⟨parts.column, parts.op, ⟨operand, parts.value.span⟩, parts.span⟩ := by
  unfold readAt at hread
  cases hparts : ConditionParts.read placed with
  | error failure =>
      rw [hparts] at hread
      cases hread
  | ok parts =>
      rw [hparts] at hread
      cases hoperand : parts.operand columns with
      | error failure =>
          simp only [bind, Except.bind, hoperand] at hread
          cases hread
      | ok operand =>
          simp only [bind, Except.bind, hoperand] at hread
          cases hread
          exact ⟨parts, operand, rfl, hoperand, rfl⟩

theorem Condition.isTyped_of_readAt {columns : List Column} {placed : Placed}
    {condition : Condition} (hread : readAt columns placed = .ok condition) :
    condition.IsTyped := by
  obtain ⟨parts, operand, hparts, hoperand, rfl⟩ := readAt_eq_ok hread
  obtain ⟨hcolumn, hne⟩ := ConditionParts.column_of_read hparts
  refine ⟨⟨hne, ?_⟩, ?_⟩
  · intro c hc
    rw [hcolumn] at hc
    exact List.all_eq_true.mp List.all_takeWhile c hc
  · intro digits hdigits
    rw [show operand = .number digits from hdigits] at hoperand
    exact ConditionParts.isNumeric_of_operand hoperand

/-! ## Groups -/

theorem Group.isTyped_of_ofConditions? {conditions : List Condition} {group : Group}
    (htyped : ∀ condition ∈ conditions, condition.IsTyped)
    (hgroup : ofConditions? conditions = some group) : group.IsTyped := by
  cases conditions with
  | nil => cases hgroup
  | cons first rest =>
      cases hgroup
      exact ⟨by simp, htyped⟩

/-- Everything read so far is as it was typed. -/
structure Progress.IsTyped (progress : Progress) : Prop where
  groups_typed : ∀ group ∈ progress.groups, group.IsTyped
  current_typed : ∀ condition ∈ progress.current, condition.IsTyped

theorem Progress.IsTyped.start : Progress.start.IsTyped :=
  ⟨by simp [Progress.start], by simp [Progress.start]⟩

theorem Progress.IsTyped.closeGroup {progress : Progress} (htyped : progress.IsTyped) :
    progress.closeGroup.IsTyped := by
  refine ⟨?_, by simp [Progress.closeGroup]⟩
  intro group hgroup
  rcases List.mem_append.mp hgroup with hgroup | hgroup
  · exact htyped.groups_typed group hgroup
  · exact Group.isTyped_of_ofConditions? htyped.current_typed (Option.mem_toList.mp hgroup)

theorem Progress.IsTyped.addCondition {progress : Progress} (htyped : progress.IsTyped)
    {condition : Condition} (hcondition : condition.IsTyped) :
    (progress.addCondition condition).IsTyped := by
  refine ⟨htyped.groups_typed, ?_⟩
  intro other hother
  rcases List.mem_append.mp hother with hother | hother
  · exact htyped.current_typed other hother
  · rw [List.mem_singleton.mp hother]
    exact hcondition

theorem isTyped_of_readTokens {columns : List Column} {base : Nat}
    {tokens : List (Located Token)} {progress : Progress} {groups : List Group}
    (htyped : progress.IsTyped)
    (hread : readTokens columns base tokens progress = .ok groups) :
    ∀ group ∈ groups, group.IsTyped := by
  induction tokens generalizing progress with
  | nil =>
      cases hread
      exact htyped.closeGroup.groups_typed
  | cons token rest ih =>
      obtain ⟨token, span⟩ := token
      cases token with
      | and => exact ih htyped hread
      | or => exact ih htyped.closeGroup hread
      | text content =>
          simp only [readTokens] at hread
          split at hread
          · exact ih htyped hread
          · split at hread
            · next condition hcondition =>
                exact ih (htyped.addCondition (Condition.isTyped_of_readAt hcondition)) hread
            · cases hread

/-- A filter that is read has a group, and every group has conditions as they
were typed. -/
theorem Predicate.isTyped_of_read {columns : List Column} {source : Text}
    {predicate : Predicate} (hread : read columns source = .ok predicate) :
    predicate.groups ≠ [] ∧ ∀ group ∈ predicate.groups, group.IsTyped := by
  simp only [read] at hread
  split at hread
  · cases hread
  · rw [readAt_eq] at hread
    split at hread
    · cases hread
    · cases hread
    · next first rest hgroups =>
        cases hread
        exact ⟨by simp, isTyped_of_readTokens Progress.IsTyped.start hgroups⟩

/-- What compiles was read as a filter. -/
theorem exists_read_of_compile {dialect : Sql.Dialect} {columns : List Column} {source : Text}
    {compiled : Compiled} (hcompile : compile dialect columns source = .ok compiled) :
    ∃ predicate, Predicate.read columns source = .ok predicate ∧
      predicate.compiled dialect = compiled := by
  rw [compile] at hcompile
  cases hread : Predicate.read columns source with
  | error failure =>
      rw [hread] at hcompile
      cases hcompile
  | ok predicate =>
      rw [hread] at hcompile
      exact ⟨predicate, rfl, Except.ok.inj hcompile⟩

end TableBrowser.Filter
