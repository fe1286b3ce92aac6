import Mathlib.Data.List.Forall2
import TableBrowser.Proofs.Filter.ConditionText

/-!
# What the types of columns change

A filter consults the columns of its table only to tell whether a UUID stands for raw bytes.
So two readings of one source with different columns go the same way: they fail in the same
way, or they find the same conditions at the same places, and their operands differ only
where one of them is the text of a UUID and the other its bytes.
-/

namespace TableBrowser.Filter

/-! ## Two results -/

/-- Both results are the same failure, or both are values in a relation. -/
inductive Agree {α β : Type} (R : α → β → Prop) : Except Failure α → Except Failure β → Prop
  | failed (failure : Failure) : Agree R (.error failure) (.error failure)
  | read {a : α} {b : β} (hrel : R a b) : Agree R (.ok a) (.ok b)

/-! ## Parts of a filter -/

/-- A text, and the bytes of the UUID that it is written as. -/
def Operand.Spells (text bytes : Operand) : Prop :=
  ∃ raw uuid, text = .text raw ∧ bytes = .binary uuid ∧ Uuid.ofText? raw = some uuid

/-- Two operands of one value that is tested by an operator. -/
def Operand.Matches (op : Operator) (left right : Operand) : Prop :=
  left = right ∨ op.isPattern = false ∧ (left.Spells right ∨ right.Spells left)

/-- Two conditions that stand at the same place and differ in their operands at most. -/
structure Condition.Matches (left right : Condition) : Prop where
  column_eq : left.column = right.column
  op_eq : left.op = right.op
  operand_matches : left.operand.value.Matches left.op.value right.operand.value
  operandSpan_eq : left.operand.span = right.operand.span
  span_eq : left.span = right.span

structure Group.Matches (left right : Group) : Prop where
  conditions_match : List.Forall₂ Condition.Matches left.conditions right.conditions
  span_eq : left.span = right.span

structure Predicate.Matches (left right : Predicate) : Prop where
  groups_match : List.Forall₂ Group.Matches left.groups right.groups
  span_eq : left.span = right.span

/-! ## One condition -/

theorem Operand.matches_classify {op : Operator} (hop : op.isPattern = false)
    (left? right? : Option Text) (raw : Text) :
    (classify left? raw).Matches op (classify right? raw) := by
  unfold classify
  by_cases hnumeric : isNumeric raw = true
  · rw [if_pos hnumeric, if_pos hnumeric]
    exact .inl rfl
  rw [if_neg hnumeric, if_neg hnumeric]
  cases huuid : Uuid.ofText? raw with
  | none =>
      left
      simp only [ite_self]
  | some uuid =>
      have hspells : (Operand.text raw).Spells (.binary uuid) := ⟨raw, uuid, rfl, rfl, huuid⟩
      cases left?.any Column.holdsBinary <;> cases right?.any Column.holdsBinary
      · exact .inl rfl
      · exact .inr ⟨hop, .inl hspells⟩
      · exact .inr ⟨hop, .inr hspells⟩
      · exact .inl rfl

/-- The columns decide neither whether a value goes with its operator nor, where it is a
date, a number or behind a pattern test, what it stands for. -/
theorem operandOf?_matches (left right : List Column) (column : Text) (op : Operator)
    (value : Text) :
    (operandOf? left column op value = none ∧ operandOf? right column op value = none) ∨
      ∃ found other, operandOf? left column op value = some found ∧
        operandOf? right column op value = some other ∧ found.Matches op other := by
  unfold operandOf?
  cases RelativeDate.ofToken? value with
  | some date =>
      cases hop : op.isPattern with
      | true => exact .inl ⟨rfl, rfl⟩
      | false => exact .inr ⟨_, _, rfl, rfl, .inl rfl⟩
  | none =>
      right
      cases hop : op.isPattern with
      | true => exact ⟨_, _, rfl, rfl, .inl rfl⟩
      | false => exact ⟨_, _, rfl, rfl, Operand.matches_classify hop _ _ value⟩

variable (left right : List Column)

theorem Condition.readAt_agree (placed : Placed) :
    Agree Condition.Matches (readAt left placed) (readAt right placed) := by
  cases hparts : ConditionParts.read placed with
  | error failure =>
      rw [readAt_of_error hparts, readAt_of_error hparts]
      exact .failed failure
  | ok parts =>
      rw [readAt_of_ok hparts, readAt_of_ok hparts]
      rcases operandOf?_matches left right parts.column.value parts.op.value parts.value.value with
        ⟨hleft, hright⟩ | ⟨found, other, hleft, hright, hmatches⟩
      · rw [hleft, hright]
        exact .failed _
      · rw [hleft, hright]
        exact .read ⟨rfl, rfl, hmatches, rfl, rfl⟩

/-! ## Groups -/

theorem getLastD_rel {α β : Type} {R : α → β → Prop} {xs : List α} {ys : List β}
    (hrel : List.Forall₂ R xs ys) {x : α} {y : β} (hdefault : R x y) :
    R (xs.getLastD x) (ys.getLastD y) := by
  induction hrel generalizing x y with
  | nil => exact hdefault
  | cons hhead _ ih =>
      rw [List.getLastD_cons, List.getLastD_cons]
      exact ih hhead

/-- What spans from the first to the last of some parts. -/
theorem cover_getLastD_congr {α β : Type} {R : α → β → Prop} {spanOf : α → Span}
    {otherOf : β → Span} (hspan : ∀ x y, R x y → spanOf x = otherOf y) {x : α} {xs : List α}
    {y : β} {ys : List β} (hhead : R x y) (hrest : List.Forall₂ R xs ys) :
    (spanOf x).cover (spanOf ((x :: xs).getLastD x)) =
      (otherOf y).cover (otherOf ((y :: ys).getLastD y)) := by
  rw [hspan x y hhead, hspan _ _ (getLastD_rel (.cons hhead hrest) hhead)]

theorem Group.ofConditions?_matches {conditions others : List Condition}
    (hmatch : List.Forall₂ Condition.Matches conditions others) :
    List.Forall₂ Group.Matches (ofConditions? conditions).toList
      (ofConditions? others).toList := by
  cases hmatch with
  | nil => exact .nil
  | cons hhead hrest =>
      have hspan := cover_getLastD_congr (fun _ _ hrel => hrel.span_eq) hhead hrest
      exact .cons ⟨.cons hhead hrest, hspan⟩ .nil

/-- Two readings that have come to the same point. -/
structure Progress.Matches (left right : Progress) : Prop where
  groups_match : List.Forall₂ Group.Matches left.groups right.groups
  current_match : List.Forall₂ Condition.Matches left.current right.current

namespace Progress.Matches

variable {progress other : Progress}

theorem closeGroup (hmatches : progress.Matches other) :
    progress.closeGroup.Matches other.closeGroup :=
  ⟨List.rel_append hmatches.groups_match (Group.ofConditions?_matches hmatches.current_match),
    .nil⟩

theorem addCondition (hmatches : progress.Matches other) {condition found : Condition}
    (hcondition : condition.Matches found) :
    (progress.addCondition condition).Matches (other.addCondition found) :=
  ⟨hmatches.groups_match, List.rel_append hmatches.current_match (.cons hcondition .nil)⟩

end Progress.Matches

/-- Both readings take the tokens one by one, and no token takes them apart. -/
theorem readTokens_agree (base : Nat) (tokens : List (Located Token)) {progress other : Progress}
    (hmatches : progress.Matches other) :
    Agree (List.Forall₂ Group.Matches) (readTokens left base tokens progress)
      (readTokens right base tokens other) := by
  induction tokens generalizing progress other with
  | nil => exact .read hmatches.closeGroup.groups_match
  | cons token rest ih =>
      obtain ⟨token, span⟩ := token
      cases token with
      | and => exact ih hmatches
      | or => exact ih hmatches.closeGroup
      | text content =>
          simp only [readTokens]
          split
          · exact ih hmatches
          · have hagree := Condition.readAt_agree left right ⟨content, base + span.start⟩
            revert hagree
            generalize Condition.readAt left ⟨content, base + span.start⟩ = found
            generalize Condition.readAt right ⟨content, base + span.start⟩ = same
            rintro (failure | hcondition)
            · exact .failed failure
            · exact ih (hmatches.addCondition hcondition)

/-! ## Predicates -/

theorem Predicate.readAt_agree (placed : Placed) :
    Agree Predicate.Matches (readAt left placed) (readAt right placed) := by
  have hagree := readTokens_agree left right placed.offset (tokens placed.text)
    (⟨.nil, .nil⟩ : Progress.start.Matches Progress.start)
  rw [readAt_eq, readAt_eq]
  revert hagree
  generalize readTokens left placed.offset (tokens placed.text) .start = groups
  generalize readTokens right placed.offset (tokens placed.text) .start = others
  rintro (failure | hgroups)
  · exact .failed failure
  · cases hgroups with
    | nil => exact .failed _
    | cons hhead hrest =>
        have hspan := cover_getLastD_congr (fun _ _ hrel => hrel.span_eq) hhead hrest
        exact .read ⟨.cons hhead hrest, hspan⟩

theorem Predicate.read_agree (source : Text) :
    Agree Predicate.Matches (read left source) (read right source) := by
  simp only [read]
  split
  · exact .failed _
  · exact readAt_agree left right _

end TableBrowser.Filter
