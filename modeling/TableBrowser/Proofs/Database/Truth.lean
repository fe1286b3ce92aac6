import TableBrowser.Database.Evaluate
import TableBrowser.Proofs.Sql.StatementRow

/-!
# The truth of a filter

A filter is an OR of groups and a group is an AND of conditions.  Its truth can be computed
from that of its conditions alone, whatever judges these, and a clause that says what the
filter says has the same truth.
-/

namespace TableBrowser.Database.Truth

/-- The truth of an AND. -/
def all (truths : List Truth) : Truth :=
  truths.foldr Truth.and (some true)

/-- The truth of an OR. -/
def any (truths : List Truth) : Truth :=
  truths.foldr Truth.or (some false)

@[simp]
theorem all_cons (truth : Truth) (rest : List Truth) :
    all (truth :: rest) = truth.and (all rest) := rfl

@[simp]
theorem any_cons (truth : Truth) (rest : List Truth) :
    any (truth :: rest) = truth.or (any rest) := rfl

theorem and_eq_true_iff (a b : Truth) :
    a.and b = some true ↔ a = some true ∧ b = some true := by
  rcases a with _ | _ | _ <;> rcases b with _ | _ | _ <;> simp [Truth.and]

theorem or_eq_true_iff (a b : Truth) :
    a.or b = some true ↔ a = some true ∨ b = some true := by
  rcases a with _ | _ | _ <;> rcases b with _ | _ | _ <;> simp [Truth.or]

theorem all_eq_true_iff (truths : List Truth) :
    all truths = some true ↔ ∀ truth ∈ truths, truth = some true := by
  induction truths with
  | nil => simp [all]
  | cons truth rest ih => rw [List.forall_mem_cons, ← ih, all_cons, and_eq_true_iff]

theorem any_eq_true_iff (truths : List Truth) :
    any truths = some true ↔ some true ∈ truths := by
  induction truths with
  | nil => simp [any]
  | cons truth rest ih => rw [List.mem_cons, ← ih, any_cons, or_eq_true_iff, eq_comm]

/-- An OR of an AND of one truth is this truth. -/
theorem any_all_singleton (truth : Truth) : any [all [truth]] = truth := by
  rcases truth with _ | _ | _ <;> rfl

end TableBrowser.Database.Truth

namespace TableBrowser.Database

open TableBrowser.Sql

/-! ## The truth of a formula -/

section Formulas

variable {α β : Type}

theorem groupTruth_cons (truth : α → Truth) (factor : Factor α) (rest : List (Factor α)) :
    groupTruth truth (factor :: rest) =
      (factorTruth truth factor).and (groupTruth truth rest) := by
  rw [groupTruth]
  rcases factorTruth truth factor with _ | _ | _ <;> rfl

theorem formulaTruth_cons (truth : α → Truth) (group : List (Factor α)) (rest : Formula α) :
    formulaTruth truth (group :: rest) =
      (groupTruth truth group).or (formulaTruth truth rest) := by
  rw [formulaTruth]
  rcases groupTruth truth group with _ | _ | _ <;> rfl

/-- A clause is true only if one of its groups is. -/
theorem exists_group_of_formulaTruth {truth : α → Truth} {formula : Formula α}
    (htrue : formulaTruth truth formula = some true) :
    ∃ group ∈ formula, groupTruth truth group = some true := by
  induction formula with
  | nil => cases htrue
  | cons group rest ih =>
      rw [formulaTruth_cons, Truth.or_eq_true_iff] at htrue
      rcases htrue with hgroup | hrest
      · exact ⟨group, List.mem_cons_self, hgroup⟩
      · obtain ⟨other, hother, hotherTrue⟩ := ih hrest
        exact ⟨other, List.mem_cons_of_mem _ hother, hotherTrue⟩

theorem groupTruth_leaves (truth : α → Truth) (leaves : List α) :
    groupTruth truth (leaves.map .leaf) = .all (leaves.map truth) := by
  induction leaves with
  | nil => rfl
  | cons leaf rest ih =>
      rw [List.map_cons, List.map_cons, groupTruth_cons, factorTruth, ih, Truth.all_cons]

theorem formulaTruth_leaves (truth : α → Truth) (groups : List (List α)) :
    formulaTruth truth (groups.map (·.map .leaf)) =
      .any (groups.map fun group => .all (group.map truth)) := by
  induction groups with
  | nil => rfl
  | cons group rest ih =>
      rw [List.map_cons, List.map_cons, formulaTruth_cons, groupTruth_leaves, ih,
        Truth.any_cons]

theorem groupMap_leaves (f : α → β) (leaves : List α) :
    groupMap f (leaves.map .leaf) = (leaves.map f).map .leaf := by
  induction leaves with
  | nil => rfl
  | cons leaf rest ih => rw [List.map_cons, groupMap, Factor.map, ih]; rfl

theorem formulaMap_leaves (f : α → β) (groups : List (List α)) :
    formulaMap f (groups.map (·.map .leaf)) = (groups.map (·.map f)).map (·.map .leaf) := by
  induction groups with
  | nil => rfl
  | cons group rest ih => rw [List.map_cons, formulaMap, groupMap_leaves, ih]; rfl

end Formulas

end TableBrowser.Database

/-! ## What comparisons and conditions say -/

namespace TableBrowser.Sql

open TableBrowser.Filter
open TableBrowser.Database (Truth formulaTruth)

/-- What a comparison says, wherever it stands. -/
structure Proposition where
  column : Text
  comparator : Comparator
  comparand : Comparand
  deriving DecidableEq

namespace Proposition

def ofComparison (comparison : Comparison) : Proposition :=
  ⟨comparison.column.value, comparison.comparator.value, comparison.comparand.value⟩

/-- What a condition of a filter says in SQL. -/
def ofCondition (condition : Condition) : Proposition :=
  ⟨condition.column.value, .ofOperator condition.op.value,
    .ofOperand .sqlite condition.op.value condition.operand.value⟩

end Proposition

/-- A clause that is an OR of groups, each an AND of comparisons. -/
def clauseOf (groups : List (List Comparison)) : Clause :=
  groups.map (·.map .leaf)

/-- The truth of a clause, by what judges its comparisons. -/
def Clause.truth (judge : Proposition → Truth) (clause : Clause) : Truth :=
  formulaTruth (fun comparison => judge (.ofComparison comparison)) clause

theorem Clause.truth_clauseOf (judge : Proposition → Truth) (groups : List (List Comparison)) :
    (clauseOf groups).truth judge =
      .any (groups.map fun group => .all (group.map fun comparison =>
        judge (.ofComparison comparison))) :=
  Database.formulaTruth_leaves _ groups

end TableBrowser.Sql

namespace TableBrowser.Filter

open TableBrowser.Sql
open TableBrowser.Database (Truth)

variable (judge : Proposition → Truth)

/-- The truth of a group: an AND of its conditions. -/
def Group.truth (group : Group) : Truth :=
  .all (group.conditions.map fun condition => judge (.ofCondition condition))

/-- The truth of a filter: an OR of its groups. -/
def Predicate.truth (predicate : Predicate) : Truth :=
  .any (predicate.groups.map (·.truth judge))

variable {judge}

/-- Only what is said of the conditions of a filter matters for its truth. -/
theorem Predicate.truth_congr {predicate : Predicate} {left right : Proposition → Truth}
    (hsame : ∀ condition ∈ predicate.conditions,
      left (.ofCondition condition) = right (.ofCondition condition)) :
    predicate.truth left = predicate.truth right := by
  refine congrArg Truth.any (List.map_congr_left fun group hgroup => ?_)
  refine congrArg Truth.all (List.map_congr_left fun condition hcondition => ?_)
  exact hsame condition (List.mem_flatMap.mpr ⟨group, hgroup, hcondition⟩)

end TableBrowser.Filter

/-! ## Clauses that say what a filter says -/

namespace TableBrowser.Sql

open TableBrowser.Filter
open TableBrowser.Database (Truth)

variable {text : Text} {judge : Proposition → Truth}

theorem ReadsBack.ofComparison_eq {condition : Condition} {comparison : Comparison}
    (hreads : ReadsBack .sqlite text condition comparison) :
    Proposition.ofComparison comparison = .ofCondition condition := by
  rw [Proposition.ofComparison, hreads.column, hreads.comparator, hreads.comparand]
  rfl

theorem GroupReadsBack.map_ofComparison_eq {conditions : List Condition}
    {comparisons : List Comparison} (hreads : GroupReadsBack .sqlite text conditions comparisons) :
    comparisons.map Proposition.ofComparison = conditions.map Proposition.ofCondition := by
  induction hreads with
  | nil => rfl
  | cons hfirst _ ih => rw [List.map_cons, List.map_cons, ih, hfirst.ofComparison_eq]

/-- What is read back of a filter says what its conditions say, one after the other. -/
theorem map_ofComparison_flatten {groups : List Group} {comparisons : List (List Comparison)}
    (hreads : List.Forall₂ (fun group => GroupReadsBack .sqlite text group.conditions) groups
      comparisons) :
    comparisons.flatten.map Proposition.ofComparison =
      (groups.flatMap (·.conditions)).map Proposition.ofCondition := by
  induction hreads with
  | nil => rfl
  | cons hfirst _ ih =>
      rw [List.flatten_cons, List.flatMap_cons, List.map_append, List.map_append, ih,
        GroupReadsBack.map_ofComparison_eq hfirst]

/-- A clause that says what a filter says is true, false or unknown like the filter. -/
theorem ClauseSays.truth_eq {predicate : Predicate} {clause : Clause}
    (hmeans : ClauseSays .sqlite text predicate clause) :
    clause.truth judge = predicate.truth judge := by
  obtain ⟨comparisons, rfl, hgroups⟩ := hmeans
  refine (Clause.truth_clauseOf judge comparisons).trans (congrArg Truth.any ?_)
  obtain ⟨groups, span⟩ := predicate
  dsimp only at hgroups ⊢
  induction hgroups with
  | nil => rfl
  | cons hgroup _ ih =>
      have hsame := congrArg (List.map judge) hgroup.map_ofComparison_eq
      rw [List.map_map, List.map_map] at hsame
      rw [List.map_cons, List.map_cons, ih, Group.truth]
      exact congrArg (fun truths => Truth.all truths :: _) hsame

end TableBrowser.Sql
