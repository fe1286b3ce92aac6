import TableBrowser.Filter.Operand
import TableBrowser.Filter.Operator
import TableBrowser.Text.Span

/-!
# Predicates

A filter stands for an OR of groups, each of them an AND of conditions on single
columns.  Every part knows the bytes of the source it was read from.  A preview
tells in words what a filter looks for; it is meant for people and follows no grammar.
-/

namespace TableBrowser.Filter

structure Condition where
  column : Located Text
  op : Located Operator
  operand : Located Operand
  span : Span
  deriving DecidableEq

structure Group where
  conditions : List Condition
  span : Span
  deriving DecidableEq

structure Predicate where
  groups : List Group
  span : Span
  deriving DecidableEq

namespace Predicate

/-- All conditions in source order. -/
def conditions (p : Predicate) : List Condition :=
  p.groups.flatMap (·.conditions)

end Predicate

/-! ## Previews -/

def Operand.preview : Operand → Text
  | .number digits => digits
  | .text value => '"' :: value ++ ['"']
  | .binary uuid => uuid.toText
  | .date relative => relative.describe

def Condition.preview (condition : Condition) : Text :=
  condition.column.value ++ " " ++ condition.op.value.phrase ++ " " ++
    condition.operand.value.preview

def Group.preview (group : Group) : Text :=
  List.intercalate " AND ".toList (group.conditions.map (·.preview))

def Predicate.preview (predicate : Predicate) : Text :=
  "WHERE " ++ List.intercalate " OR ".toList (predicate.groups.map (·.preview))

end TableBrowser.Filter
