import TableBrowser.Filter.Expression
import TableBrowser.Filter.Predicate
import TableBrowser.Sql.Clause

/-!
# Compiling filters

A filter compiles to the body of a WHERE clause and a preview, for one dialect
and with the columns of the table it is meant for.
-/

namespace TableBrowser.Filter

open TableBrowser.Sql

structure Compiled where
  clause : Text
  preview : Text
  deriving DecidableEq

def Predicate.compiled (dialect : Dialect) (predicate : Predicate) : Compiled :=
  ⟨predicateText dialect predicate, predicate.preview⟩

/-- A condition and what it compiles to. -/
structure CompiledCondition where
  condition : Condition
  compiled : Compiled

def Condition.compiled (dialect : Dialect) (condition : Condition) : Compiled :=
  ⟨conditionText dialect condition, "WHERE " ++ condition.preview⟩

/-- Compiles a whole filter. -/
def compile (dialect : Dialect) (columns : List Column) (source : Text) :
    Except Failure Compiled :=
  (Predicate.read columns source).map (·.compiled dialect)

/-- Compiles a source that is one condition. -/
def compileCondition (dialect : Dialect) (columns : List Column) (source : Text) :
    Except Failure CompiledCondition :=
  (Condition.read columns source).map fun condition =>
    ⟨condition, condition.compiled dialect⟩

end TableBrowser.Filter
