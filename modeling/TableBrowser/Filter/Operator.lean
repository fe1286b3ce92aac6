import TableBrowser.Text.Basic

/-!
# Comparison operators

A condition compares a column with a value by one of nine operators.  Six are
plain comparisons and three are pattern tests, which become `LIKE` with wildcards
put around the value.
-/

namespace TableBrowser.Filter

inductive Operator
  | equal
  | notEqual
  | greater
  | greaterEqual
  | less
  | lessEqual
  | contains
  | startsWith
  | endsWith
  deriving DecidableEq

namespace Operator

def all : List Operator :=
  [.equal, .notEqual, .greater, .greaterEqual, .less, .lessEqual,
    .contains, .startsWith, .endsWith]

/-- The operator as it is typed. -/
def symbol : Operator → Text
  | .equal => "="
  | .notEqual => "!="
  | .greater => ">"
  | .greaterEqual => ">="
  | .less => "<"
  | .lessEqual => "<="
  | .contains => "*"
  | .startsWith => "^"
  | .endsWith => "$"

/-- The operator as it is written in SQL. -/
def keyword : Operator → Text
  | .contains | .startsWith | .endsWith => "LIKE"
  | plain => plain.symbol

/-- The operator in words. -/
def phrase : Operator → Text
  | .equal => "equals"
  | .notEqual => "not equals"
  | .greater => "greater than"
  | .greaterEqual => "greater than or equal to"
  | .less => "less than"
  | .lessEqual => "less than or equal to"
  | .contains => "contains"
  | .startsWith => "starts with"
  | .endsWith => "ends with"

def isPattern : Operator → Bool
  | .contains | .startsWith | .endsWith => true
  | _ => false

/-- The pattern a pattern test looks for; plain comparisons have none. -/
def pattern? (op : Operator) (value : Text) : Option Text :=
  match op with
  | .contains => some ("%" ++ value ++ "%")
  | .startsWith => some (value ++ "%")
  | .endsWith => some ("%" ++ value)
  | _ => none

/-- The longest operator a text starts with, and the text behind it. -/
def leading? : Text → Option (Operator × Text)
  | '!' :: '=' :: rest => some (.notEqual, rest)
  | '>' :: '=' :: rest => some (.greaterEqual, rest)
  | '<' :: '=' :: rest => some (.lessEqual, rest)
  | '=' :: rest => some (.equal, rest)
  | '>' :: rest => some (.greater, rest)
  | '<' :: rest => some (.less, rest)
  | '*' :: rest => some (.contains, rest)
  | '^' :: rest => some (.startsWith, rest)
  | '$' :: rest => some (.endsWith, rest)
  | _ => none

def ofSymbol? (t : Text) : Option Operator :=
  all.find? (·.symbol == t)

end Operator

end TableBrowser.Filter
