import TableBrowser.Filter.Predicate

/-!
# Writing a predicate as a clause

A predicate becomes the body of a WHERE clause.  A group of several conditions
stands in parentheses, a group of one stands bare, and a pattern test quotes the
pattern in place of the value.  Strings and names stand between quotation marks, and
a mark inside is written twice.

The two dialects agree on comparisons, patterns and strings.  They differ in how
relative dates and constants of raw bytes are written.
-/

namespace TableBrowser.Sql

open TableBrowser.Filter

/-! ## Quoted text -/

/-- Writes every mark in a text twice. -/
def doubled (mark : Char) (t : Text) : Text :=
  t.flatMap fun c => if c = mark then [mark, mark] else [c]

/-- A text between marks. -/
def quoted (mark : Char) (t : Text) : Text :=
  mark :: doubled mark t ++ [mark]

/-- A string constant. -/
def quotedString (t : Text) : Text :=
  quoted '\'' t

/-- A name of a table or column. -/
def quotedName (t : Text) : Text :=
  quoted '"' t

/-- Reads the text behind an opening mark; gives the value and the text behind
the closing mark. -/
def unquoteFrom (mark : Char) : Text → Option (Text × Text)
  | [] => none
  | c :: rest =>
    if c = mark then
      match rest with
      | d :: behind =>
        if d = mark then (unquoteFrom mark behind).map fun (t, after) => (mark :: t, after)
        else some ([], rest)
      | [] => some ([], [])
    else (unquoteFrom mark rest).map fun (t, after) => (c :: t, after)

/-! ## Dialects -/

inductive Dialect
  | mySql
  | sqlite
  deriving DecidableEq

/-- The unit keyword of an interval. -/
def intervalKeyword : DateUnit → Text
  | .hour => "HOUR"
  | .day => "DAY"
  | .week => "WEEK"
  | .month => "MONTH"
  | .year => "YEAR"

/-- An amount as a number of units of which there is a modifier; a week is seven
days. -/
def modifierUnits (amount : Nat) : DateUnit → Nat × Text
  | .hour => (amount, "hours")
  | .day => (amount, "days")
  | .week => (amount * 7, "days")
  | .month => (amount, "months")
  | .year => (amount, "years")

namespace Dialect

/-- The expression of a relative date. -/
def relativeDate : Dialect → RelativeDate → Text
  | .mySql, .now => "NOW()"
  | .mySql, .today => "CURDATE()"
  | .mySql, .yesterday => "DATE_SUB(CURDATE(), INTERVAL 1 DAY)"
  | .mySql, .ago amount unit =>
    "DATE_SUB(NOW(), INTERVAL " ++ Text.ofNat amount.toNat ++ " " ++ intervalKeyword unit ++ ")"
  | .sqlite, .now => "datetime('now')"
  | .sqlite, .today => "date('now')"
  | .sqlite, .yesterday => "date('now', '-1 day')"
  | .sqlite, .ago amount unit =>
    let (count, name) := modifierUnits amount.toNat unit
    "datetime('now', '-" ++ Text.ofNat count ++ " " ++ name ++ "')"

/-- The constant for bytes given by their digits. -/
def binaryLiteral : Dialect → Text → Text
  | .mySql, digits => "UNHEX('" ++ digits ++ "')"
  | .sqlite, digits => "X'" ++ digits ++ "'"

end Dialect

/-! ## Clauses -/

def operandText (dialect : Dialect) : Operand → Text
  | .number digits => digits
  | .text value => quotedString value
  | .binary uuid => dialect.binaryLiteral uuid.digits
  | .date date => dialect.relativeDate date

/-- The right side of a comparison. -/
def comparandText (dialect : Dialect) (op : Operator) : Operand → Text
  | .text value => quotedString ((op.pattern? value).getD value)
  | operand => operandText dialect operand

def conditionText (dialect : Dialect) (condition : Condition) : Text :=
  condition.column.value ++ " " ++ condition.op.value.keyword ++ " " ++
    comparandText dialect condition.op.value condition.operand.value

def groupText (dialect : Dialect) (group : Group) : Text :=
  let parts := group.conditions.map (conditionText dialect)
  if parts.length > 1 then '(' :: List.intercalate " AND ".toList parts ++ [')']
  else parts.flatten

def predicateText (dialect : Dialect) (predicate : Predicate) : Text :=
  List.intercalate " OR ".toList (predicate.groups.map (groupText dialect))

end TableBrowser.Sql
