import TableBrowser.Filter.Operator
import TableBrowser.Sql.Clause
import TableBrowser.Sql.Lexeme

/-!
# Comparisons of SQL

A comparison has a word on its left and a constant on its right: a number, a string,
raw bytes or a moment relative to now.  Each part keeps its place in the text.
-/

namespace TableBrowser.Sql

open TableBrowser.Filter

inductive Comparator
  | equal
  | notEqual
  | greater
  | greaterEqual
  | less
  | lessEqual
  | like
  deriving DecidableEq

/-- The comparator that an operator of a filter is written as. -/
def Comparator.ofOperator : Operator → Comparator
  | .equal => .equal
  | .notEqual => .notEqual
  | .greater => .greater
  | .greaterEqual => .greaterEqual
  | .less => .less
  | .lessEqual => .lessEqual
  | .contains | .startsWith | .endsWith => .like

/-- A moment relative to the evaluation, as a date or as a date with the time. -/
structure Moment where
  dateOnly : Bool
  back? : Option (Nat × DateUnit)
  deriving DecidableEq

/-- The right side of a comparison. -/
inductive Comparand
  | number (text : Text)
  | string (value : Text)
  | bytes (digits : Text)
  | moment (moment : Moment)
  deriving DecidableEq

structure Comparison where
  column : Located Text
  comparator : Located Comparator
  comparand : Located Comparand
  deriving DecidableEq

abbrev Lexemes := List (Located Lexeme)

def isKeyword (keyword : Text) : Lexeme → Bool
  | .word t => Text.sameLetters keyword t
  | _ => false

def comparator? : Lexeme → Option Comparator
  | .symbol ['='] => some .equal
  | .symbol ['!', '='] => some .notEqual
  | .symbol ['>'] => some .greater
  | .symbol ['>', '='] => some .greaterEqual
  | .symbol ['<'] => some .less
  | .symbol ['<', '='] => some .lessEqual
  | lexeme => if isKeyword "LIKE" lexeme then some .like else none

/-- An unsigned number. -/
def numeral? : Lexeme → Option Text
  | .word t => if t.all Text.isDigit then some t else none
  | .decimal whole fraction => some (whole ++ '.' :: fraction)
  | _ => none

/-- The unit a modifier names, in the singular or the plural. -/
def modifierUnit? (name : Text) : Option DateUnit :=
  [DateUnit.hour, .day, .month, .year].find? fun unit =>
    name = unit.name ∨ name = unit.name ++ ['s']

/-- Reads a modifier such as `-14 days`. -/
def modifier? : Text → Option (Nat × DateUnit)
  | '-' :: rest => do
    let (digits, name) ← Text.splitOnce? ' ' rest
    let amount ← Text.toNat? digits
    let unit ← modifierUnit? name
    return (amount, unit)
  | _ => none

def intervalUnit? (lexeme : Lexeme) : Option DateUnit :=
  [DateUnit.hour, .day, .week, .month, .year].find? fun unit =>
    isKeyword (intervalKeyword unit) lexeme

/-- A call of one of the two date functions of a dialect. -/
def momentFunction? (dialect : Dialect) (lexeme : Lexeme) : Option Bool :=
  match dialect with
  | .sqlite =>
    if isKeyword "date" lexeme then some true
    else if isKeyword "datetime" lexeme then some false
    else none
  | .mySql =>
    if isKeyword "CURDATE" lexeme then some true
    else if isKeyword "NOW" lexeme then some false
    else none

/-- Reads a moment; gives the lexemes behind it. -/
def moment? (dialect : Dialect) : Lexemes → Option (Located Moment × Lexemes)
  | ⟨function, start⟩ :: ⟨.symbol ['('], _⟩ :: rest =>
    match dialect, momentFunction? dialect function, rest with
    | .sqlite, some dateOnly, ⟨.string base, _⟩ :: ⟨.symbol [')'], stop⟩ :: rest =>
      if base = "now" then some (⟨⟨dateOnly, none⟩, start.cover stop⟩, rest) else none
    | .sqlite, some dateOnly,
        ⟨.string base, _⟩ :: ⟨.symbol [','], _⟩ :: ⟨.string change, _⟩ ::
          ⟨.symbol [')'], stop⟩ :: rest =>
      if base = "now" then
        (modifier? change).map fun back => (⟨⟨dateOnly, some back⟩, start.cover stop⟩, rest)
      else none
    | .mySql, some dateOnly, ⟨.symbol [')'], stop⟩ :: rest =>
      some (⟨⟨dateOnly, none⟩, start.cover stop⟩, rest)
    | .mySql, none,
        ⟨base, _⟩ :: ⟨.symbol ['('], _⟩ :: ⟨.symbol [')'], _⟩ :: ⟨.symbol [','], _⟩ ::
          ⟨interval, _⟩ :: ⟨.word digits, _⟩ :: ⟨unit, _⟩ :: ⟨.symbol [')'], stop⟩ :: rest =>
      if isKeyword "DATE_SUB" function && isKeyword "INTERVAL" interval then do
        let dateOnly ← momentFunction? .mySql base
        let amount ← Text.toNat? digits
        let unit ← intervalUnit? unit
        return (⟨⟨dateOnly, some (amount, unit)⟩, start.cover stop⟩, rest)
      else none
    | _, _, _ => none
  | _ => none

/-- Reads the right side of a comparison; gives the lexemes behind it. -/
def comparand? (dialect : Dialect) : Lexemes → Option (Located Comparand × Lexemes)
  | [] => none
  | ⟨.string value, span⟩ :: rest => some (⟨.string value, span⟩, rest)
  | ⟨.bytes digits, span⟩ :: rest => some (⟨.bytes digits, span⟩, rest)
  | ⟨.symbol ['-'], start⟩ :: ⟨digits, stop⟩ :: rest =>
    (numeral? digits).map fun t => (⟨.number ('-' :: t), start.cover stop⟩, rest)
  | ⟨lexeme, span⟩ :: rest =>
    match numeral? lexeme with
    | some t => some (⟨.number t, span⟩, rest)
    | none =>
      match dialect, isKeyword "UNHEX" lexeme, rest with
      | .mySql, true,
          ⟨.symbol ['('], _⟩ :: ⟨.string digits, _⟩ :: ⟨.symbol [')'], stop⟩ :: rest =>
        some (⟨.bytes digits, span.cover stop⟩, rest)
      | _, _, _ =>
        (moment? dialect (⟨lexeme, span⟩ :: rest)).map fun (moment, rest) =>
          (⟨.moment moment.value, moment.span⟩, rest)

/-- Reads a comparison; gives the lexemes behind it. -/
def comparison? (dialect : Dialect) : Lexemes → Option (Comparison × Lexemes)
  | ⟨.word column, span⟩ :: ⟨operator, operatorSpan⟩ :: rest => do
    let comparator ← comparator? operator
    let (comparand, rest) ← comparand? dialect rest
    return (⟨⟨column, span⟩, ⟨comparator, operatorSpan⟩, comparand⟩, rest)
  | _ => none

end TableBrowser.Sql
