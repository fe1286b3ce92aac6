import TableBrowser.Filter.RelativeDate
import TableBrowser.Filter.Uuid

/-!
# Columns and operands

The value of a condition is a number, a text, the bytes of a UUID or a relative
date.  Numbers are kept as typed, so that writing them loses nothing.

A column has a name and the type it was declared with.  A filter consults the
type of a column only to decide whether a UUID stands for raw bytes.
-/

namespace TableBrowser

structure Column where
  name : Text
  type : Text
  deriving DecidableEq

namespace Column

/-- The type of the column of exactly this name, or else of the first whose name
differs only in the case of ASCII letters. -/
def typeOf? (columns : List Column) (name : Text) : Option Text :=
  ((columns.find? (·.name == name)).or
    (columns.find? (Text.sameLetters ·.name name))).map (·.type)

/-- Whether a declared type stores raw bytes. -/
def holdsBinary (type : Text) : Bool :=
  Text.containsPart "binary" (Text.lower type)

end Column

end TableBrowser

namespace TableBrowser.Filter

inductive Operand
  | number (digits : Text)
  | text (value : Text)
  | binary (uuid : Uuid)
  | date (date : RelativeDate)
  deriving DecidableEq

namespace Operand

/-- A non-empty row of ASCII digits. -/
def isDigits (t : Text) : Bool :=
  !t.isEmpty && t.all Text.isDigit

/-- Digits with an optional sign before them and an optional fraction. -/
def isNumeric (raw : Text) : Bool :=
  let unsigned :=
    match raw with
    | '-' :: rest => rest
    | _ => raw
  match Text.splitOnce? '.' unsigned with
  | some (whole, fraction) => isDigits whole && isDigits fraction
  | none => isDigits unsigned

/-- The operand a raw value of a plain comparison stands for.  A UUID becomes
bytes only when the type of its column stores bytes. -/
def classify (type? : Option Text) (raw : Text) : Operand :=
  if isNumeric raw then .number raw
  else if type?.any Column.holdsBinary then
    match Uuid.ofText? raw with
    | some uuid => .binary uuid
    | none => .text raw
  else .text raw

end Operand

end TableBrowser.Filter
