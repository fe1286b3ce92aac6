import TableBrowser.Filter.Failure
import TableBrowser.Filter.Predicate
import TableBrowser.Text.Basic

/-!
# Reading a condition

A condition is a column, an operator and a value, with white space allowed
around each of them and one question mark allowed before the column.  The column
is the longest run of word characters and the operator the longest that fits.
-/

namespace TableBrowser.Filter

/-- Text and the byte offset it begins at. -/
structure Placed where
  text : Text
  offset : Nat
  deriving DecidableEq

namespace Placed

def span (placed : Placed) : Span :=
  ⟨placed.offset, placed.offset + placed.text.byteSize⟩

def trimStart (placed : Placed) : Placed :=
  ⟨placed.text.trimStart, placed.offset + placed.text.leadingBlanks⟩

def trim (placed : Placed) : Placed :=
  let started := placed.trimStart
  ⟨started.text.trimEnd, started.offset⟩

/-- Trims white space, one question mark at the start, and the white space
behind that mark. -/
def strip (placed : Placed) : Placed :=
  match placed.trimStart with
  | ⟨'?' :: rest, offset⟩ => (Placed.mk rest (offset + 1)).trim
  | started => ⟨started.text.trimEnd, started.offset⟩

end Placed

/-- The three parts of a condition, before its value is classified. -/
structure ConditionParts where
  column : Located Text
  op : Located Operator
  value : Located Text
  span : Span
  deriving DecidableEq

namespace ConditionParts

/-- Splits text that begins at a byte offset into the parts of a condition. -/
def read (placed : Placed) : Except Failure ConditionParts :=
  let body := placed.strip
  if body.text = [] then .error (.of .emptyInput ⟨body.offset, body.offset⟩)
  else
    let invalid : Failure := .of (.invalidCondition body.text) body.span
    let column : Text := body.text.takeWhile Text.isWordChar
    if column = [] then .error invalid
    else
      let columnSpan : Span := ⟨body.offset, body.offset + column.byteSize⟩
      let behindColumn :=
        (Placed.mk (body.text.dropWhile Text.isWordChar) columnSpan.stop).trimStart
      match Operator.leading? behindColumn.text with
      | none => .error invalid
      | some (op, rest) =>
        let opSpan : Span :=
          ⟨behindColumn.offset, behindColumn.offset + op.symbol.byteSize⟩
        let value := (Placed.mk rest opSpan.stop).trim
        if value.text = [] then .error invalid
        else .ok ⟨⟨column, columnSpan⟩, ⟨op, opSpan⟩, ⟨value.text, value.span⟩, body.span⟩

/-- What the value stands for.  Date tokens come first and go with comparisons
only; behind a pattern test every other value is text. -/
def operand (columns : List Column) (parts : ConditionParts) : Except Failure Operand :=
  match RelativeDate.ofToken? parts.value.value with
  | some date =>
    if parts.op.value.isPattern then
      .error (.of (.patternOnDate parts.op.value.symbol) parts.op.span)
    else .ok (.date date)
  | none =>
    if parts.op.value.isPattern then .ok (.text parts.value.value)
    else .ok (.classify (Column.typeOf? columns parts.column.value) parts.value.value)

end ConditionParts

namespace Condition

/-- Reads one condition from text that begins at a byte offset. -/
def readAt (columns : List Column) (placed : Placed) : Except Failure Condition := do
  let parts ← ConditionParts.read placed
  let operand ← parts.operand columns
  return ⟨parts.column, parts.op, ⟨operand, parts.value.span⟩, parts.span⟩

/-- Reads a source that is one condition. -/
def read (columns : List Column) (source : Text) : Except Failure Condition :=
  readAt columns ⟨source, 0⟩

end Condition

end TableBrowser.Filter
