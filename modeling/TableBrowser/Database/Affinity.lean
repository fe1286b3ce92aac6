import TableBrowser.Database.Cell
import TableBrowser.Text.Basic
import TableBrowser.Text.Digits

/-!
# Affinity

The declared type of a column gives it an affinity.  A cell is converted by the
affinity of its column when it is stored, and the sides of a comparison are
converted before they are compared.
-/

namespace TableBrowser.Database

inductive Affinity
  | none
  | text
  | numeric
  | integer
  | real
  deriving DecidableEq

namespace Affinity

/-- The affinity of a declared type.  The first rule that fits decides. -/
def ofType (type : Text) : Affinity :=
  let lowered := Text.lower type
  let mentions (part : String) : Bool := Text.containsPart part.toList lowered
  if mentions "int" then .integer
  else if mentions "char" || mentions "clob" || mentions "text" then .text
  else if mentions "blob" || type.isEmpty then .none
  else if mentions "real" || mentions "floa" || mentions "doub" then .real
  else .numeric

def isNumeric : Affinity → Bool
  | .numeric | .integer | .real => true
  | _ => false

end Affinity

/-- The white space that may stand around a number in text. -/
def isNumberSpace (c : Char) : Bool :=
  c == ' ' || (9 ≤ c.toNat && c.toNat ≤ 13)

def fitsInteger (n : Int) : Bool :=
  -(integerBound : Int) ≤ n && n < integerBound

/-- The cell of a numeral: a whole number if it is written as one and fits. -/
def Numeral.toCell (n : Numeral) : Cell :=
  match n.toInt?.filter fitsInteger with
  | some value => .integer value
  | none => .real n.toDouble

def signOf : Text → Bool × Text
  | '-' :: rest => (true, rest)
  | '+' :: rest => (false, rest)
  | t => (false, t)

def exponent? (t : Text) : Option Int :=
  let (negative, digits) := signOf t
  if digits.isEmpty || !digits.all Text.isDigit then none
  else some (Binary64.signed negative (exponentValue digits))

/-- Reads a text that is a number and nothing else but white space around it. -/
def numberOfText? (t : Text) : Option Cell :=
  let inner := t.dropWhile isNumberSpace
  let inner := (inner.reverse.dropWhile isNumberSpace).reverse
  let (negative, rest) := signOf inner
  let whole := rest.takeWhile Text.isDigit
  let rest := rest.dropWhile Text.isDigit
  let (fraction?, rest) : Option Text × Text :=
    match rest with
    | '.' :: behind => (some (behind.takeWhile Text.isDigit), behind.dropWhile Text.isDigit)
    | _ => (none, rest)
  if (whole ++ fraction?.getD []).isEmpty then none
  else
    match rest with
    | [] => some (Numeral.mk negative whole fraction? none).toCell
    | e :: behind =>
      if e = 'e' ∨ e = 'E' then
        (exponent? behind).map fun n => (Numeral.mk negative whole fraction? (some n)).toCell
      else none

/-- A floating-point number without a fraction as a whole number, if it fits. -/
def wholeIfExact (value : Binary64) : Cell :=
  match value.toInt? with
  | some n => if -(integerBound : Int) < n && n + 1 < integerBound then .integer n else .real value
  | none => .real value

namespace Affinity

def numberIfText : Cell → Cell
  | .text value => (numberOfText? value).getD (.text value)
  | cell => cell

def textIfNumber : Cell → Cell
  | .integer value => .text (Text.ofInt value)
  | .real value => .text (numberText value)
  | cell => cell

/-- Numbers without a fraction become whole numbers, so zero has no sign. -/
def wholeIfReal : Cell → Cell
  | .real value => wholeIfExact value
  | cell => cell

def realIfWhole : Cell → Cell
  | .integer value => .real (.ofInt value)
  | cell => cell

/-- The form in which a column keeps a cell. -/
def store (affinity : Affinity) (cell : Cell) : Cell :=
  let cell :=
    match cell with
    | .real .nan => .null
    | cell => cell
  match affinity with
  | .none => cell
  | .text => textIfNumber cell
  | .numeric | .integer => wholeIfReal (numberIfText cell)
  | .real => realIfWhole (wholeIfReal (numberIfText cell))

/-- The two sides of a comparison after conversion.  A numeric side turns text
into numbers; otherwise a text side turns numbers into text, if text takes part. -/
def reconcile (left right : Affinity) (a b : Cell) : Cell × Cell :=
  if left.isNumeric || right.isNumeric then (numberIfText a, numberIfText b)
  else if left = .text || right = .text then
    match a, b with
    | .text _, _ | _, .text _ => (textIfNumber a, textIfNumber b)
    | _, _ => (a, b)
  else (a, b)

end Affinity

end TableBrowser.Database
