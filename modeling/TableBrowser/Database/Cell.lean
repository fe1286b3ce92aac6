import TableBrowser.Database.Numeral
import TableBrowser.Database.Pattern
import TableBrowser.Json.Basic
import TableBrowser.Text.Digits
import TableBrowser.Text.Utf8

/-!
# Cells

A cell holds nothing, a whole number of 64 bits, a floating-point number, text or
bytes.  Cells of different kinds are ordered by kind: nothing first, then numbers,
then text, then bytes.
-/

namespace TableBrowser.Database

inductive Cell
  | null
  | integer (value : Int)
  | real (value : Binary64)
  | text (value : Text)
  | blob (bytes : List UInt8)
  deriving DecidableEq

/-- Whole numbers of cells lie below this bound and not below its negative. -/
def integerBound : Nat := UInt64.size / 2

namespace Cell

def ofStoredText (bytes : List UInt8) : Cell :=
  .text (Text.ofUtf8Lossy bytes)

/-- The cell as it is shown on a page: bytes by their digits, and numbers that are
not finite as nothing. -/
def toJson : Cell → Json
  | .null => .null
  | .integer value => .integer value
  | .real (.finite negative significand exponent) =>
    .real (.finite negative significand exponent)
  | .real _ => .null
  | .text value => .string value
  | .blob bytes => .string (Text.hexOfBytes bytes)

def kindRank : Cell → Nat
  | .null => 0
  | .integer _ | .real _ => 1
  | .text _ => 2
  | .blob _ => 3

/-- Order of texts by code points, which is the order of their UTF-8 bytes. -/
def orderTexts (left right : Text) : Ordering :=
  compareOfLessAndEq (left.map (·.toNat)) (right.map (·.toNat))

def orderBytes (left right : List UInt8) : Ordering :=
  compareOfLessAndEq (left.map (·.toNat)) (right.map (·.toNat))

/-- The order of cells; numbers are compared by value across their two kinds. -/
def order : Cell → Cell → Ordering
  | .integer a, .integer b => compare a b
  | .integer a, .real b => Binary64.orderInt a b
  | .real a, .integer b => (Binary64.orderInt b a).swap
  | .real a, .real b => Binary64.order a b
  | .text a, .text b => orderTexts a b
  | .blob a, .blob b => orderBytes a b
  | a, b => compare a.kindRank b.kindRank

/-- The characters of a cell where a pattern is compared: numbers are written out, and
nothing has no characters. -/
def codes? : Cell → Option (List Nat)
  | .null => none
  | .integer value => some (codesOfText (Text.ofInt value))
  | .real value => some (codesOfText (numberText value))
  | .text value => some (codesOfText value)
  | .blob bytes => some (codesOfBytes bytes)

end Cell

abbrev Row := List Cell

end TableBrowser.Database
