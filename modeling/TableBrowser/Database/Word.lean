import TableBrowser.Database.Affinity
import TableBrowser.Database.Fault
import TableBrowser.Text.Digits
import TableBrowser.Text.Span

/-!
# Words of clauses

Where a comparison begins most words are names, but some are reserved, some begin an
expression of another kind and some stand for a constant.  A word that begins with a
digit is a number: a decimal, which may have an exponent, or hexadecimal digits behind
`0x`.  Underscores may separate the digits of a number.
-/

namespace TableBrowser.Database

/-- Words that stand for a constant: nothing, and the moment of evaluation. -/
inductive ConstantWord
  | nothing
  | currentDate
  | currentTime
  | currentTimestamp
  deriving DecidableEq

namespace ConstantWord

def name : ConstantWord → Text
  | .nothing => "null"
  | .currentDate => "current_date"
  | .currentTime => "current_time"
  | .currentTimestamp => "current_timestamp"

def ofWord? (word : Text) : Option ConstantWord :=
  [nothing, currentDate, currentTime, currentTimestamp].find? (Text.sameLetters ·.name word)

end ConstantWord

/-- What a word is where a comparison begins. -/
inductive WordKind
  | number
  | reserved
  /-- The word begins something that does not go on with a comparator, apart from LIKE,
  which can be a name.  If it is, the word takes in a number of lexemes from there on. -/
  | opening (taken : Nat)
  | operand
  deriving DecidableEq

/-- Words that begin no expression and are no names. -/
def reservedWords : List String :=
  ["add", "all", "alter", "and", "as", "autoincrement", "between", "check", "collate",
    "commit", "constraint", "create", "default", "deferrable", "delete", "distinct", "drop",
    "else", "escape", "except", "foreign", "from", "group", "having", "in", "index", "insert",
    "intersect", "into", "is", "isnull", "join", "limit", "nothing", "notnull", "on", "or",
    "order", "primary", "references", "returning", "select", "set", "table", "then", "to",
    "transaction", "union", "unique", "update", "using", "values", "when", "where"]

/-- Words that begin an expression of another kind, with the lexemes from a LIKE on that
they take in. -/
def openingWords : List (String × Nat) :=
  [("case", 1), ("not", 1), ("cast", 0), ("exists", 0), ("raise", 0)]

/-- Words that begin a statement in parentheses, with the lexemes from a LIKE on that they
take in. -/
def statementWords : List (String × Nat) :=
  [("select", 2), ("with", 1), ("values", 0)]

/-- The kind of a word, without regard to ASCII letter case.  `isFirst` says whether it
stands next to an open parenthesis. -/
def WordKind.of (isFirst : Bool) (word : Text) : WordKind :=
  let opening := if isFirst then statementWords ++ openingWords else openingWords
  if word.head?.any Text.isDigit then .number
  else
    match opening.find? fun entry => Text.sameLetters word entry.1 with
    | some (_, taken) => .opening taken
    | none => if reservedWords.any (Text.sameLetters word ·) then .reserved else .operand

/-- The names of the number of a row, unless a column has one of them. -/
def isNumberName (word : Text) : Bool :=
  let names : List Text := ["rowid", "oid", "_rowid_"]
  names.any (Text.sameLetters word)

/-- The value of a word that stands for a truth value, unless a column has its name. -/
def truthWord? (word : Text) : Option Bool :=
  if Text.sameLetters word "true" then some true
  else if Text.sameLetters word "false" then some false
  else none

/-! ## Numbers -/

def isSeparator (c : Char) : Bool :=
  c == '_'

def isHexDigit (c : Char) : Bool :=
  (Text.hexValue? c).isSome

def hexPart? : Text → Option Text
  | '0' :: x :: digit :: rest =>
    if (x = 'x' ∨ x = 'X') ∧ isHexDigit digit then some (digit :: rest) else none
  | _ => none

def isDigitOrSeparator (isDigit : Char → Bool) (c : Char) : Bool :=
  isDigit c || isSeparator c

def isNumber (word : Text) : Bool :=
  match hexPart? word with
  | some digits => digits.all (isDigitOrSeparator isHexDigit)
  | none =>
    match word.dropWhile (isDigitOrSeparator Text.isDigit) with
    | [] => true
    | e :: digit :: rest =>
      (e == 'e' || e == 'E') && Text.isDigit digit &&
        rest.all (isDigitOrSeparator Text.isDigit)
    | [_] => false

/-- What is shown for the last separator without a digit on either side: the characters
before it that are no separators, and what is left of the number beyond as many. -/
def misplacedFrom (isDigit : Char → Bool) (number : Text) :
    (kept : Text) → (before? : Option Char) → Text → Option Text
  | _, _, [] => none
  | kept, before?, c :: rest =>
    if !isSeparator c then misplacedFrom isDigit number (kept ++ [c]) (some c) rest
    else
      let separates := before?.any isDigit && rest.head?.any isDigit
      (misplacedFrom isDigit number kept (some c) rest).or
        (if separates then none else some (kept ++ number.drop kept.length))

def misplacedSeparator? (number : Text) : Option Text :=
  let isDigit := if (hexPart? number).isSome then isHexDigit else Text.isDigit
  misplacedFrom isDigit number [] none number

def hexValue (digits : Text) : Nat :=
  digits.foldl (fun n c => 16 * n + (Text.hexValue? c).getD 0) 0

/-- A word of 64 bits as a whole number in two's complement. -/
def signedWord (n : Nat) : Int :=
  if n < integerBound then n else (n : Int) - UInt64.size

/-- The cell of a number, unless it has more hexadecimal digits than there is room for. -/
def numberCell? (number : Text) : Option Cell :=
  let number := number.filter (!isSeparator ·)
  match hexPart? number with
  | some digits =>
    if (digits.dropWhile (· == '0')).length ≤ 16 then
      some (.integer (signedWord (hexValue digits)))
    else none
  | none =>
    let whole := number.takeWhile Text.isDigit
    let exponent? : Option Int :=
      match number.dropWhile Text.isDigit with
      | [] => none
      | _ :: digits => some (exponentValue digits)
    some (Numeral.mk false whole none exponent?).toCell

def numberRefusal? (word : Located Text) : Option Refusal :=
  if !isNumber word.value then some ⟨.unrecognized word.value, some word.span.start⟩
  else (misplacedSeparator? word.value).map fun shown => ⟨.unrecognized shown, none⟩

end TableBrowser.Database
