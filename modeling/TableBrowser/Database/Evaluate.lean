import TableBrowser.Database.Calendar
import TableBrowser.Database.Relation

/-!
# Evaluating clauses

A clause is true, false or unknown of a row.  A comparison with nothing is
unknown, AND and OR follow the three-valued tables, and a row is selected only if
the clause is true of it.
-/

namespace TableBrowser.Database

open TableBrowser.Sql

/-- A truth value; `none` is unknown. -/
abbrev Truth := Option Bool

namespace Truth

/-- False if either side is false, otherwise unknown if either side is. -/
def and : Truth → Truth → Truth
  | some false, _ => some false
  | _, some false => some false
  | some true, some true => some true
  | _, _ => none

/-- True if either side is true, otherwise unknown if either side is. -/
def or : Truth → Truth → Truth
  | some true, _ => some true
  | _, some true => some true
  | some false, some false => some false
  | _, _ => none

end Truth

/-- A cell and the affinity it takes into a comparison. -/
structure Operand where
  cell : Cell
  affinity : Affinity

/-- A row of a table and its number. -/
structure Entry where
  number : Nat
  cells : Row

/-- What the words of a clause can refer to: columns, and the number of a row unless a
view hides it. -/
structure Scope where
  columns : List Column
  hasNumbers : Bool

inductive Reference
  | column (place : Nat) (affinity : Affinity)
  | number
  | constant (cell : Cell)
  deriving DecidableEq

def constantCell (now : Int) : ConstantWord → Cell
  | .nothing => .null
  | .currentDate => .text (dateText now)
  | .currentTime => .text (timeText now)
  | .currentTimestamp => .text (dateText now ++ " " ++ timeText now)

namespace Scope

def ofSource (source : Source) : Scope :=
  ⟨source.columns, !source.isViewed⟩

/-- The column of a name, without regard to letter case. -/
def column? (scope : Scope) (name : Text) : Option Reference := do
  let place ← scope.columns.findIdx? (Text.sameLetters ·.name name)
  let column ← scope.columns[place]?
  return .column place (.ofType column.type)

/-- The column of a name, or else the number of the row. -/
def named? (scope : Scope) (name : Text) : Option Reference :=
  (scope.column? name).or
    (if scope.hasNumbers && isNumberName name then some .number else none)

/-- What a word on the left side of a comparison refers to. -/
def reference? (scope : Scope) (now : Int) (word : Text) : Option Reference :=
  if word.head?.any Text.isDigit then some (.constant ((numberCell? word).getD .null))
  else
    match ConstantWord.ofWord? word with
    | some constant => some (.constant (constantCell now constant))
    | none =>
      (scope.named? word).or
        ((truthWord? word).map fun value => .constant (.integer (if value then 1 else 0)))

end Scope

def Reference.operand (entry : Entry) : Reference → Operand
  | .column place affinity => ⟨(entry.cells[place]?).getD .null, affinity⟩
  | .number => ⟨.integer entry.number, .integer⟩
  | .constant cell => ⟨cell, .none⟩

def numeralCell (t : Text) : Cell :=
  let (negative, digits) := signOf t
  match Text.splitOnce? '.' digits with
  | some (whole, fraction) => (Numeral.mk negative whole (some fraction) none).toCell
  | none => (Numeral.mk negative digits none none).toCell

def comparandCell (now : Int) : Comparand → Cell
  | .number t => numeralCell t
  | .string value => .text value
  | .bytes digits => .blob ((Text.bytesOfHex? digits).getD [])
  | .moment moment =>
    match momentText? now moment with
    | some t => .text t
    | none => .null

def satisfies (comparator : Comparator) (order : Ordering) : Bool :=
  match comparator with
  | .equal => order.isEq
  | .notEqual => !order.isEq
  | .greater => order.isGT
  | .greaterEqual => order.isGE
  | .less => order.isLT
  | .lessEqual => order.isLE
  | .like => false

def compareCells (comparator : Comparator) (affinity : Affinity) (left right : Cell) : Truth :=
  match comparator with
  | .like =>
    match left.codes?, right.codes? with
    | some t, some pattern => some (matchesPattern pattern t)
    | _, _ => none
  | comparator =>
    let (a, b) := Affinity.reconcile affinity .none left right
    if a = .null ∨ b = .null then none else some (satisfies comparator (a.order b))

/-- A comparison whose two sides have been looked up. -/
structure Test where
  /-- What the left side refers to, if it refers to anything. -/
  reference? : Option Reference
  comparator : Comparator
  right : Cell

def Test.ofComparison (now : Int) (scope : Scope) (comparison : Comparison) : Test :=
  ⟨scope.reference? now comparison.column.value, comparison.comparator.value,
    comparandCell now comparison.comparand.value⟩

/-- The truth of a test; a left side that refers to nothing is unknown. -/
def Test.truth (entry : Entry) (test : Test) : Truth :=
  match test.reference? with
  | some reference =>
    let left := reference.operand entry
    compareCells test.comparator left.affinity left.cell test.right
  | none => none

/-! The truth of a formula by the truth of its leaves. -/

mutual

def factorTruth {α : Type} (truth : α → Truth) : Factor α → Truth
  | .leaf a => truth a
  | .any groups => formulaTruth truth groups

def groupTruth {α : Type} (truth : α → Truth) : List (Factor α) → Truth
  | [] => some true
  | factor :: rest =>
    match factorTruth truth factor with
    | some false => some false
    | first => Truth.and first (groupTruth truth rest)

def formulaTruth {α : Type} (truth : α → Truth) : List (List (Factor α)) → Truth
  | [] => some false
  | group :: rest =>
    match groupTruth truth group with
    | some true => some true
    | first => Truth.or first (formulaTruth truth rest)

end

/-! ## Patterns that are too long -/

/-- The bytes that a pattern may have. -/
def maxPatternSize : Nat := 50000

def Test.isTooLong (test : Test) : Bool :=
  match test.comparator, test.right with
  | .like, .text pattern => maxPatternSize < pattern.byteSize
  | .like, .blob bytes => maxPatternSize < bytes.length
  | _, _ => false

/-! Whether the evaluation of a formula comes to a leaf that fails.  An AND is left at the
first factor that is not true, and an OR at the first group that is. -/

mutual

def factorFails {α : Type} (truth : α → Truth) (fails : α → Bool) : Factor α → Bool
  | .leaf a => fails a
  | .any groups => formulaFails truth fails groups

def groupFails {α : Type} (truth : α → Truth) (fails : α → Bool) : List (Factor α) → Bool
  | [] => false
  | factor :: rest =>
    factorFails truth fails factor ||
      (factorTruth truth factor == some true && groupFails truth fails rest)

def formulaFails {α : Type} (truth : α → Truth) (fails : α → Bool) :
    List (List (Factor α)) → Bool
  | [] => false
  | group :: rest =>
    groupFails truth fails group ||
      (groupTruth truth group != some true && formulaFails truth fails rest)

end

/-! ## Refusals -/

/-- The refusal of a clause for what its words mean: the first that refers to nothing,
or else the last that is a number too long to be held. -/
def clauseRefusal? (now : Int) (scope : Scope) (clause : Clause) : Option Refusal :=
  let words := (formulaLeaves clause).map (·.column)
  let unknown? := words.find? fun word => (scope.reference? now word.value).isNone
  let isTooLong (word : Located Text) : Bool :=
    word.value.head?.any Text.isDigit && (numberCell? word.value).isNone
  match unknown?, words.reverse.find? isTooLong with
  | some word, _ => some ⟨.noSuchColumn word.value, some word.span.start⟩
  | none, some word =>
    some ⟨.tooManyHexDigits (word.value.filter (!isSeparator ·)), some word.span.start⟩
  | none, none => none

end TableBrowser.Database
