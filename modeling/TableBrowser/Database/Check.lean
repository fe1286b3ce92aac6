import TableBrowser.Database.Word
import TableBrowser.Sql.Statement

/-!
# Checking statements

A statement is read from left to right up to its first fault: a word where it cannot
stand, a number that is none, a mark that is never closed, or an expression that grows
too high.
-/

namespace TableBrowser.Database

open TableBrowser.Sql

def unexpectedAt (statement : Text) (span : Span) : Refusal :=
  ⟨.unexpected ((statement.slice? span).getD []), some span.start⟩

def lexemesRefusal (statement : Text) : Lexemes → Refusal
  | [] => ⟨.incomplete, none⟩
  | ⟨.unclosed _, span⟩ :: _ =>
    ⟨.unrecognized ((statement.slice? span).getD []), some span.start⟩
  | ⟨_, span⟩ :: _ => unexpectedAt statement span

/-- The refusal of a word at the start of a comparison, by the refusals of what comes
behind it. -/
def wordRefusal? (statement : Text) (isFirst : Bool) (word : Located Text)
    (comparator : Comparator) (behind : Nat → Refusal) : Option Refusal :=
  match WordKind.of isFirst word.value with
  | .number => numberRefusal? word
  | .reserved => some (unexpectedAt statement word.span)
  | .opening taken => some (behind (if comparator = .like then taken else 0))
  | .operand => none

def partsUnexpected (statement : Text) : List Part → Refusal
  | .and span :: _ | .or span :: _ => unexpectedAt statement span
  | _ => ⟨.incomplete, none⟩

def comparisonRefusal? (statement : Text) (isFirst : Bool) (comparison : Comparison)
    (rest : List Part) : Option Refusal :=
  wordRefusal? statement isFirst comparison.column comparison.comparator.value fun
    | 0 => unexpectedAt statement comparison.comparator.span
    | 1 => unexpectedAt statement comparison.comparand.span
    | _ => partsUnexpected statement rest

/-- The refusal of lexemes where a comparison has to begin and none can be read. -/
def factorRefusal (statement : Text) (isFirst : Bool) : Lexemes → Refusal
  | ⟨.word word, span⟩ :: ⟨lexeme, lexemeSpan⟩ :: rest =>
    let behind (taken : Nat) : Refusal :=
      lexemesRefusal statement ((⟨lexeme, lexemeSpan⟩ :: rest).drop (min taken rest.length))
    match comparator? lexeme with
    | none => behind 0
    | some comparator =>
      (wordRefusal? statement isFirst ⟨word, span⟩ comparator behind).getD (behind 1)
  | lexemes => lexemesRefusal statement lexemes

/-- The height of a comparison over its constant: a sign and a call stand above what they
are applied to, and a pattern is handed to a function as it is. -/
def comparisonHeight (comparison : Comparison) : Nat :=
  match comparison.comparand.value with
  | .number ('-' :: _) | .moment _ => 3
  | _ => 2

/-- The height of an AND or OR of two expressions, of which the left one may be missing
and then has no height. -/
def joinedHeight (left right : Nat) : Nat :=
  if left = 0 then right else max left right + 1

/-- The heights of what has been read since the last open parenthesis: the groups before
the last OR, the factors of the group at hand before the last AND, and the last
factor. -/
structure Heights where
  groups : Nat
  factors : Nat
  last : Nat

namespace Heights

def none : Heights := ⟨0, 0, 0⟩

def group (heights : Heights) : Nat :=
  joinedHeight heights.factors heights.last

def whole (heights : Heights) : Nat :=
  joinedHeight heights.groups heights.group

end Heights

def heightRefusal? (height : Nat) : Option Refusal :=
  if maxHeight < height then some ⟨.tooDeep, .none⟩ else .none

def isOpening : Part → Bool
  | .opening => true
  | _ => false

/-- The first refusal of parts.  The stack holds what stands before each open
parenthesis; `isFirst` says whether one has just been opened and `isWhole` whether the
parts end where a clause can end. -/
def partsRefusal? (statement : Text) (isWhole : Bool) :
    (isFirst : Bool) → List Heights → Heights → List Part → Option Refusal
  | _, _, heights, [] => if isWhole then heightRefusal? heights.whole else .none
  | isFirst, stack, heights, .comparison comparison :: rest =>
    (comparisonRefusal? statement isFirst comparison rest).or
      (partsRefusal? statement isWhole false stack
        { heights with last := comparisonHeight comparison } rest)
  | _, stack, heights, .and _ :: rest =>
    (heightRefusal? heights.group).or
      (partsRefusal? statement isWhole false stack ⟨heights.groups, heights.group, 0⟩ rest)
  | _, stack, heights, .or _ :: rest =>
    (heightRefusal? heights.whole).or
      (partsRefusal? statement isWhole false stack ⟨heights.whole, 0, 0⟩ rest)
  | _, stack, heights, .opening :: rest =>
    partsRefusal? statement isWhole true (heights :: stack) .none rest
  | _, outer :: stack, heights, .closing :: rest =>
    (heightRefusal? heights.whole).or
      (partsRefusal? statement isWhole false stack { outer with last := heights.whole } rest)
  | _, [], heights, .closing :: rest =>
    partsRefusal? statement isWhole false [] heights rest

def clauseRefusalAt? (statement : Text) (isWhole : Bool) (parts : List Part) :
    Option Refusal :=
  partsRefusal? statement isWhole false [] .none parts

/-- A statement is read up to the first character that is zero. -/
def readableText (t : Text) : Text :=
  t.takeWhile (·.toNat ≠ 0)

def readStatement (text : Text) : Except Refusal Statement :=
  match Statement.read .sqlite (readableText text) with
  | .ok statement =>
    match clauseRefusalAt? text true (statement.parts?.getD []) with
    | .none => .ok statement
    | some refusal => .error refusal
  | .error fault =>
    let atFault :=
      if fault.expectsFactor then
        factorRefusal text (fault.before.getLast?.any isOpening) fault.behind
      else lexemesRefusal text fault.behind
    .error ((clauseRefusalAt? text (!fault.expectsFactor) fault.before).getD atFault)

end TableBrowser.Database
