import TableBrowser.Database.Estimate
import TableBrowser.Database.Evaluate

/-!
# Terms of a search

An index can be searched for the terms of a clause that compare what it is ordered by
with a constant.  Besides the comparisons of the clause itself there are derived terms:
a pattern that begins with plain characters bounds its text from both sides, an OR of
equalities of one column asks for one of several values, and an OR of two comparisons
with the same constant has a comparison in common.
-/

namespace TableBrowser.Database

open TableBrowser.Sql

/-- What the rows of a table are kept in order of. -/
inductive Sought
  | number
  | column (place : Nat)
  deriving DecidableEq

inductive TermKind
  | equal
  | among (count : Nat)
  | above
  | below
  /-- A term that is of no use for a search. -/
  | other
  deriving DecidableEq

structure Term where
  kind : TermKind
  /-- What is compared with a constant. -/
  sought? : Option Sought
  constant? : Option Comparand
  /-- All that the term refers to. -/
  refersTo : List Sought
  /-- Whether the term depends on the row once columns that are equal to a constant have
  been replaced by it. -/
  isOpen : Bool
  isDerived : Bool
  /-- The place of the term from which this one is derived, if it makes that one
  superfluous. -/
  origin? : Option Nat
  /-- Whether letter case is ignored, as it never is in an index of a column. -/
  ignoresCase : Bool
  /-- Whether the term comes of a pattern: the bounds from above and below are then used
  together. -/
  isPaired : Bool
  deriving DecidableEq

namespace Term

def isUsable (term : Term) : Bool :=
  term.sought?.isSome && term.kind != .other

def hasSmallConstant (term : Term) : Bool :=
  match term.constant? with
  | some (.number t) =>
    match numeralCell t with
    | .integer n => n.natAbs ≤ 1
    | _ => false
  | _ => false

end Term

/-- Whether two constants are written alike, apart from zeros in front of whole numbers
of 32 bits. -/
def sameConstant (a b : Comparand) : Bool :=
  match a, b with
  | .number s, .number t =>
    s == t ||
      match numeralCell s, numeralCell t with
      | .integer m, .integer n => m == n && m.natAbs < UInt32.size / 2
      | _, _ => false
  | a, b => a == b

/-- The table a clause is about, and what its words refer to. -/
structure Subject where
  table : Table
  scope : Scope
  now : Int

namespace Subject

/-- What a reference seeks; the column that numbers the rows is the number of the row. -/
def soughtBy? (subject : Subject) : Reference → Option Sought
  | .column place _ =>
    let name? := (subject.table.columns[place]?).map (·.name)
    if name?.isSome && name? == subject.table.numbered? then some .number else some (.column place)
  | .number => some .number
  | .constant _ => none

def soughtOf? (subject : Subject) (word : Text) : Option Sought :=
  (subject.scope.reference? subject.now word).bind subject.soughtBy?

def affinityOf (subject : Subject) : Sought → Affinity
  | .number => .integer
  | .column place => ((subject.table.columns[place]?).map (Affinity.ofType ·.type)).getD .none

end Subject

def kindOf : Comparator → TermKind
  | .equal => .equal
  | .greater | .greaterEqual => .above
  | .less | .lessEqual => .below
  | .notEqual | .like => .other

def comparisonTerm (subject : Subject) (comparison : Comparison) : Term :=
  let sought? := subject.soughtOf? comparison.column.value
  { kind := if sought?.isSome then kindOf comparison.comparator.value else .other
    sought? := sought?
    constant? := some comparison.comparand.value
    refersTo := sought?.toList
    isOpen := sought?.isSome
    isDerived := false
    origin? := none
    ignoresCase := false
    isPaired := false }

def factorTerm (subject : Subject) : Factor Comparison → Term
  | .leaf comparison => comparisonTerm subject comparison
  | .any groups =>
    let refersTo := (formulaLeaves groups).filterMap fun comparison =>
      subject.soughtOf? comparison.column.value
    ⟨.other, none, none, refersTo, !refersTo.isEmpty, false, none, false, false⟩

/-- The terms that equate something with a constant, the last one first. -/
def equalTerms (terms : List Term) : List (Term × Nat) :=
  terms.zipIdx.reverse.filter fun (term, _) => term.kind == .equal

def lastEqual? (equal : List (Term × Nat)) (sought : Sought) : Option Nat :=
  (equal.find? fun (term, _) => term.sought? == some sought).map (·.2)

/-- Terms of an AND in which a column that is equal to a constant is no column elsewhere.
Patterns are only compared with the constant if the column converts it. -/
def closeFixed (subject : Subject) (terms : List Term) : List Term :=
  let equal := equalTerms terms
  terms.zipIdx.map fun (term, place) =>
    match term.sought? with
    | some sought =>
      let isKept := term.kind == .other && subject.affinityOf sought == .none
      let isFixed := (lastEqual? equal sought).any (· != place)
      { term with isOpen := term.isOpen && (isKept || !isFixed) }
    | none => term

def successor (t : Text) : Text :=
  match t.getLast? with
  | some c => t.dropLast ++ [Char.ofNat (c.toNat + 1)]
  | none => []

/-- Whether a text could be converted to a number by an affinity other than that of
text, or lies next to one that could. -/
def isNearNumber (t : Text) : Bool :=
  (numberOfText? t).isSome || t == ['-'] || (numberOfText? (successor t)).isSome

def upperChar (c : Char) : Char :=
  if 'a' ≤ c ∧ c ≤ 'z' then Char.ofNat (c.toNat - 32) else c

/-- The bounds of what begins like a pattern. -/
def patternTerms (subject : Subject) (place : Nat) (comparison : Comparison) : List Term :=
  match comparison.comparator.value, comparison.comparand.value,
      subject.soughtOf? comparison.column.value with
  | .like, .string pattern, some sought =>
    let isPlain (c : Char) : Bool := c != '%' && c != '_'
    let start := pattern.takeWhile isPlain
    if start.isEmpty || (subject.affinityOf sought != .text && isNearNumber start) then []
    else
      let isWhole := pattern.dropWhile isPlain == ['%'] && start.getLast? != some '@'
      let bound (kind : TermKind) (value : Text) : Term :=
        ⟨kind, some sought, some (.string value), [sought], true, true,
          if isWhole then some place else none, true, true⟩
      [bound .above (start.map upperChar), bound .below (successor (Text.lower start))]
  | _, _, _ => []

/-- The terms of an AND: those of its factors, and those derived from patterns. -/
def groupTerms (subject : Subject) (group : List (Factor Comparison)) : List Term :=
  let derived := group.zipIdx.reverse.flatMap fun (factor, place) =>
    match factor with
    | .leaf comparison => patternTerms subject place comparison
    | .any _ => []
  group.map (factorTerm subject) ++ derived

/-- The kind that two comparisons with the same constant have in common. -/
def commonKind? : TermKind → TermKind → Option TermKind
  | .equal, .equal => some .equal
  | .equal, .above | .above, .equal | .above, .above => some .above
  | .equal, .below | .below, .equal | .below, .below => some .below
  | _, _ => none

def commonTerm? (a b : Term) : Option Term := do
  let kind ← commonKind? a.kind b.kind
  let sought ← a.sought?
  let s ← a.constant?
  let t ← b.constant?
  if b.sought? == some sought && a.ignoresCase == b.ignoresCase && sameConstant s t then
    some ⟨kind, some sought, some s, [sought], true, true, none, a.ignoresCase, false⟩
  else none

/-- What an OR of equalities asks for, if all of them are about the same. -/
def amongTerm? (branches : List (List Term)) : Option Term :=
  match branches with
  | [first] :: rest =>
    let isAlike (branch : List Term) : Bool :=
      match branch with
      | [term] => term.kind == .equal && term.sought? == first.sought?
      | _ => false
    if first.kind == .equal && first.sought?.isSome && rest.all isAlike then
      some ⟨.among branches.length, first.sought?, none, first.refersTo, true, true, some 0,
        false, false⟩
    else none
  | _ => none

/-- The terms of an OR of several groups: the OR itself, and what is derived from it. -/
def orTerms (branches : List (List Term)) : List Term :=
  let all := branches.flatten
  let whole : Term :=
    ⟨.other, none, none, all.flatMap (·.refersTo), all.any (·.isOpen), false, none, false,
      false⟩
  let common :=
    match branches with
    | [a, b] => a.flatMap fun s => b.filterMap (commonTerm? s)
    | _ => []
  whole :: (if branches.all (·.any (·.isUsable)) then common else []) ++
    (amongTerm? branches).toList

end TableBrowser.Database
