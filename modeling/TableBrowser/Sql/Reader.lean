import TableBrowser.Sql.Comparison

/-!
# Reading clauses

A clause is first cut into parts: comparisons, connectives and parentheses.  The
parts are then put together: AND binds tighter than OR and parentheses group.  The
result is an OR of ANDs in which an AND in parentheses inside an AND has been
spliced in.
-/

namespace TableBrowser.Sql

inductive Part
  | opening
  | closing
  | and (span : Span)
  | or (span : Span)
  | comparison (comparison : Comparison)

/-- The parts at the start of some lexemes, and what follows them. -/
structure PartReading where
  parts : List Part
  behind : Lexemes
  /-- Whether a comparison or a parenthesis has to follow. -/
  expectsFactor : Bool
  /-- The number of parentheses that are still open. -/
  depth : Nat

namespace PartReading

def before (part : Part) (reading : PartReading) : PartReading :=
  { reading with parts := part :: reading.parts }

/-- Whether a clause can end here. -/
def isWhole (reading : PartReading) : Bool :=
  !reading.expectsFactor && reading.depth == 0

end PartReading

/-- Cuts parts off as far as they go, inside a number of open parentheses.  Each part
takes one unit of fuel. -/
def partsFrom (dialect : Dialect) :
    Nat → (expectsFactor : Bool) → (depth : Nat) → Lexemes → PartReading
  | 0, expectsFactor, depth, lexemes => ⟨[], lexemes, expectsFactor, depth⟩
  | fuel + 1, true, depth, lexemes =>
    match lexemes with
    | ⟨.symbol ['('], _⟩ :: rest => (partsFrom dialect fuel true (depth + 1) rest).before .opening
    | _ =>
      match comparison? dialect lexemes with
      | some (comparison, rest) =>
        (partsFrom dialect fuel false depth rest).before (.comparison comparison)
      | none => ⟨[], lexemes, true, depth⟩
  | fuel + 1, false, depth, lexemes =>
    match lexemes, depth with
    | [], _ => ⟨[], [], false, depth⟩
    | ⟨.symbol [')'], _⟩ :: rest, depth + 1 =>
      (partsFrom dialect fuel false depth rest).before .closing
    | ⟨lexeme, span⟩ :: rest, _ =>
      if isKeyword "AND" lexeme then
        (partsFrom dialect fuel true depth rest).before (.and span)
      else if isKeyword "OR" lexeme then
        (partsFrom dialect fuel true depth rest).before (.or span)
      else ⟨[], ⟨lexeme, span⟩ :: rest, false, depth⟩

/-- The parts at the start of some lexemes. -/
def partsAt (dialect : Dialect) (lexemes : Lexemes) : PartReading :=
  partsFrom dialect (lexemes.length + 1) true 0 lexemes

inductive Factor (α : Type)
  | leaf (a : α)
  | any (groups : List (List (Factor α)))

/-- An OR of groups, each an AND of factors. -/
abbrev Formula (α : Type) := List (List (Factor α))

abbrev Clause := Formula Comparison

/-! What stands at the leaves of a formula, in the order in which it is written. -/

mutual

def Factor.leaves {α : Type} : Factor α → List α
  | .leaf a => [a]
  | .any groups => formulaLeaves groups

def groupLeaves {α : Type} : List (Factor α) → List α
  | [] => []
  | factor :: rest => factor.leaves ++ groupLeaves rest

def formulaLeaves {α : Type} : List (List (Factor α)) → List α
  | [] => []
  | group :: rest => groupLeaves group ++ formulaLeaves rest

end

/-! A formula with every leaf replaced. -/

mutual

def Factor.map {α β : Type} (f : α → β) : Factor α → Factor β
  | .leaf a => .leaf (f a)
  | .any groups => .any (formulaMap f groups)

def groupMap {α β : Type} (f : α → β) : List (Factor α) → List (Factor β)
  | [] => []
  | factor :: rest => factor.map f :: groupMap f rest

def formulaMap {α β : Type} (f : α → β) : List (List (Factor α)) → List (List (Factor β))
  | [] => []
  | group :: rest => groupMap f group :: formulaMap f rest

end

/-- What has been read since the last open parenthesis: the groups before the last
OR and the factors of the group at hand. -/
structure Level where
  groups : Clause
  factors : List (Factor Comparison)

namespace Level

def empty : Level := ⟨[], []⟩

def add (level : Level) (factors : List (Factor Comparison)) : Level :=
  { level with factors := level.factors ++ factors }

def closeGroup (level : Level) : Level :=
  ⟨level.groups ++ [level.factors], []⟩

def clause (level : Level) : Clause :=
  level.closeGroup.groups

/-- What a closed parenthesis contributes to the group around it: the factors of
its only group, or one factor for an OR. -/
def inParentheses (level : Level) : List (Factor Comparison) :=
  match level.clause with
  | [factors] => factors
  | groups => [.any groups]

end Level

/-- Puts parts together.  The stack holds what stands before each open parenthesis. -/
def Clause.assemble : List Level → Level → List Part → Clause
  | _, level, [] => level.clause
  | stack, level, .comparison comparison :: rest =>
    assemble stack (level.add [.leaf comparison]) rest
  | stack, level, .and _ :: rest => assemble stack level rest
  | stack, level, .or _ :: rest => assemble stack level.closeGroup rest
  | stack, level, .opening :: rest => assemble (level :: stack) .empty rest
  | outer :: stack, level, .closing :: rest =>
    assemble stack (outer.add level.inParentheses) rest
  | [], level, .closing :: rest => assemble [] level rest

def Clause.ofParts (parts : List Part) : Clause :=
  assemble [] .empty parts

/-- Reads a text that is a clause and nothing else. -/
def Clause.ofText? (dialect : Dialect) (t : Text) : Option Clause :=
  let reading := partsAt dialect (lexemes t)
  if reading.isWhole && reading.behind.isEmpty then some (.ofParts reading.parts) else none

end TableBrowser.Sql
