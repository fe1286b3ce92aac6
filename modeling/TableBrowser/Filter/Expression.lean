import TableBrowser.Filter.Condition
import TableBrowser.Filter.Token

/-!
# Reading a filter

Conditions are joined by `&` into groups and groups by `|` into a predicate.
Blank conditions are passed over, and so are groups without conditions.  The
reader descends from the predicate to the groups and from these to the conditions,
and looks one token ahead.
-/

namespace TableBrowser.Filter

namespace Group

/-- A group from its conditions; without conditions there is none. -/
def ofConditions? : List Condition → Option Group
  | [] => none
  | first :: rest =>
    some ⟨first :: rest, first.span.cover ((first :: rest).getLastD first).span⟩

end Group

/-- Takes the next token if it is text and reads a condition from it, unless it is blank.
Spans of tokens are relative to a byte offset. -/
def readCondition (columns : List Column) (base : Nat) (lexer : Lexer) :
    Except Failure (Option Condition × Lexer) :=
  match lexer.peek with
  | (some ⟨.text content, span⟩, shown) =>
    let (_, after) := shown.next
    let placed : Placed := ⟨content, base + span.start⟩
    if placed.strip.text = [] then .ok (none, after)
    else (Condition.readAt columns placed).map fun condition => (some condition, after)
  | (_, shown) => .ok (none, shown)

/-- Reads conditions behind those of a group, as long as there is an `&` behind them.  Each
of these takes one unit of fuel. -/
def readGroup (columns : List Column) (base : Nat) :
    Nat → Lexer → List Condition → Except Failure (List Condition × Lexer)
  | 0, lexer, conditions => .ok (conditions, lexer)
  | fuel + 1, lexer, conditions => do
    let (condition?, behind) ← readCondition columns base lexer
    let conditions := conditions ++ condition?.toList
    match behind.peek with
    | (some ⟨.and, _⟩, shown) => readGroup columns base fuel shown.next.2 conditions
    | (_, shown) => return (conditions, shown)

/-- Reads groups behind others, as long as there is a `|` behind them.  Each of these takes
one unit of fuel. -/
def readGroups (columns : List Column) (base : Nat) :
    Nat → Lexer → List Group → Except Failure (List Group)
  | 0, _, groups => .ok groups
  | fuel + 1, lexer, groups => do
    let (conditions, behind) ← readGroup columns base (fuel + 1) lexer []
    let groups := groups ++ (Group.ofConditions? conditions).toList
    match behind.next with
    | (some ⟨.or, _⟩, after) => readGroups columns base fuel after groups
    | _ => return groups

namespace Predicate

/-- Reads the groups of a text as it stands, without trimming it first.  No text has more
tokens than characters. -/
def readAt (columns : List Column) (placed : Placed) : Except Failure Predicate :=
  let fuel := placed.text.length + 1
  match readGroups columns placed.offset fuel (.ofText placed.text) [] with
  | .error failure => .error failure
  | .ok [] => .error (.of .noConditions placed.span)
  | .ok (first :: rest) =>
    .ok ⟨first :: rest, first.span.cover ((first :: rest).getLastD first).span⟩

/-- Reads a whole filter. -/
def read (columns : List Column) (source : Text) : Except Failure Predicate :=
  let body := (Placed.mk source 0).strip
  if body.text = [] then .error (.of .emptyInput ⟨0, source.byteSize⟩)
  else readAt columns body

end Predicate

end TableBrowser.Filter
