import TableBrowser.Json.Reader
import TableBrowser.Paging.Request

/-!
# Bodies of requests

A body is an object with known members, or an array of their values in order.  It
is read from the left and the first fault decides whether it is no JSON or JSON of
the wrong shape.  Unknown members are passed over, a member given twice is refused,
and nothing behind the value is looked at.
-/

namespace TableBrowser.Web.Body

open TableBrowser.Json (Fault skipSpace stringFrom numberFrom wordFrom skipValue)
open TableBrowser.Paging

inductive FieldType
  | text
  | optionalText
  | direction
  deriving DecidableEq

inductive FieldValue
  | text (value : Text)
  | noText
  | direction (direction : Direction)
  deriving DecidableEq

structure Field where
  name : Text
  type : FieldType

/-- The fault of a value of an unexpected type that begins here. -/
def mistyped (t : Text) : Fault :=
  let fault {α : Type} : Except Fault α → Fault
    | .ok _ => .misshapen
    | .error fault => fault
  match t with
  | [] => .malformed
  | '"' :: rest => fault (stringFrom true none [] rest)
  | c :: rest =>
    if c = '[' ∨ c = '\x7b' then .misshapen
    else if c = 'n' then fault (wordFrom "null" .null (c :: rest))
    else if c = 't' then fault (wordFrom "true" (.bool true) (c :: rest))
    else if c = 'f' then fault (wordFrom "false" (.bool false) (c :: rest))
    else if c = '-' || Text.isDigit c then fault (numberFrom true (c :: rest))
    else .malformed

def readText (t : Text) : Except Fault (Text × Text) :=
  match skipSpace t with
  | '"' :: rest => stringFrom true none [] rest
  | other => .error (mistyped other)

def readNull (t : Text) : Except Fault Text :=
  match skipSpace t with
  | 'n' :: rest => (wordFrom "null" .null ('n' :: rest)).map (·.2)
  | other => .error (mistyped other)

/-- Reads a colon. -/
def readColon (t : Text) : Except Fault Text :=
  match skipSpace t with
  | ':' :: rest => .ok rest
  | _ => .error .malformed

/-- Reads a keyword of a direction.  A value of any other type counts as no JSON. -/
def readDirectionWord (t : Text) : Except Fault (Direction × Text) :=
  match skipSpace t with
  | '"' :: rest => do
    let (word, rest) ← stringFrom true none [] rest
    match Direction.ofWord? word with
    | some direction => return (direction, rest)
    | none => throw .misshapen
  | _ => .error .malformed

/-- Reads a direction: a keyword, or an object with a keyword as its only name and
null as its value. -/
def readDirection (t : Text) : Except Fault (Direction × Text) :=
  match skipSpace t with
  | '\x7b' :: rest => do
    let (direction, rest) ← readDirectionWord rest
    let rest ← readNull (← readColon rest)
    match skipSpace rest with
    | '\x7d' :: rest => return (direction, rest)
    | _ => throw .malformed
  | other => readDirectionWord other

def readValue (type : FieldType) (t : Text) : Except Fault (FieldValue × Text) :=
  match type with
  | .text => (readText t).map fun (value, rest) => (.text value, rest)
  | .optionalText =>
    match skipSpace t with
    | 'n' :: rest => (readNull ('n' :: rest)).map fun rest => (.noText, rest)
    | other => (readText other).map fun (value, rest) => (.text value, rest)
  | .direction =>
    (readDirection t).map fun (direction, rest) => (.direction direction, rest)

/-- The value of a field that is not given, unless it has to be. -/
def absent : FieldType → Except Fault FieldValue
  | .text => .error .misshapen
  | .optionalText => .ok .noText
  | .direction => .ok (.direction .ascending)

/-- The values of all fields, from those that were given. -/
def complete (fields : List Field) (given : List (Text × FieldValue)) :
    Except Fault (List FieldValue) :=
  fields.mapM fun field =>
    match given.find? fun entry => entry.1 == field.name with
    | some (_, value) => .ok value
    | none => absent field.type

/-- Reads the members behind an opening brace, or behind a member; each takes one
unit of fuel. -/
def membersFrom (fields : List Field) :
    Nat → (first : Bool) → List (Text × FieldValue) → Text → Except Fault (List FieldValue)
  | 0, _, _, _ => .error .malformed
  | fuel + 1, first, given, t =>
    match skipSpace t with
    | '\x7d' :: _ => complete fields given
    | c :: rest =>
      if !first && c != ',' then .error .malformed
      else
        match if first then c :: rest else skipSpace rest with
        | '"' :: rest => do
          let (name, rest) ← stringFrom true none [] rest
          match fields.find? (·.name == name) with
          | some field =>
            if given.any fun entry => entry.1 == name then throw .misshapen
            let (value, rest) ← readValue field.type (← readColon rest)
            membersFrom fields fuel false (given ++ [(name, value)]) rest
          | none =>
            let rest ← skipValue (← readColon rest)
            membersFrom fields fuel false given rest
        | _ => .error .malformed
    | [] => .error .malformed

/-- Reads the values behind an opening bracket, one for each field. -/
def itemsFrom : (first : Bool) → List Field → Text → Except Fault (List FieldValue)
  | first, [], t =>
    match skipSpace t with
    | ']' :: _ => .ok []
    | _ => if first then .error .misshapen else .error .malformed
  | first, field :: fields, t =>
    match skipSpace t with
    | [] => .error .malformed
    | ']' :: rest => do
      let value ← absent field.type
      let values ← itemsFrom first fields (']' :: rest)
      return value :: values
    | c :: rest =>
      if !first && c != ',' then .error .malformed
      else
        let here := if first then c :: rest else rest
        match skipSpace here with
        | ']' :: _ => .error .malformed
        | item => do
          let (value, rest) ← readValue field.type item
          let values ← itemsFrom false fields rest
          return value :: values

/-- Reads the values of the fields from a body. -/
def read (fields : List Field) (t : Text) : Except Fault (List FieldValue) :=
  match skipSpace t with
  | '\x7b' :: rest => membersFrom fields (t.length + 1) true [] rest
  | '[' :: rest => itemsFrom true fields rest
  | other => .error (mistyped other)

def selectFields : List Field := [⟨"table", .text⟩]

def sortFields : List Field := [⟨"column", .text⟩, ⟨"direction", .direction⟩]

def filterFields : List Field := [⟨"expression", .text⟩, ⟨"table", .optionalText⟩]

end TableBrowser.Web.Body
