import TableBrowser.Number.Binary64
import TableBrowser.Text.Basic

/-!
# JSON values

Cells of a page, the bodies of requests and the bodies of answers are JSON
values.  Whole numbers and floating-point numbers are kept apart, and an object
keeps its members in the order in which they were written.
-/

namespace TableBrowser

inductive Json
  | null
  | bool (value : Bool)
  | integer (value : Int)
  | real (value : Binary64)
  | string (value : Text)
  | array (items : List Json)
  | object (members : List (Text × Json))

namespace Json

def ofNat (n : Nat) : Json :=
  .integer n

def ofOption {α : Type} (encode : α → Json) : Option α → Json
  | none => .null
  | some value => encode value

def strings (texts : List Text) : Json :=
  .array (texts.map .string)

/-- The value of an object's first member of a name. -/
def member? (name : Text) : Json → Option Json
  | .object members => (members.find? fun entry => entry.1 == name).map (·.2)
  | _ => none

end Json

end TableBrowser
