import TableBrowser.Text.Basic

/-!
# Media types

The type of a body is written as a type and a subtype with parameters behind it.
A body is taken for JSON if its type is `application` and its subtype or the suffix
of its subtype is `json`.
-/

namespace TableBrowser.Web.MediaType

/-- The characters of which names and plain values are made. -/
def isTokenChar (c : Char) : Bool :=
  Text.isLetter c || Text.isDigit c ||
    ['!', '#', '$', '%', '&', '\'', '*', '+', '-', '.', '^', '_', Char.ofNat 96, '|',
      '~'].contains c

def isToken (t : Text) : Bool :=
  t.all isTokenChar

/-- The characters that may stand inside a quoted value. -/
def isQuotedChar (c : Char) : Bool :=
  c.toNat > 31 && c.toNat != 127

/-- Reads the rest of a quoted value behind its opening mark.  The value ends at the
first mark behind its first character, which may itself be a mark; only spaces may
follow up to a semicolon. -/
def afterQuoted? : Text → Option Text
  | [] => none
  | first :: rest =>
    match Text.splitOnce? '"' rest with
    | none => none
    | some (inner, behind) =>
      if (first :: inner).all isQuotedChar then
        match behind.dropWhile (· == ' ') with
        | [] => some []
        | ';' :: more => some more
        | _ => none
      else none

/-- Reads a plain value, which only at the end of the text may be empty. -/
def afterPlain? (t : Text) : Option Text :=
  match t.dropWhile isTokenChar with
  | [] => some []
  | ';' :: more => if t.head? = some ';' then none else some more
  | _ => none

/-- Reads a parameter: a name, an equals sign and a plain or quoted value.  Gives the
text behind its semicolon. -/
def afterParameter? (t : Text) : Option Text :=
  match t.dropWhile isTokenChar with
  | '=' :: value =>
    if t.head? = some '=' then none
    else
      match value with
      | '"' :: quoted => afterQuoted? quoted
      | plain => afterPlain? plain
  | _ => none

/-- Whether a text is a row of parameters with spaces between them; each takes one
unit of fuel. -/
def areParameters : Nat → Text → Bool
  | 0, _ => false
  | fuel + 1, t =>
    match t.dropWhile (· == ' ') with
    | [] => true
    | c :: rest => (afterParameter? (c :: rest)).any (areParameters fuel)

/-- The subtype and its suffix, divided at the last plus sign. -/
def splitSuffix (subtype : Text) : Text × Option Text :=
  match Text.splitOnce? '+' subtype.reverse with
  | some (suffix, rest) =>
    if rest.isEmpty then (subtype, none) else (rest.reverse, some suffix.reverse)
  | none => (subtype, none)

/-- Whether a media type stands for JSON. -/
def isJson (t : Text) : Bool :=
  match Text.splitOnce? '/' (Text.lower t) with
  | none => false
  | some (type, rest) =>
    let (subtype, wellFormed) :=
      match Text.splitOnce? ';' rest with
      | none => (rest, true)
      | some (subtype, parameters) =>
        (subtype, areParameters (parameters.length + 1) parameters)
    let (base, suffix?) := splitSuffix subtype
    wellFormed && isToken subtype && type == "application" &&
      (base == "json" || suffix? == some "json")

end TableBrowser.Web.MediaType
