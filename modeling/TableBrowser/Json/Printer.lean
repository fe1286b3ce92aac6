import TableBrowser.Json.Basic
import TableBrowser.Number.Digits
import TableBrowser.Text.Digits

/-!
# Writing JSON

Values are written on one line without spaces.  Quotation marks, backslashes and
control characters are escaped and every other character is written as it is.
Numbers that are not finite have no JSON form and are written as null.
-/

namespace TableBrowser.Json

def escapeChar (c : Char) : Text :=
  if c = '"' then "\\\""
  else if c = '\\' then "\\\\"
  else if c = '\n' then "\\n"
  else if c = '\r' then "\\r"
  else if c = '\t' then "\\t"
  else if c.toNat = 8 then "\\b"
  else if c.toNat = 12 then "\\f"
  else if c.toNat < 32 then
    "\\u00" ++ [Text.hexDigit (c.toNat / 16), Text.hexDigit (c.toNat % 16)]
  else [c]

def quoted (t : Text) : Text :=
  '"' :: t.flatMap escapeChar ++ ['"']

def numberText : Binary64 → Text
  | .finite negative significand exponent =>
    Binary64.shortestText negative significand exponent
  | _ => "null"

mutual

def render : Json → Text
  | .null => "null"
  | .bool value => if value then "true" else "false"
  | .integer value => Text.ofInt value
  | .real value => numberText value
  | .string value => quoted value
  | .array items => '[' :: renderItems items ++ [']']
  | .object members => '\x7b' :: renderMembers members ++ ['\x7d']

def renderItems : List Json → Text
  | [] => []
  | [item] => render item
  | item :: next :: rest => render item ++ ',' :: renderItems (next :: rest)

def renderMembers : List (Text × Json) → Text
  | [] => []
  | [(name, value)] => quoted name ++ ':' :: render value
  | (name, value) :: next :: rest =>
    quoted name ++ ':' :: render value ++ ',' :: renderMembers (next :: rest)

end

end TableBrowser.Json
