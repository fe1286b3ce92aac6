import TableBrowser.Sql.Clause
import TableBrowser.Text.Basic
import TableBrowser.Text.Span

/-!
# Lexemes of SQL

SQL text is cut by its lexical rules.  A word is a maximal run of ASCII letters,
digits and underscores; a row of digits followed by a point and more digits is a
decimal; strings and names end at the first mark that is not doubled.  What stands
inside a string or a name is never cut any further, and a mark that is never closed
takes all the text behind it.
-/

namespace TableBrowser.Sql

inductive Lexeme
  | word (t : Text)
  | decimal (whole fraction : Text)
  | string (value : Text)
  | bytes (digits : Text)
  | name (value : Text)
  | symbol (t : Text)
  /-- The text from an opening mark on, if there is no closing one. -/
  | unclosed (t : Text)
  deriving DecidableEq

/-- Number of bytes that a lexeme takes in its text. -/
def Lexeme.byteSize : Lexeme → Nat
  | .word t | .symbol t | .unclosed t => t.byteSize
  | .decimal whole fraction => whole.byteSize + 1 + fraction.byteSize
  | .string value => (quoted '\'' value).byteSize
  | .bytes digits => 1 + (quoted '\'' digits).byteSize
  | .name value => (quoted '"' value).byteSize

/-- The blank characters of SQL. -/
def isSqlSpace (c : Char) : Bool :=
  c == ' ' || c == '\t' || c == '\n' || c == '\r' || c.toNat == 12

/-- Reads a text that begins with an opening mark. -/
def quotedAt (opening : Text) (mark : Char) (build : Text → Lexeme) (behind : Text) :
    Lexeme × Text :=
  match unquoteFrom mark behind with
  | some (value, after) => (build value, after)
  | none => (.unclosed (opening ++ behind), [])

/-- A word at the start of a text, with what may belong to it: the fraction of a
number or the digits of a constant of raw bytes. -/
def wordAt (t : Text) : Lexeme × Text :=
  let word := t.takeWhile Text.isWordChar
  let rest := t.dropWhile Text.isWordChar
  match rest with
  | '.' :: behind =>
    let fraction := behind.takeWhile Text.isWordChar
    if word.all Text.isDigit && !fraction.isEmpty && fraction.all Text.isDigit then
      (.decimal word fraction, behind.dropWhile Text.isWordChar)
    else (.word word, rest)
  | '\'' :: behind =>
    if word = ['X'] ∨ word = ['x'] then quotedAt (word ++ ['\'']) '\'' .bytes behind
    else (.word word, rest)
  | _ => (.word word, rest)

/-- The lexeme at the start of a text that begins with a given character, which is
not a blank. -/
def lexemeAt (c : Char) (rest : Text) : Lexeme × Text :=
  if Text.isWordChar c then wordAt (c :: rest)
  else if c = '\'' then quotedAt [c] c .string rest
  else if c = '"' then quotedAt [c] c .name rest
  else
    match c, rest with
    | '<', '=' :: after => (.symbol "<=", after)
    | '>', '=' :: after => (.symbol ">=", after)
    | '!', '=' :: after => (.symbol "!=", after)
    | _, _ => (.symbol [c], rest)

/-- All lexemes of a text that begins at a byte offset; each takes one unit of
fuel. -/
def lexemesFrom : Nat → Nat → Text → List (Located Lexeme)
  | 0, _, _ => []
  | fuel + 1, offset, t =>
    let start := offset + Text.byteSize (t.takeWhile isSqlSpace)
    match t.dropWhile isSqlSpace with
    | [] => []
    | c :: rest =>
      let (lexeme, after) := lexemeAt c rest
      let stop := start + lexeme.byteSize
      ⟨lexeme, ⟨start, stop⟩⟩ :: lexemesFrom fuel stop after

/-- The lexemes of a text. -/
def lexemes (t : Text) : List (Located Lexeme) :=
  lexemesFrom (t.length + 1) 0 t

end TableBrowser.Sql
