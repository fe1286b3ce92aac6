import TableBrowser.Paging.Request
import TableBrowser.Sql.Reader

/-!
# The statements of a page

A page takes two statements over the same table and clause: one counts the rows
and one selects those of the page.  Names of tables and columns are quoted, the
clause is put in as it is, and limit and offset are left as parameters.
-/

namespace TableBrowser.Sql

open TableBrowser.Paging

/-- The clause part of a statement. -/
def whereText : Option Text → Text
  | none => []
  | some clause => " WHERE " ++ clause

/-- The order part of a statement. -/
def orderText (orderBy? : Option Text) (direction? : Option Direction) : Text :=
  match orderBy? with
  | none => []
  | some column =>
    " ORDER BY " ++ quotedName column ++ " " ++ (direction?.getD .ascending).keyword

/-- The statement that counts the rows of a clause. -/
def countText (table : Text) (clause? : Option Text) : Text :=
  "SELECT COUNT(*) FROM " ++ quotedName table ++ whereText clause?

/-- The statement that selects the rows of a page. -/
def pageText (table : Text) (clause? orderBy? : Option Text)
    (direction? : Option Direction) : Text :=
  "SELECT * FROM " ++ quotedName table ++ whereText clause? ++
    orderText orderBy? direction? ++ " LIMIT ?1 OFFSET ?2"

/-- A statement over one table, as it is read back. -/
structure Statement where
  /-- Counts the rows in place of listing them. -/
  counts : Bool
  table : Text
  /-- The parts of its clause. -/
  parts? : Option (List Part)
  order? : Option SortOrder
  /-- Takes a limit and an offset as its parameters. -/
  paged : Bool

/-- Where the reading of a statement stops: the parts of the clause that were read, the
lexemes behind them, and whether a comparison has to begin there. -/
structure StatementFault where
  before : List Part
  behind : Lexemes
  expectsFactor : Bool

namespace StatementFault

/-- A fault in front of any clause. -/
def ofLexemes (behind : Lexemes) : StatementFault :=
  ⟨[], behind, false⟩

end StatementFault

namespace Statement

def clause? (statement : Statement) : Option Clause :=
  statement.parts?.map Clause.ofParts

/-- Reads what is selected; gives whether it is the number of rows. -/
def selection? : Lexemes → Option (Bool × Lexemes)
  | ⟨count, _⟩ :: ⟨.symbol ['('], _⟩ :: ⟨.symbol ['*'], _⟩ :: ⟨.symbol [')'], _⟩ :: rest =>
    if isKeyword "COUNT" count then some (true, rest) else none
  | ⟨.symbol ['*'], _⟩ :: rest => some (false, rest)
  | _ => none

def directionOf? (lexeme : Lexeme) : Option Direction :=
  if isKeyword "ASC" lexeme then some .ascending
  else if isKeyword "DESC" lexeme then some .descending
  else none

/-- Reads an order, if one begins here. -/
def orderAt : Lexemes → Except Lexemes (Option SortOrder × Lexemes)
  | ⟨order, orderSpan⟩ :: ⟨byWord, bySpan⟩ :: rest =>
    if isKeyword "ORDER" order && isKeyword "BY" byWord then
      match rest with
      | ⟨.name column, _⟩ :: ⟨direction, span⟩ :: rest =>
        match directionOf? direction with
        | some direction => .ok (some ⟨column, direction⟩, rest)
        | none => .error (⟨direction, span⟩ :: rest)
      | _ => .error rest
    else .ok (none, ⟨order, orderSpan⟩ :: ⟨byWord, bySpan⟩ :: rest)
  | lexemes => .ok (none, lexemes)

/-- Reads the limit and the offset, if they begin here. -/
def pagingAt : Lexemes → Except Lexemes Bool
  | [] => .ok false
  | ⟨limit, limitSpan⟩ :: ⟨.symbol ['?'], _⟩ :: ⟨.word ['1'], _⟩ :: ⟨offset, _⟩ ::
      ⟨.symbol ['?'], _⟩ :: ⟨.word ['2'], _⟩ :: [] =>
    if isKeyword "LIMIT" limit && isKeyword "OFFSET" offset then .ok true
    else .error [⟨limit, limitSpan⟩]
  | lexemes => .error lexemes

/-- Reads a clause, if one begins here. -/
def clauseAt (dialect : Dialect) :
    Lexemes → Except StatementFault (Option (List Part) × Lexemes)
  | ⟨lexeme, span⟩ :: rest =>
    if isKeyword "WHERE" lexeme then
      let reading := partsAt dialect rest
      if reading.isWhole then .ok (some reading.parts, reading.behind)
      else .error ⟨reading.parts, reading.behind, reading.expectsFactor⟩
    else .ok (none, ⟨lexeme, span⟩ :: rest)
  | [] => .ok (none, [])

/-- Reads the part behind the name of the table. -/
def tail (dialect : Dialect) (counts : Bool) (table : Text) (lexemes : Lexemes) :
    Except StatementFault Statement := do
  let (parts?, rest) ← clauseAt dialect lexemes
  let ending : Except Lexemes (Option SortOrder × Bool) := do
    let (order?, rest) ← orderAt rest
    return (order?, ← pagingAt rest)
  match ending with
  | .ok (order?, paged) => return ⟨counts, table, parts?, order?, paged⟩
  | .error behind => throw ⟨parts?.getD [], behind, false⟩

/-- Reads the lexemes of a statement. -/
def ofLexemes (dialect : Dialect) : Lexemes → Except StatementFault Statement
  | ⟨select, selectSpan⟩ :: rest =>
    if isKeyword "SELECT" select then
      match selection? rest with
      | some (counts, ⟨source, sourceSpan⟩ :: rest) =>
        if isKeyword "FROM" source then
          match rest with
          | ⟨.name table, _⟩ :: rest => tail dialect counts table rest
          | _ => .error (.ofLexemes rest)
        else .error (.ofLexemes (⟨source, sourceSpan⟩ :: rest))
      | some (_, []) => .error (.ofLexemes [])
      | none => .error (.ofLexemes rest)
    else .error (.ofLexemes (⟨select, selectSpan⟩ :: rest))
  | [] => .error (.ofLexemes [])

/-- Reads a statement. -/
def read (dialect : Dialect) (t : Text) : Except StatementFault Statement :=
  ofLexemes dialect (lexemes t)

end Statement

end TableBrowser.Sql
