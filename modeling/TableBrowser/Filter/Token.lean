import TableBrowser.Text.Span

/-!
# Tokens of a filter

A filter is cut into the two combinators and the runs of other characters
between them.  `tokens` gives the whole list at once.  A `Lexer` gives the same
tokens one at a time and can show the next one before it is taken.
-/

namespace TableBrowser.Filter

inductive Token
  | and
  | or
  | text (content : Text)
  deriving DecidableEq

namespace Token

/-- The characters a token was read from. -/
def toText : Token → Text
  | .and => "&"
  | .or => "|"
  | .text content => content

end Token

def isCombinator (c : Char) : Bool :=
  c == '&' || c == '|'

/-- The tokens of a text that begins at a byte offset.  A character that is no
combinator joins the run behind it. -/
def tokensFrom (offset : Nat) : Text → List (Located Token)
  | [] => []
  | c :: rest =>
    let next := offset + c.utf8Size
    if c = '&' then ⟨.and, ⟨offset, next⟩⟩ :: tokensFrom next rest
    else if c = '|' then ⟨.or, ⟨offset, next⟩⟩ :: tokensFrom next rest
    else
      match tokensFrom next rest with
      | ⟨.text content, span⟩ :: more => ⟨.text (c :: content), ⟨offset, span.stop⟩⟩ :: more
      | more => ⟨.text [c], ⟨offset, next⟩⟩ :: more

def tokens (source : Text) : List (Located Token) :=
  tokensFrom 0 source

/-- A reader of tokens with room for one token that was looked at and not yet
taken. -/
structure Lexer where
  offset : Nat
  rest : Text
  ahead? : Option (Option (Located Token))

namespace Lexer

def ofText (source : Text) : Lexer :=
  ⟨0, source, none⟩

/-- Cuts the next token off the unread text. -/
def scan (lexer : Lexer) : Option (Located Token) × Lexer :=
  match lexer.rest with
  | [] => (none, lexer)
  | c :: rest =>
    if isCombinator c then
      let token := if c = '&' then Token.and else Token.or
      let next := lexer.offset + c.utf8Size
      (some ⟨token, ⟨lexer.offset, next⟩⟩, { lexer with offset := next, rest := rest })
    else
      let content : Text := (c :: rest).takeWhile (!isCombinator ·)
      let next := lexer.offset + content.byteSize
      (some ⟨.text content, ⟨lexer.offset, next⟩⟩,
        { lexer with offset := next, rest := (c :: rest).dropWhile (!isCombinator ·) })

/-- Shows the next token and keeps it for the next reading. -/
def peek (lexer : Lexer) : Option (Located Token) × Lexer :=
  match lexer.ahead? with
  | some shown => (shown, lexer)
  | none =>
    let (token?, after) := lexer.scan
    (token?, { after with ahead? := some token? })

/-- Takes the next token: the one shown before, if there is one. -/
def next (lexer : Lexer) : Option (Located Token) × Lexer :=
  match lexer.ahead? with
  | some shown => (shown, { lexer with ahead? := none })
  | none => lexer.scan

end Lexer

end TableBrowser.Filter
