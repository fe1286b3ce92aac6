import TableBrowser.Text.Basic

/-!
# Positions

A span is a range of bytes of a source text.  Values read from a source carry
the span they were read from, so that messages can point at it.
-/

namespace TableBrowser

/-- The bytes from `start` up to and without `stop`. -/
structure Span where
  start : Nat
  stop : Nat
  deriving DecidableEq

namespace Span

/-- The smallest span that holds both. -/
def cover (left right : Span) : Span :=
  ⟨min left.start right.start, max left.stop right.stop⟩

end Span

/-- A value and the place it was read from. -/
structure Located (α : Type) where
  value : α
  span : Span
  deriving DecidableEq

namespace Text

/-- The characters of a span, if the span is a range of the source that cuts no
character. -/
def slice? (source : Text) (span : Span) : Option Text :=
  if span.start ≤ span.stop then
    (dropBytes? source span.start).bind (takeBytes? · (span.stop - span.start))
  else none

/-- One more than the number of characters that begin before a byte offset. -/
def columnAt : Text → Nat → Nat
  | [], _ => 1
  | c :: rest, offset =>
    if offset = 0 then 1 else 1 + columnAt rest (offset - c.utf8Size)

end Text

end TableBrowser
