import TableBrowser.Text.Digits
import TableBrowser.Text.Span

/-!
# Failures of filters

A failure names its cause and the bytes of the source it points at.  `report`
shows the source with a caret under the first character of that range and a mark
under each of the others.
-/

namespace TableBrowser.Filter

inductive Cause
  | emptyInput
  | invalidCondition (condition : Text)
  | patternOnDate (symbol : Text)
  | noConditions
  deriving DecidableEq

namespace Cause

/-- The stable code of a cause. -/
def code : Cause → Text
  | .emptyInput => "EMPTY_INPUT"
  | .invalidCondition _ => "INVALID_SYNTAX"
  | .patternOnDate _ => "UNSUPPORTED_OPERATOR_FOR_DATE_HELPER"
  | .noConditions => "NO_VALID_CONDITIONS"

def message : Cause → Text
  | .emptyInput => "filter is empty"
  | .invalidCondition condition => "invalid filter condition '" ++ condition ++ "'"
  | .patternOnDate symbol =>
    "operator '" ++ symbol ++ "' cannot be used with a date helper"
  | .noConditions => "filter contains no valid conditions"

/-- Advice that goes with a cause. -/
def advice? : Cause → Option Text
  | .invalidCondition _ => some "use: column=value or column>value"
  | .patternOnDate _ => some "date helpers support =, !=, >, <, >= and <="
  | _ => none

end Cause

structure Failure where
  cause : Cause
  span : Span
  hint? : Option Text
  deriving DecidableEq

namespace Failure

def of (cause : Cause) (span : Span) : Failure :=
  ⟨cause, span, cause.advice?⟩

def message (failure : Failure) : Text :=
  failure.cause.message

/-- The number of characters marked under the source: those of the span, once
its end is cut to the end of the source; none if it is no range of the source. -/
def width (failure : Failure) (source : Text) : Nat :=
  let stop := min failure.span.stop source.byteSize
  ((source.slice? ⟨failure.span.start, stop⟩).getD []).length

/-- The caret line that stands under the source. -/
def marker (failure : Failure) (source : Text) : Text :=
  List.replicate (source.columnAt failure.span.start - 1) ' ' ++
    '^' :: List.replicate (failure.width source - 1) '~'

/-- The message, the source and the marks under it, for people. -/
def report (failure : Failure) (source : Text) : Text :=
  "error[" ++ failure.cause.code ++ "]: " ++ failure.message ++ "\n" ++
    "  --> column " ++ Text.ofNat (source.columnAt failure.span.start) ++ "\n" ++
    "   |\n   | " ++ source ++ "\n   | " ++ failure.marker source ++ "\n" ++
    (match failure.hint? with
      | some hint => "   = hint: " ++ hint ++ "\n"
      | none => "")

end Failure

end TableBrowser.Filter
