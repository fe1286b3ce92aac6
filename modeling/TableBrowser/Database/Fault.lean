import TableBrowser.Text.Digits

/-!
# Refusals of statements

A statement is refused for a reason.  Some reasons have a place in the statement, and
then the message shows the statement and the place.
-/

namespace TableBrowser.Database

inductive Reason
  | unexpected (near : Text)
  | unrecognized (token : Text)
  | incomplete
  | tooDeep
  | noSuchTable (name : Text)
  | circularView (name : Text)
  | noSuchColumn (name : Text)
  | tooManyHexDigits (token : Text)
  | patternTooLong
  deriving DecidableEq

def maxHeight : Nat := 1000

def Reason.message : Reason → Text
  | .unexpected near => "near \"" ++ near ++ "\": syntax error"
  | .unrecognized token => "unrecognized token: \"" ++ token ++ "\""
  | .incomplete => "incomplete input"
  | .tooDeep => "Expression tree is too large (maximum depth " ++ Text.ofNat maxHeight ++ ")"
  | .noSuchTable name => "no such table: " ++ name
  | .circularView name => "view " ++ name ++ " is circularly defined"
  | .noSuchColumn name => "no such column: " ++ name
  | .tooManyHexDigits token => "hex literal too big: " ++ token
  | .patternTooLong => "LIKE or GLOB pattern too complex"

/-- The refusal of a statement, with the offset at fault if the reason has a place. -/
structure Refusal where
  reason : Reason
  offset? : Option Nat
  deriving DecidableEq

/-- The message of a refusal; a place is shown in the statement. -/
def Refusal.messageIn (statement : Text) (refusal : Refusal) : Text :=
  match refusal.offset? with
  | none => refusal.reason.message
  | some offset =>
    refusal.reason.message ++ " in " ++ statement ++ " at offset " ++ Text.ofNat offset

end TableBrowser.Database
