import TableBrowser.Filter.Failure
import TableBrowser.Paging.Request

/-!
# Failures of requests

A request that was understood may still fail.  Each cause has a status, a stable
code and a message; a filter that cannot be compiled also tells where it fails.
-/

namespace TableBrowser.Web

open TableBrowser.Paging

inductive Failure
  | sessionNotFound (id : Text)
  | tooManySessions (max : Nat)
  | tableNotFound (table : Text)
  | filter (failure : Filter.Failure)
  | fetch (failure : FetchFailure)
  | database (reason : Text)
  | invalidRequest (reason : Text)
  deriving DecidableEq

namespace Failure

def status : Failure → Nat
  | .sessionNotFound _ => 404
  | .tooManySessions _ => 503
  | .tableNotFound _ => 404
  | .filter _ => 400
  | .fetch (.timeout _) => 504
  | .fetch (.transport _) => 502
  | .fetch (.query _) => 400
  | .database _ => 500
  | .invalidRequest _ => 400

def code : Failure → Text
  | .sessionNotFound _ => "SESSION_NOT_FOUND"
  | .tooManySessions _ => "TOO_MANY_SESSIONS"
  | .tableNotFound _ => "TABLE_NOT_FOUND"
  | .filter failure => failure.cause.code
  | .fetch failure => failure.code
  | .database _ => "DATABASE_ERROR"
  | .invalidRequest _ => "INVALID_REQUEST"

def message : Failure → Text
  | .sessionNotFound id => "Session not found: " ++ id
  | .tooManySessions max => "Too many sessions (max: " ++ Text.ofNat max ++ ")"
  | .tableNotFound table => "Table not found: " ++ table
  | .filter failure => "Invalid filter: " ++ failure.message
  | .fetch failure => "Fetch failed: " ++ failure.message
  | .database reason => "Database error: " ++ reason
  | .invalidRequest reason => "Invalid request: " ++ reason

/-- Where a filter fails and how to mend it. -/
def details : Failure → List (Text × Json)
  | .filter failure =>
    let span : Text × Json :=
      ("span", .object [("start", .ofNat failure.span.start), ("end", .ofNat failure.span.stop)])
    match failure.hint? with
    | some hint => [span, ("hint", .string hint)]
    | none => [span]
  | _ => []

def body (failure : Failure) : Json :=
  let always : List (Text × Json) :=
    [("code", .string failure.code), ("message", .string failure.message)]
  .object [("success", .bool false), ("error", .object (always ++ failure.details))]

end Failure

end TableBrowser.Web
