import TableBrowser.Json.Basic
import TableBrowser.Text.Digits

/-!
# Requests for pages

A page is asked for by a limit and an offset, with an optional order and filter,
under the epoch in which it was asked for.  The answer is a page of rows or the
failure of the fetch.
-/

namespace TableBrowser.Paging

inductive Direction
  | ascending
  | descending
  deriving DecidableEq

namespace Direction

/-- The keyword of an order. -/
def keyword : Direction → Text
  | .ascending => "ASC"
  | .descending => "DESC"

/-- Reads a keyword in upper or in lower case. -/
def ofWord? (word : Text) : Option Direction :=
  if word = "ASC" ∨ word = "asc" then some .ascending
  else if word = "DESC" ∨ word = "desc" then some .descending
  else none

/-- Reads a direction from JSON: a keyword, or an object whose only member has a
keyword as its name and null as its value. -/
def ofJson? : Json → Option Direction
  | .string word => ofWord? word
  | .object [(word, .null)] => ofWord? word
  | _ => none

end Direction

structure SortOrder where
  column : Text
  direction : Direction
  deriving DecidableEq

structure PageRequest where
  epoch : Nat
  limit : Nat
  offset : Nat
  orderBy? : Option Text
  direction? : Option Direction
  /-- The body of a WHERE clause. -/
  clause? : Option Text
  timeoutSeconds? : Option Nat
  deriving DecidableEq

/-- The cells of one row. -/
abbrev Record := List Json

structure Page where
  columns : List Text
  rows : List Record
  /-- The number of matching rows on all pages. -/
  total : Nat
  hasMore : Bool

inductive FetchFailure
  | transport (reason : Text)
  | query (reason : Text)
  | timeout (seconds : Nat)
  deriving DecidableEq

namespace FetchFailure

/-- The stable code of a failure. -/
def code : FetchFailure → Text
  | .transport _ => "TRANSPORT_FAILURE"
  | .query _ => "BACKEND_QUERY_ERROR"
  | .timeout _ => "TIMEOUT"

def message : FetchFailure → Text
  | .transport reason => "transport failure: " ++ reason
  | .query reason => "query error: " ++ reason
  | .timeout seconds => "query timed out after " ++ Text.ofNat seconds ++ "s"

end FetchFailure

end TableBrowser.Paging
