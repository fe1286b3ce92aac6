import TableBrowser.Paging.Request

/-!
# State of a browser

What is known of the table that is being browsed: the rows loaded so far, their
order and filter, and whether a page is on its way.
-/

namespace TableBrowser.Paging

structure State where
  table? : Option Text
  columns : List Text
  rows : List Record
  total : Nat
  /-- The number of rows loaded so far. -/
  offset : Nat
  hasMore : Bool
  pageSize : Nat
  epoch : Nat
  isLoading : Bool
  isLoadingMore : Bool
  sort? : Option SortOrder
  clause? : Option Text

inductive Phase
  | idle
  | loading
  | loadingMore
  | ready
  deriving DecidableEq

namespace State

/-- No table is selected. -/
def idle (pageSize epoch : Nat) : State where
  table? := none
  columns := []
  rows := []
  total := 0
  offset := 0
  hasMore := false
  pageSize := pageSize
  epoch := epoch
  isLoading := false
  isLoadingMore := false
  sort? := none
  clause? := none

def phase (state : State) : Phase :=
  if state.isLoading then .loading
  else if state.isLoadingMore then .loadingMore
  else if state.table?.isNone then .idle
  else .ready

/-- Forgets the rows and how many there are; the columns stay. -/
def clearRows (state : State) : State :=
  { state with rows := [], offset := 0, total := 0, hasMore := false }

end State

end TableBrowser.Paging
