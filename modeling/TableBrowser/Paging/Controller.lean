import TableBrowser.Paging.Config
import TableBrowser.Paging.State

/-!
# The paging controller

Every action that changes which rows are shown opens a new epoch and asks for a
first page.  A reply counts only while the epoch of its request is current, so a
slow page of an earlier choice never reaches the rows of a later one.  Asking for
more rows stays in the current epoch and appends.

An action splits in two: `start` changes the state and may give out a ticket for
a page, and later either `settle` takes the reply to the ticket or `abandon`
gives it up.  Between the two any other action may run.
-/

namespace TableBrowser.Paging

inductive Action
  | select (table : Text)
  | sort (column : Text) (direction : Direction)
  | clearSort
  | filter (clause : Text)
  | clearFilter
  | more
  deriving DecidableEq

/-- Whether a page replaces the rows or follows them. -/
inductive Fetch
  | first
  | next
  deriving DecidableEq

/-- A page that was asked for. -/
structure Ticket where
  fetch : Fetch
  table : Text
  request : PageRequest
  deriving DecidableEq

inductive Outcome
  | applied (rows : Nat)
  | superseded
  | skipped
  deriving DecidableEq

namespace Controller

/-- A browser without a table, in the epoch before any action. -/
def initial (config : Config) : State :=
  .idle config.startingSize 0

/-- The request for the page behind a number of rows. -/
def requestAt (config : Config) (state : State) (offset : Nat) : PageRequest where
  epoch := state.epoch
  limit := state.pageSize
  offset := offset
  orderBy? := state.sort?.map (·.column)
  direction? := state.sort?.map (·.direction)
  clause? := state.clause?
  timeoutSeconds? := config.timeoutSeconds?

/-- Opens a new epoch without rows and asks for the first page of the selected
table, if there is one. -/
def reload (config : Config) (state : State) : State × Option Ticket :=
  let cleared := { state.clearRows with epoch := state.epoch + 1, isLoadingMore := false }
  match state.table? with
  | none => ({ cleared with isLoading := false }, none)
  | some table =>
    let loading := { cleared with isLoading := true }
    (loading, some ⟨.first, table, requestAt config loading 0⟩)

/-- Asks for the page behind the rows, if a table is selected, it has more rows
and no such page is on its way. -/
def loadMore (config : Config) (state : State) : State × Option Ticket :=
  match state.table? with
  | none => (state, none)
  | some table =>
    if state.hasMore && !state.isLoadingMore then
      let loading := { state with isLoadingMore := true }
      (loading, some ⟨.next, table, requestAt config loading state.offset⟩)
    else (state, none)

/-- Begins an action.  Without a ticket there is nothing to wait for. -/
def start (config : Config) (state : State) : Action → State × Option Ticket
  | .select table =>
    reload config { State.idle config.startingSize state.epoch with table? := some table }
  | .sort column direction => reload config { state with sort? := some ⟨column, direction⟩ }
  | .clearSort => reload config { state with sort? := none }
  | .filter clause => reload config { state with clause? := some clause }
  | .clearFilter => reload config { state with clause? := none }
  | .more => loadMore config state

/-- No page of this kind is on its way any more. -/
def landed (state : State) : Fetch → State
  | .first => { state with isLoading := false }
  | .next => { state with isLoadingMore := false }

/-- Takes a page into the rows. -/
def merge (config : Config) (state : State) (page : Page) : Fetch → State
  | .first =>
    { state with
      columns := page.columns
      rows := page.rows
      offset := page.rows.length
      total := page.total
      hasMore := page.hasMore
      pageSize := config.nextSize page.total }
  | .next =>
    { state with
      rows := state.rows ++ page.rows
      offset := state.offset + page.rows.length
      total := page.total
      hasMore := page.hasMore }

/-- Takes the reply to a ticket.  The reply to a ticket of another epoch changes
nothing. -/
def settle (config : Config) (state : State) (ticket : Ticket)
    (reply : Except FetchFailure Page) : State × Except FetchFailure Outcome :=
  if state.epoch ≠ ticket.request.epoch then (state, .ok .superseded)
  else
    let state := landed state ticket.fetch
    match reply with
    | .ok page => (merge config state page ticket.fetch, .ok (.applied page.rows.length))
    | .error failure => (state, .error failure)

/-- Gives a ticket up before its reply. -/
def abandon (state : State) (ticket : Ticket) : State :=
  if state.epoch ≠ ticket.request.epoch then state else landed state ticket.fetch

/-- Leaves every page that is on its way behind. -/
def cancel (state : State) : State :=
  { state with epoch := state.epoch + 1, isLoading := false, isLoadingMore := false }

/-- Returns to a browser without a table. -/
def close (config : Config) (state : State) : State :=
  .idle config.startingSize (state.epoch + 1)

/-- Runs an action to its end against a source that answers at once. -/
def perform (config : Config) (source : Text → PageRequest → Except FetchFailure Page)
    (state : State) (action : Action) : State × Except FetchFailure Outcome :=
  match start config state action with
  | (state, none) => (state, .ok .skipped)
  | (state, some ticket) => settle config state ticket (source ticket.table ticket.request)

end Controller

end TableBrowser.Paging
