import TableBrowser.Paging.Run

/-!
# What the operations of a controller do

Each operation is described once: what it does to the epoch, to the rows and to
the two loading flags, and which page it asks for.  The laws of runs rest on these
descriptions and not on the operations themselves.
-/

namespace TableBrowser.Paging

/-- Whether an action opens a new epoch. -/
def Action.opensEpoch : Action → Bool
  | .more => false
  | _ => true

/-- The ticket asks for rows of the table, in the order and under the clause that
the state holds. -/
structure Ticket.AsksFor (ticket : Ticket) (state : State) : Prop where
  table : state.table? = some ticket.table
  orderBy : ticket.request.orderBy? = state.sort?.map (·.column)
  direction : ticket.request.direction? = state.sort?.map (·.direction)
  clause : ticket.request.clause? = state.clause?

namespace State

/-- The states differ at most in their epochs and loading flags. -/
structure SameContent (left right : State) : Prop where
  table : left.table? = right.table?
  columns : left.columns = right.columns
  rows : left.rows = right.rows
  total : left.total = right.total
  offset : left.offset = right.offset
  hasMore : left.hasMore = right.hasMore
  pageSize : left.pageSize = right.pageSize
  sort : left.sort? = right.sort?
  clause : left.clause? = right.clause?

/-- The state `after` stands in the epoch after that of `before`, without rows and
with a first page on its way exactly if there is a ticket for it. -/
structure Opens (before after : State) (ticket? : Option Ticket) : Prop where
  epoch : after.epoch = before.epoch + 1
  rows : after.rows = []
  offset : after.offset = 0
  total : after.total = 0
  hasMore : after.hasMore = false
  loading : after.isLoading = ticket?.isSome
  loadingMore : after.isLoadingMore = false
  fetch : ∀ ticket, ticket? = some ticket → ticket.fetch = .first
  requestEpoch : ∀ ticket, ticket? = some ticket → ticket.request.epoch = after.epoch
  requestOffset : ∀ ticket, ticket? = some ticket → ticket.request.offset = 0
  asksFor : ∀ ticket, ticket? = some ticket → ticket.AsksFor after

/-- A page behind the rows of `before` is on its way in `after`. -/
structure AsksMore (before after : State) (ticket : Ticket) : Prop where
  hasMore : before.hasMore = true
  waited : before.isLoadingMore = false
  content : after.SameContent before
  epoch : after.epoch = before.epoch
  loading : after.isLoading = before.isLoading
  loadingMore : after.isLoadingMore = true
  fetch : ticket.fetch = .next
  requestEpoch : ticket.request.epoch = before.epoch
  requestOffset : ticket.request.offset = before.offset
  asksFor : ticket.AsksFor before

end State

theorem Ticket.AsksFor.of_sameContent {ticket : Ticket} {left right : State}
    (hasks : ticket.AsksFor left) (hsame : right.SameContent left) :
    ticket.AsksFor right where
  table := hsame.table.trans hasks.table
  orderBy := by rw [hasks.orderBy, hsame.sort]
  direction := by rw [hasks.direction, hsame.sort]
  clause := hasks.clause.trans hsame.clause.symm

namespace Controller

variable {config : Config} {state : State} {ticket : Ticket}

theorem requestAt_asksFor {table : Text} (fetch : Fetch) (offset : Nat)
    (htable : state.table? = some table) :
    (Ticket.mk fetch table (requestAt config state offset)).AsksFor state where
  table := htable
  orderBy := rfl
  direction := rfl
  clause := rfl

theorem reload_opens (config : Config) (state : State) :
    state.Opens (reload config state).1 (reload config state).2 := by
  cases htable : state.table? with
  | none => constructor <;> simp [reload, htable, State.clearRows]
  | some table =>
      simp only [reload, htable]
      constructor
      case asksFor =>
        rintro ticket ⟨⟩
        exact requestAt_asksFor .first 0 htable
      all_goals simp [State.clearRows, requestAt]

/-- An action other than asking for more rows reloads a state of the same epoch. -/
theorem start_eq_reload (config : Config) (state : State) {action : Action}
    (hopens : action.opensEpoch = true) :
    ∃ revised : State, revised.epoch = state.epoch ∧
      start config state action = reload config revised := by
  cases action with
  | select table =>
      exact ⟨{ State.idle config.startingSize state.epoch with table? := some table }, rfl, rfl⟩
  | sort column direction => exact ⟨{ state with sort? := some ⟨column, direction⟩ }, rfl, rfl⟩
  | clearSort => exact ⟨{ state with sort? := none }, rfl, rfl⟩
  | filter clause => exact ⟨{ state with clause? := some clause }, rfl, rfl⟩
  | clearFilter => exact ⟨{ state with clause? := none }, rfl, rfl⟩
  | more => contradiction

theorem start_opens (config : Config) (state : State) {action : Action}
    (hopens : action.opensEpoch = true) :
    state.Opens (start config state action).1 (start config state action).2 := by
  obtain ⟨revised, hepoch, hstart⟩ := start_eq_reload config state hopens
  rw [hstart]
  have hrevised := reload_opens config revised
  exact { hrevised with epoch := by rw [hrevised.epoch, hepoch] }

/-- Asking for more rows gives out a ticket or does nothing. -/
theorem start_more (config : Config) (state : State) :
    start config state .more = (state, none) ∨
      ∃ after ticket, start config state .more = (after, some ticket) ∧
        state.AsksMore after ticket := by
  cases htable : state.table? with
  | none => exact Or.inl (by simp only [start, loadMore, htable])
  | some table =>
      by_cases hmore : state.hasMore && !state.isLoadingMore
      · right
        refine ⟨{ state with isLoadingMore := true }, ⟨.next, table,
          requestAt config { state with isLoadingMore := true } state.offset⟩, ?_, ?_⟩
        · simp only [start, loadMore, htable, if_pos hmore]
        rw [Bool.and_eq_true, Bool.not_eq_true'] at hmore
        constructor
        case content => constructor <;> rfl
        case asksFor => exact requestAt_asksFor .next state.offset htable
        case hasMore => exact hmore.1
        case waited => exact hmore.2
        all_goals rfl
      · left
        simp only [start, loadMore, htable, if_neg hmore]

theorem close_opens (config : Config) (state : State) :
    state.Opens (close config state) none := by
  constructor <;> simp [close, State.idle]

theorem landed_sameContent (state : State) (fetch : Fetch) :
    (landed state fetch).SameContent state := by
  cases fetch <;> constructor <;> rfl

theorem cancel_sameContent (state : State) : (cancel state).SameContent state := by
  constructor <;> rfl

@[simp]
theorem landed_epoch (state : State) (fetch : Fetch) :
    (landed state fetch).epoch = state.epoch := by
  cases fetch <;> rfl

@[simp]
theorem merge_epoch (state : State) (page : Page) (fetch : Fetch) :
    (merge config state page fetch).epoch = state.epoch := by
  cases fetch <;> rfl

@[simp]
theorem merge_isLoading (state : State) (page : Page) (fetch : Fetch) :
    (merge config state page fetch).isLoading = state.isLoading := by
  cases fetch <;> rfl

@[simp]
theorem merge_isLoadingMore (state : State) (page : Page) (fetch : Fetch) :
    (merge config state page fetch).isLoadingMore = state.isLoadingMore := by
  cases fetch <;> rfl

@[simp]
theorem merge_table? (state : State) (page : Page) (fetch : Fetch) :
    (merge config state page fetch).table? = state.table? := by
  cases fetch <;> rfl

theorem merge_asksFor (hasks : ticket.AsksFor state) (page : Page) (fetch : Fetch) :
    ticket.AsksFor (merge config state page fetch) := by
  cases fetch <;> exact ⟨hasks.table, hasks.orderBy, hasks.direction, hasks.clause⟩

theorem settle_of_ne (hepoch : ticket.request.epoch ≠ state.epoch)
    (reply : Except FetchFailure Page) :
    settle config state ticket reply = (state, .ok .superseded) := by
  rw [settle, if_pos (Ne.symm hepoch)]

theorem settle_page_of_eq (hepoch : ticket.request.epoch = state.epoch) (page : Page) :
    settle config state ticket (.ok page) =
      (merge config (landed state ticket.fetch) page ticket.fetch,
        .ok (.applied page.rows.length)) := by
  simp [settle, hepoch]

theorem settle_failure_of_eq (hepoch : ticket.request.epoch = state.epoch)
    (failure : FetchFailure) :
    settle config state ticket (.error failure) =
      (landed state ticket.fetch, .error failure) := by
  simp [settle, hepoch]

theorem abandon_of_ne (hepoch : ticket.request.epoch ≠ state.epoch) :
    abandon state ticket = state := by
  rw [abandon, if_pos (Ne.symm hepoch)]

theorem abandon_of_eq (hepoch : ticket.request.epoch = state.epoch) :
    abandon state ticket = landed state ticket.fetch := by
  simp [abandon, hepoch]

end Controller

namespace Run

variable {config : Config} {run : Run} {label : Text} {action : Action} {ticket : Ticket}

theorem abandon_sameContent (run : Run) (label : Text) :
    (run.abandon label).state.SameContent run.state := by
  rw [Run.abandon]
  split
  · constructor <;> rfl
  · next ticket _ =>
      rw [Controller.abandon]
      split
      · constructor <;> rfl
      · exact Controller.landed_sameContent run.state ticket.fetch

/-- The state behind an action has the content that the action gave it. -/
theorem step_act_sameContent (config : Config) (run : Run) (label : Text) (action : Action) :
    (run.step config (.act label action)).1.state.SameContent
      (Controller.start config run.state action).1 := by
  rw [Run.step]
  split
  · next state hstart =>
      rw [hstart]
      constructor <;> rfl
  · next state ticket hstart =>
      rw [hstart]
      exact abandon_sameContent { run with state := state } label

theorem step_act_waiting_iff :
    (run.step config (.act label action)).2 = .waiting ticket ↔
      (Controller.start config run.state action).2 = some ticket := by
  rcases hstart : Controller.start config run.state action with ⟨after, _ | given⟩
  · simp [step, hstart]
  · simp [step, hstart]

end Run

end TableBrowser.Paging
