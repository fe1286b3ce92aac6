import TableBrowser.Proofs.Paging.Epochs

/-!
# The rows and the pages they came from

The rows of a state are those of the pages that were taken in since the rows were
last cleared, one page behind the other.  The history of a run tells which pages
these are, and each of them was asked for at the place where it was put.
-/

namespace TableBrowser.Paging

/-- A page with the ticket that it answers. -/
structure Answer where
  ticket : Ticket
  page : Page

/-- Whether an event clears the rows: selecting a table, changing the order or the
filter, and closing. -/
def Event.clearsRows : Event → Bool
  | .act _ action => action.opensEpoch
  | .close => true
  | .reply _ _ | .drop _ | .cancel => false

namespace Transition

/-- The answer that was taken in. -/
def answer? (transition : Transition) : Option Answer :=
  match transition.event, transition.report with
  | .reply label (.ok page), .settled (.ok (.applied _)) =>
    (transition.before.ticket? label).map fun ticket => ⟨ticket, page⟩
  | _, _ => none

/-- Follows the answers since the rows were last cleared over one transition. -/
def shown (answers : List Answer) (transition : Transition) : List Answer :=
  if transition.event.clearsRows then [] else answers ++ transition.answer?.toList

end Transition

/-- The rows of answers, one page behind the other. -/
def rowsOf (answers : List Answer) : List Record :=
  answers.flatMap (·.page.rows)

@[simp]
theorem rowsOf_append (front back : List Answer) :
    rowsOf (front ++ back) = rowsOf front ++ rowsOf back :=
  List.flatMap_append

@[simp]
theorem rowsOf_singleton (answer : Answer) : rowsOf [answer] = answer.page.rows :=
  List.append_nil _

/-- Each answer was asked for at the number of rows before it. -/
def Contiguous (answers : List Answer) : Prop :=
  ∀ front answer back, answers = front ++ answer :: back →
    answer.ticket.request.offset = (rowsOf front).length

theorem Contiguous.concat {answers : List Answer} (hcontiguous : Contiguous answers)
    {last : Answer} (hlast : last.ticket.request.offset = (rowsOf answers).length) :
    Contiguous (answers ++ [last]) := by
  intro front answer back hsplit
  rcases List.eq_nil_or_concat back with rfl | ⟨middle, final, rfl⟩
  · obtain ⟨rfl, hanswer⟩ := List.append_inj' hsplit rfl
    rw [List.cons.injEq] at hanswer
    rw [← hanswer.1, hlast]
  · rw [List.concat_eq_append, ← List.cons_append, ← List.append_assoc] at hsplit
    exact hcontiguous front answer middle (List.append_inj' hsplit rfl).1

namespace State

/-- The state shows exactly the rows of the answers. -/
structure Shows (state : State) (answers : List Answer) : Prop where
  rows : state.rows = rowsOf answers
  offset : state.offset = state.rows.length
  asksFor : ∀ answer ∈ answers, answer.ticket.AsksFor state
  contiguous : Contiguous answers
  total : state.total = (answers.getLast?.map (·.page.total)).getD 0
  hasMore : state.hasMore = (answers.getLast?.map (·.page.hasMore)).getD false

theorem Shows.of_sameContent {before after : State} {answers : List Answer}
    (hshows : before.Shows answers) (hsame : after.SameContent before) :
    after.Shows answers where
  rows := hsame.rows.trans hshows.rows
  offset := by rw [hsame.offset, hsame.rows, hshows.offset]
  asksFor := fun answer hanswer => (hshows.asksFor answer hanswer).of_sameContent hsame
  contiguous := hshows.contiguous
  total := hsame.total.trans hshows.total
  hasMore := hsame.hasMore.trans hshows.hasMore

theorem Shows.nil {state : State} (hrows : state.rows = []) (hoffset : state.offset = 0)
    (htotal : state.total = 0) (hmore : state.hasMore = false) : state.Shows [] where
  rows := hrows
  offset := by rw [hoffset, hrows]; rfl
  asksFor := by simp
  contiguous := by simp [Contiguous]
  total := htotal
  hasMore := hmore

end State

namespace Run

variable {config : Config} {run next : Run} {event : Event} {report : Report}
  {label : Text} {ticket : Ticket} {answers : List Answer}

/-- The answers taken in since the rows were last cleared. -/
def shownAnswers (config : Config) (run : Run) (events : List Event) : List Answer :=
  (run.trace config events).foldl Transition.shown []

/-- The page of the live ticket follows the answers that are shown. -/
theorem Sound.merge_shows (hsound : run.Sound) (hlive : ticket ∈ run.live)
    (hshows : run.state.Shows answers) (page : Page) :
    (Controller.merge config (Controller.landed run.state ticket.fetch) page
      ticket.fetch).Shows (answers ++ [⟨ticket, page⟩]) := by
  have hrows := hsound.merge_rows hlive config page
  have hoffset : ticket.request.offset = (rowsOf answers).length := by
    rw [hsound.offset ticket hlive, hshows.offset, hshows.rows]
  have hsame := Controller.landed_sameContent run.state ticket.fetch
  constructor
  case rows => rw [hrows, hshows.rows, rowsOf_append, rowsOf_singleton]
  case offset =>
    cases hfetch : ticket.fetch with
    | first => rfl
    | next =>
        calc run.state.offset + page.rows.length
            = run.state.rows.length + page.rows.length := by rw [hshows.offset]
          _ = (run.state.rows ++ page.rows).length := List.length_append.symm
  case asksFor =>
    intro answer hanswer
    apply Controller.merge_asksFor
    rw [List.mem_append, List.mem_singleton] at hanswer
    rcases hanswer with hshown | rfl
    · exact (hshows.asksFor answer hshown).of_sameContent hsame
    · exact (hsound.asksFor ticket hlive).of_sameContent hsame
  case contiguous => exact hshows.contiguous.concat hoffset
  case total => cases ticket.fetch <;> simp [Controller.merge]
  case hasMore => cases ticket.fetch <;> simp [Controller.merge]

theorem shows_of_opens {ticket? : Option Ticket} {before after : State}
    (hopens : before.Opens after ticket?) : after.Shows [] :=
  .nil hopens.rows hopens.offset hopens.total hopens.hasMore

theorem Moves.shows (hsound : run.Sound) (hshows : run.state.Shows answers)
    (hmoves : run.Moves config event report next) :
    next.state.Shows (Transition.shown answers ⟨run, event, report, next⟩) := by
  -- Without an answer the shown answers stay.
  have hkept : event.clearsRows = false →
      Transition.answer? ⟨run, event, report, next⟩ = none →
      Transition.shown answers ⟨run, event, report, next⟩ = answers := by
    intro hclears hanswer
    simp [Transition.shown, hclears, hanswer]
  cases hmoves with
  | opened label hopens hstate | openedAsking label hopens hstate =>
      rw [Transition.shown, Event.clearsRows, if_pos hopens]
      exact shows_of_opens hstate
  | closed hstate => exact shows_of_opens hstate
  | skippedMore | droppedStale | dropUnknown =>
      rw [hkept rfl rfl]
      exact hshows
  | superseded reply _ _ | replyUnknown reply _ =>
      rw [hkept rfl (by cases reply <;> rfl)]
      exact hshows
  | askedMore label hasks =>
      rw [hkept rfl rfl]
      exact hshows.of_sameContent hasks.content
  | failed _ _ _ | dropped _ _ =>
      rw [hkept rfl rfl]
      exact hshows.of_sameContent (Controller.landed_sameContent run.state _)
  | cancelled =>
      rw [hkept rfl rfl]
      exact hshows.of_sameContent (Controller.cancel_sameContent run.state)
  | @applied label ticket page hmem hepoch =>
      have hticket := hsound.labels.ticket?_eq_some_iff.mpr hmem
      have hlive : ticket ∈ run.live := mem_live.mpr ⟨⟨label, hmem⟩, hepoch⟩
      simp only [Transition.shown, Transition.answer?, Event.clearsRows, hticket]
      exact hsound.merge_shows hlive hshows page

theorem Sound.steps_shows (hsound : run.Sound) (hshows : run.state.Shows answers)
    (config : Config) (events : List Event) :
    (run.steps config events).state.Shows
      ((run.trace config events).foldl Transition.shown answers) := by
  induction events generalizing run answers with
  | nil => exact hshows
  | cons event events ih =>
      have hmoves := hsound.moves config event
      exact ih (hsound.step event) (hmoves.shows hsound hshows)

/-- In every run the rows are those of the pages taken in since the rows were last
cleared.  Each page answers a request for what the state still shows, at the number
of rows before it, and the last page tells the total and whether there are more. -/
theorem rows_eq_rowsOf_shownAnswers (config : Config) (events : List Event) :
    let state := ((initial config).steps config events).state
    let answers := (initial config).shownAnswers config events
    state.rows = answers.flatMap (·.page.rows) ∧
      (∀ answer ∈ answers,
        state.table? = some answer.ticket.table ∧
          answer.ticket.request.orderBy? = state.sort?.map (·.column) ∧
          answer.ticket.request.direction? = state.sort?.map (·.direction) ∧
          answer.ticket.request.clause? = state.clause?) ∧
      (∀ front answer back, answers = front ++ answer :: back →
        answer.ticket.request.offset = (front.flatMap (·.page.rows)).length) ∧
      state.offset = state.rows.length ∧
      state.total = (answers.getLast?.map (·.page.total)).getD 0 ∧
      state.hasMore = (answers.getLast?.map (·.page.hasMore)).getD false := by
  intro state answers
  have hinitial : (initial config).state.Shows [] := .nil rfl rfl rfl rfl
  have hshows : state.Shows answers := (sound_initial config).steps_shows hinitial config events
  refine ⟨hshows.rows, ?_, hshows.contiguous, hshows.offset, hshows.total, hshows.hasMore⟩
  intro answer hanswer
  have hasks := hshows.asksFor answer hanswer
  exact ⟨hasks.table, hasks.orderBy, hasks.direction, hasks.clause⟩

/-- Two pages of a table, the second asked for behind the two rows of the first. -/
theorem rows_eq_rowsOf_shownAnswers_two_pages :
    let first : Page := ⟨["id"], [[.integer 1], [.integer 2]], 3, true⟩
    let next : Page := ⟨["id"], [[.integer 3]], 3, false⟩
    let events : List Event := [.act "first" (.select "movies"), .reply "first" (.ok first),
      .act "next" .more, .reply "next" (.ok next)]
    let state := ((initial .standard).steps .standard events).state
    ((initial .standard).shownAnswers .standard events).map (·.page) = [first, next] ∧
      state.rows = first.rows ++ next.rows ∧ state.offset = 3 ∧ state.total = 3 := by
  intro first next events state
  have hpages : ((initial .standard).shownAnswers .standard events).map (·.page) =
      [first, next] := rfl
  obtain ⟨hrows, -, -, hoffset, htotal, -⟩ := rows_eq_rowsOf_shownAnswers .standard events
  have hboth : state.rows = first.rows ++ next.rows := hrows.trans rfl
  refine ⟨hpages, hboth, ?_, htotal.trans rfl⟩
  rw [hoffset, hboth]
  rfl

end Run

end TableBrowser.Paging
