import TableBrowser.Proofs.Paging.Operations
import TableBrowser.Proofs.Paging.Trace
import TableBrowser.Proofs.Paging.Waiting

/-!
# What one event does to a run

At most one waiting ticket counts, and the loading flags tell which page it is
for.  In a run of which this holds an event does one of a few things.  They are
listed once, and the laws about steps go through the list.
-/

namespace TableBrowser.Paging

namespace State

/-- The page that is on its way according to the loading flags. -/
def awaited? (state : State) : Option Fetch :=
  if state.isLoading then some .first
  else if state.isLoadingMore then some .next
  else none

theorem awaited?_eq_none_iff {state : State} :
    state.awaited? = none ↔ state.isLoading = false ∧ state.isLoadingMore = false := by
  cases hloading : state.isLoading <;> cases hmore : state.isLoadingMore <;>
    simp [awaited?, hloading, hmore]

theorem awaited?_eq_first_iff {state : State} :
    state.awaited? = some .first ↔ state.isLoading = true := by
  cases hloading : state.isLoading <;> cases hmore : state.isLoadingMore <;>
    simp [awaited?, hloading, hmore]

theorem awaited?_eq_next_iff {state : State} :
    state.awaited? = some .next ↔ state.isLoading = false ∧ state.isLoadingMore = true := by
  cases hloading : state.isLoading <;> cases hmore : state.isLoadingMore <;>
    simp [awaited?, hloading, hmore]

theorem phase_eq_loading_iff {state : State} :
    state.phase = .loading ↔ state.awaited? = some .first := by
  cases hloading : state.isLoading <;> cases hmore : state.isLoadingMore <;>
    cases htable : state.table? <;> simp [phase, awaited?, hloading, hmore, htable]

theorem phase_eq_loadingMore_iff {state : State} :
    state.phase = .loadingMore ↔ state.awaited? = some .next := by
  cases hloading : state.isLoading <;> cases hmore : state.isLoadingMore <;>
    cases htable : state.table? <;> simp [phase, awaited?, hloading, hmore, htable]

theorem phase_eq_idle_iff {state : State} :
    state.phase = .idle ↔ state.awaited? = none ∧ state.table? = none := by
  cases hloading : state.isLoading <;> cases hmore : state.isLoadingMore <;>
    cases htable : state.table? <;> simp [phase, awaited?, hloading, hmore, htable]

theorem phase_eq_ready_iff {state : State} :
    state.phase = .ready ↔ state.awaited? = none ∧ state.table? ≠ none := by
  cases hloading : state.isLoading <;> cases hmore : state.isLoadingMore <;>
    cases htable : state.table? <;> simp [phase, awaited?, hloading, hmore, htable]

end State

namespace Run

/-- The tickets and the flags of a run agree, and the ticket that counts asks for
the rows behind those of the state. -/
structure Sound (run : Run) : Prop where
  labels : run.LabelsDistinct
  epochs : ∀ entry ∈ run.waiting, entry.2.request.epoch ≤ run.state.epoch
  awaited : run.live.map (·.fetch) = run.state.awaited?.toList
  exclusive : run.state.isLoading = true → run.state.isLoadingMore = false
  asksFor : ∀ ticket ∈ run.live, ticket.AsksFor run.state
  offset : ∀ ticket ∈ run.live, ticket.request.offset = run.state.offset
  cleared : run.state.isLoading = true → run.state.rows = [] ∧ run.state.hasMore = false
  table : run.state.hasMore = true → run.state.table?.isSome = true

/-- What one event does to a run whose tickets and flags agree. -/
inductive Moves (config : Config) (run : Run) : Event → Report → Run → Prop
  | opened {action : Action} {after : State} (label : Text) :
      action.opensEpoch = true → run.state.Opens after none →
      Moves config run (.act label action) .skipped ⟨after, run.waiting⟩
  | openedAsking {action : Action} {after : State} {ticket : Ticket} (label : Text) :
      action.opensEpoch = true → run.state.Opens after (some ticket) →
      Moves config run (.act label action) (.waiting ticket)
        ⟨after, run.others label ++ [(label, ticket)]⟩
  | skippedMore (label : Text) : Moves config run (.act label .more) .skipped run
  | askedMore {after : State} {ticket : Ticket} (label : Text) :
      run.state.AsksMore after ticket →
      Moves config run (.act label .more) (.waiting ticket)
        ⟨after, run.others label ++ [(label, ticket)]⟩
  | applied {label : Text} {ticket : Ticket} (page : Page) :
      (label, ticket) ∈ run.waiting → ticket.request.epoch = run.state.epoch →
      Moves config run (.reply label (.ok page)) (.settled (.ok (.applied page.rows.length)))
        ⟨Controller.merge config (Controller.landed run.state ticket.fetch) page ticket.fetch,
          run.others label⟩
  | failed {label : Text} {ticket : Ticket} (failure : FetchFailure) :
      (label, ticket) ∈ run.waiting → ticket.request.epoch = run.state.epoch →
      Moves config run (.reply label (.error failure)) (.settled (.error failure))
        ⟨Controller.landed run.state ticket.fetch, run.others label⟩
  | superseded {label : Text} {ticket : Ticket} (reply : Except FetchFailure Page) :
      (label, ticket) ∈ run.waiting → ticket.request.epoch ≠ run.state.epoch →
      Moves config run (.reply label reply) (.settled (.ok .superseded))
        ⟨run.state, run.others label⟩
  | replyUnknown {label : Text} (reply : Except FetchFailure Page) :
      run.ticket? label = none →
      Moves config run (.reply label reply) .unknownLabel run
  | dropped {label : Text} {ticket : Ticket} :
      (label, ticket) ∈ run.waiting → ticket.request.epoch = run.state.epoch →
      Moves config run (.drop label) .dropped
        ⟨Controller.landed run.state ticket.fetch, run.others label⟩
  | droppedStale {label : Text} {ticket : Ticket} :
      (label, ticket) ∈ run.waiting → ticket.request.epoch ≠ run.state.epoch →
      Moves config run (.drop label) .dropped ⟨run.state, run.others label⟩
  | dropUnknown {label : Text} :
      run.ticket? label = none → Moves config run (.drop label) .unknownLabel run
  | cancelled :
      Moves config run .cancel (.cancelled (run.state.epoch + 1))
        ⟨Controller.cancel run.state, run.waiting⟩
  | closed {after : State} :
      run.state.Opens after none → Moves config run .close .closed ⟨after, run.waiting⟩

variable {config : Config} {run : Run} {label : Text} {ticket : Ticket} {after : State}

/-! ## From a step to its description -/

theorem Sound.ne_epoch_of_opens {ticket? : Option Ticket} (hsound : run.Sound)
    (hopens : run.state.Opens after ticket?) :
    ∀ entry ∈ run.waiting, entry.2.request.epoch ≠ after.epoch := by
  intro entry hentry
  have hle := hsound.epochs entry hentry
  have hepoch := hopens.epoch
  omega

theorem Sound.awaited?_eq_none_of_asksMore (hsound : run.Sound)
    (hasks : run.state.AsksMore after ticket) : run.state.awaited? = none := by
  rw [State.awaited?_eq_none_iff]
  constructor
  · by_cases hloading : run.state.isLoading = true
    · have hcleared := (hsound.cleared hloading).2
      have hmore := hasks.hasMore
      rw [hcleared] at hmore
      contradiction
    · exact Bool.eq_false_iff.mpr hloading
  · exact hasks.waited

/-- More rows are asked for only when no waiting ticket counts. -/
theorem Sound.ne_epoch_of_asksMore (hsound : run.Sound)
    (hasks : run.state.AsksMore after ticket) :
    ∀ entry ∈ run.waiting, entry.2.request.epoch ≠ after.epoch := by
  intro entry hentry hepoch
  have hawaited := hsound.awaited
  rw [hsound.awaited?_eq_none_of_asksMore hasks] at hawaited
  have hlive : run.live = [] := List.map_eq_nil_iff.mp hawaited
  have hmem : entry.2 ∈ run.live :=
    mem_live.mpr ⟨⟨entry.1, hentry⟩, hepoch.trans hasks.epoch⟩
  rw [hlive] at hmem
  exact List.not_mem_nil hmem

theorem step_act_of_none {action : Action}
    (hstart : Controller.start config run.state action = (after, none)) :
    run.step config (.act label action) = (⟨after, run.waiting⟩, .skipped) := by
  simp only [step, hstart]

/-- A ticket of another epoch that waits under the label is given up without a
trace in the state. -/
theorem step_act_of_some {action : Action}
    (hstart : Controller.start config run.state action = (after, some ticket))
    (hstale : ∀ entry ∈ run.waiting, entry.2.request.epoch ≠ after.epoch) :
    run.step config (.act label action) =
      (⟨after, run.others label ++ [(label, ticket)]⟩, .waiting ticket) := by
  have hfreed : abandon { run with state := after } label = ⟨after, run.others label⟩ := by
    have hticket : ticket? { run with state := after } label = run.ticket? label := rfl
    cases hold : run.ticket? label with
    | none =>
        rw [abandon, hticket, hold, others_eq_of_ticket?_none hold]
    | some old =>
        have hne := hstale _ (mem_waiting_of_ticket? hold)
        rw [abandon, hticket, hold]
        simp only [Controller.abandon_of_ne hne]
        rfl
  simp only [step, hstart, hfreed]

theorem Sound.moves_act (hsound : run.Sound) (label : Text) (action : Action) :
    run.Moves config (.act label action) (run.step config (.act label action)).2
      (run.step config (.act label action)).1 := by
  cases hopens : action.opensEpoch with
  | true =>
      have hstate := Controller.start_opens config run.state hopens
      cases hticket : (Controller.start config run.state action).2 with
      | none =>
          rw [hticket] at hstate
          rw [step_act_of_none (Prod.ext rfl hticket)]
          exact .opened label hopens hstate
      | some ticket =>
          rw [hticket] at hstate
          rw [step_act_of_some (Prod.ext rfl hticket) (hsound.ne_epoch_of_opens hstate)]
          exact .openedAsking label hopens hstate
  | false =>
      obtain rfl : action = .more := by cases action <;> first | rfl | contradiction
      rcases Controller.start_more config run.state with
        hsame | ⟨after, ticket, hstart, hasks⟩
      · rw [step_act_of_none hsame]
        exact .skippedMore label
      · rw [step_act_of_some hstart (hsound.ne_epoch_of_asksMore hasks)]
        exact .askedMore label hasks

theorem moves_reply (label : Text) (reply : Except FetchFailure Page) :
    run.Moves config (.reply label reply) (run.step config (.reply label reply)).2
      (run.step config (.reply label reply)).1 := by
  cases hticket : run.ticket? label with
  | none =>
      simp only [step, hticket]
      exact .replyUnknown reply hticket
  | some ticket =>
      have hmem := mem_waiting_of_ticket? hticket
      simp only [step, hticket]
      by_cases hepoch : ticket.request.epoch = run.state.epoch
      · cases reply with
        | ok page =>
            rw [Controller.settle_page_of_eq hepoch]
            exact .applied page hmem hepoch
        | error failure =>
            rw [Controller.settle_failure_of_eq hepoch]
            exact .failed failure hmem hepoch
      · rw [Controller.settle_of_ne hepoch]
        exact .superseded reply hmem hepoch

theorem moves_drop (label : Text) :
    run.Moves config (.drop label) (run.step config (.drop label)).2
      (run.step config (.drop label)).1 := by
  cases hticket : run.ticket? label with
  | none =>
      simp only [step, hticket]
      exact .dropUnknown hticket
  | some ticket =>
      have hmem := mem_waiting_of_ticket? hticket
      simp only [step, abandon, hticket]
      by_cases hepoch : ticket.request.epoch = run.state.epoch
      · rw [Controller.abandon_of_eq hepoch]
        exact .dropped hmem hepoch
      · rw [Controller.abandon_of_ne hepoch]
        exact .droppedStale hmem hepoch

theorem Sound.moves (hsound : run.Sound) (config : Config) (event : Event) :
    run.Moves config event (run.step config event).2 (run.step config event).1 := by
  cases event with
  | act label action => exact hsound.moves_act label action
  | reply label reply => exact moves_reply label reply
  | drop label => exact moves_drop label
  | cancel => exact .cancelled
  | close => exact .closed (Controller.close_opens config run.state)

/-- Only actions ask for pages. -/
theorem Moves.event_of_waiting {event : Event} {next : Run}
    (hmoves : run.Moves config event (.waiting ticket) next) :
    ∃ label action, event = .act label action := by
  cases hmoves with
  | openedAsking label | askedMore label => exact ⟨label, _, rfl⟩

/-- A ticket that waits behind a step has waited before it, or the step asks for it. -/
theorem Moves.mem_waiting_cases {event : Event} {report : Report} {next : Run}
    (hmoves : run.Moves config event report next) {entry : Text × Ticket}
    (hentry : entry ∈ next.waiting) :
    entry ∈ run.waiting ∨
      ∃ action, event = .act entry.1 action ∧ report = .waiting entry.2 := by
  cases hmoves with
  | opened | skippedMore | replyUnknown | dropUnknown | cancelled | closed => exact .inl hentry
  | applied | failed | superseded | dropped | droppedStale =>
      exact .inl (mem_others.mp hentry).1
  | openedAsking label | askedMore label =>
      rw [List.mem_append, List.mem_singleton] at hentry
      rcases hentry with hold | rfl
      · exact .inl (mem_others.mp hold).1
      · exact .inr ⟨_, rfl, rfl⟩

/-- A page is asked for in the epoch that is current then. -/
theorem Moves.requestEpoch_of_waiting {event : Event} {next : Run}
    (hmoves : run.Moves config event (.waiting ticket) next) :
    ticket.request.epoch = next.state.epoch := by
  cases hmoves with
  | openedAsking _ _ hopens => exact hopens.requestEpoch _ rfl
  | askedMore _ hasks => exact hasks.requestEpoch.trans hasks.epoch.symm

end Run

end TableBrowser.Paging
