import TableBrowser.Proofs.Paging.Deliveries

/-!
# Lost pages

A page is lost when its fetch fails or is given up.  While the ticket that counts goes on
waiting nothing changes the state, so the loss finds the state as the request left it and
only takes the loading flag back.  A browser that loses a page of further rows is where it
was before it asked for them, and asking again gives out the same ticket.
-/

namespace TableBrowser.Paging

/-- How a waiting ticket ends without a page. -/
inductive Loss
  | failed (failure : FetchFailure)
  | givenUp
  deriving DecidableEq

namespace Loss

def fate : Loss → Fate
  | .failed failure => .answered (.error failure)
  | .givenUp => .givenUp

/-- The event by which the ticket of a label is lost. -/
def event (label : Text) (loss : Loss) : Event :=
  loss.fate.event label

/-- What is reported of the loss of a ticket that counts. -/
def report : Loss → Report
  | .failed failure => .settled (.error failure)
  | .givenUp => .dropped

variable {config : Config} {state : State} {ticket : Ticket}

theorem resolve_fate (loss : Loss) (hepoch : ticket.request.epoch = state.epoch) :
    loss.fate.resolve config state ticket = Controller.landed state ticket.fetch := by
  cases loss with
  | failed failure => exact congrArg Prod.fst (Controller.settle_failure_of_eq hepoch failure)
  | givenUp => exact Controller.abandon_of_eq hepoch

theorem report_fate (loss : Loss) {epoch : Nat} (hepoch : ticket.request.epoch = epoch) :
    loss.fate.report epoch ticket = loss.report := by
  cases loss with
  | failed failure => exact congrArg Report.settled (if_pos hepoch)
  | givenUp => rfl

end Loss

/-- The label of the ticket that an event settles or gives up. -/
def Event.delivered? : Event → Option Text
  | .reply label _ | .drop label => some label
  | .act _ _ | .cancel | .close => none

theorem Event.opensEpoch_of_delivered? {event : Event} {label : Text}
    (hdelivered : event.delivered? = some label) : event.opensEpoch = false := by
  cases event with
  | reply | drop => rfl
  | act | cancel | close => cases hdelivered

/-- Losing the further rows that were asked for leads back to the state before. -/
theorem State.AsksMore.landed_eq {before after : State} {ticket : Ticket}
    (hasks : before.AsksMore after ticket) : Controller.landed after ticket.fetch = before := by
  have hcontent := hasks.content
  rw [hasks.fetch, Controller.landed, hcontent.table, hcontent.columns, hcontent.rows,
    hcontent.total, hcontent.offset, hcontent.hasMore, hcontent.pageSize, hasks.epoch,
    hasks.loading, hcontent.sort, hcontent.clause, ← hasks.waited]

namespace Run

variable {config : Config} {run next asked : Run} {event : Event} {report : Report}
variable {label other : Text} {ticket otherTicket : Ticket}

/-! ## Waiting for the ticket that counts -/

/-- Of two tickets that count, one does not outlive the other. -/
theorem Sound.not_mem_others (hsound : run.Sound)
    (hother : (other, otherTicket) ∈ run.waiting)
    (hotherEpoch : otherTicket.request.epoch = run.state.epoch)
    (hepoch : ticket.request.epoch = run.state.epoch) :
    (label, ticket) ∉ run.others other := by
  intro hmem
  have hlive : ticket ∈ live ⟨run.state, run.others other⟩ :=
    mem_live.mpr ⟨⟨label, hmem⟩, hepoch⟩
  rw [hsound.live_others_eq_nil hother hotherEpoch] at hlive
  exact List.not_mem_nil hlive

/-- An event that leaves the ticket that counts waiting, and the epoch current, does not
change the state. -/
theorem Sound.state_eq_of_waits (hsound : run.Sound)
    (hmoves : run.Moves config event report next) (hmem : (label, ticket) ∈ run.waiting)
    (hepoch : ticket.request.epoch = run.state.epoch)
    (hnext : (label, ticket) ∈ next.waiting) (hcloses : event.opensEpoch = false) :
    next.state = run.state := by
  cases hmoves with
  | opened _ hopens | openedAsking _ hopens =>
      rw [Event.opensEpoch, hopens] at hcloses
      cases hcloses
  | cancelled | closed => cases hcloses
  | skippedMore | superseded | replyUnknown | droppedStale | dropUnknown => rfl
  | askedMore _ hasks =>
      exact absurd (hepoch.trans hasks.epoch.symm) (hsound.ne_epoch_of_asksMore hasks _ hmem)
  | applied _ hother hotherEpoch | failed _ hother hotherEpoch | dropped hother hotherEpoch =>
      exact absurd hnext (hsound.not_mem_others hother hotherEpoch hepoch)

/-! ## Asking for further rows -/

/-- Fates of other tickets leave a ticket waiting. -/
theorem Moves.mem_waiting_of_delivered (hmoves : run.Moves config event report next)
    (hdelivered : event.delivered? = some other) (hne : other ≠ label)
    (hmem : (label, ticket) ∈ run.waiting) : (label, ticket) ∈ next.waiting := by
  cases hmoves with
  | opened | openedAsking | skippedMore | askedMore | cancelled | closed => cases hdelivered
  | replyUnknown | dropUnknown => exact hmem
  | applied | failed | superseded | dropped | droppedStale =>
      obtain rfl := Option.some.inj hdelivered
      exact mem_others.mpr ⟨hmem, hne.symm⟩

/-- While the fates of other tickets are met, the ticket that counts waits and the state
stays. -/
theorem Sound.steps_of_delivered (hsound : run.Sound) (hmem : (label, ticket) ∈ run.waiting)
    (hepoch : ticket.request.epoch = run.state.epoch) (config : Config) {events : List Event}
    (hothers : ∀ event ∈ events, ∃ other, event.delivered? = some other ∧ other ≠ label) :
    (label, ticket) ∈ (run.steps config events).waiting ∧
      (run.steps config events).state = run.state := by
  induction events generalizing run with
  | nil => exact ⟨hmem, rfl⟩
  | cons event events ih =>
      obtain ⟨other, hdelivered, hne⟩ := hothers event (by simp)
      have hmoves := hsound.moves config event
      have hnext := hmoves.mem_waiting_of_delivered hdelivered hne hmem
      have hstate := hsound.state_eq_of_waits hmoves hmem hepoch hnext
        (Event.opensEpoch_of_delivered? hdelivered)
      obtain ⟨hwaits, hsame⟩ := ih (hsound.step event) hnext (hepoch.trans (by rw [hstate]))
        fun later hlater => hothers later (by simp [hlater])
      exact ⟨hwaits, hsame.trans hstate⟩

/-- Where no ticket counts, no fate of a ticket changes the state. -/
theorem Moves.state_eq_of_live_eq_nil (hmoves : run.Moves config event report next)
    (hlive : run.live = []) (hdelivered : event.delivered?.isSome = true) :
    next.state = run.state := by
  have hstale : ∀ label ticket, (label, ticket) ∈ run.waiting →
      ticket.request.epoch ≠ run.state.epoch := by
    intro label ticket hmem hepoch
    have hcounts : ticket ∈ run.live := mem_live.mpr ⟨⟨label, hmem⟩, hepoch⟩
    rw [hlive] at hcounts
    exact List.not_mem_nil hcounts
  cases hmoves with
  | opened | openedAsking | skippedMore | askedMore | cancelled | closed => cases hdelivered
  | superseded | replyUnknown | droppedStale | dropUnknown => rfl
  | applied _ hmem hepoch | failed _ hmem hepoch | dropped hmem hepoch =>
      exact absurd hepoch (hstale _ _ hmem)

theorem Sound.steps_state_of_live_eq_nil (hsound : run.Sound) (hlive : run.live = [])
    {events : List Event} (hdelivered : ∀ event ∈ events, event.delivered?.isSome = true) :
    (run.steps config events).state = run.state := by
  induction events generalizing run with
  | nil => rfl
  | cons event events ih =>
      have hstate := (hsound.moves config event).state_eq_of_live_eq_nil hlive
        (hdelivered event (by simp))
      -- The flags stay, so there still is no ticket that counts.
      have hnext : (run.step config event).1.live = [] := by
        rw [← (hsound.step event).awaited?_eq_none_iff, hstate, hsound.awaited?_eq_none_iff]
        exact hlive
      rw [steps_cons, ih (hsound.step event) hnext fun later hlater =>
        hdelivered later (by simp [hlater]), hstate]

/-! ## Losing a page -/

/-- The loss of the ticket that counts takes its flag back. -/
theorem Sound.step_loss (hsound : run.Sound) (hmem : (label, ticket) ∈ run.waiting)
    (hepoch : ticket.request.epoch = run.state.epoch) (config : Config) (loss : Loss) :
    run.step config (loss.event label) =
      (⟨Controller.landed run.state ticket.fetch, run.others label⟩, loss.report) := by
  rw [Loss.event, step_delivery config _ (hsound.labels.ticket?_eq_some_iff.mpr hmem),
    loss.resolve_fate hepoch, loss.report_fate hepoch]

/-! ## Reloading -/

theorem Moves.opensAsking {action : Action} (hfirst : ticket.fetch = .first)
    (hmoves : run.Moves config (.act label action) (.waiting ticket) asked) :
    run.state.Opens asked.state (some ticket) := by
  cases hmoves with
  | openedAsking _ _ hopens => exact hopens
  | askedMore _ hasks =>
      rw [hasks.fetch] at hfirst
      cases hfirst

theorem Moves.mem_waiting_of_first (hmoves : run.Moves config event report next)
    (hcloses : event.opensEpoch = false) (hfirst : ticket.fetch = .first)
    (hnext : (label, ticket) ∈ next.waiting) : (label, ticket) ∈ run.waiting := by
  rcases hmoves.mem_waiting_cases hnext with hold | ⟨action, rfl, rfl⟩
  · exact hold
  · have hopens := hmoves.opensAsking hfirst
    have hepoch := hmoves.epoch
    rw [hopens.epoch, hcloses] at hepoch
    simp at hepoch

/-- A first page that still counts has counted and waited all the time, and the state has
stayed. -/
theorem Sound.steps_of_first (hsound : run.Sound) (hfirst : ticket.fetch = .first)
    (hepoch : ticket.request.epoch = run.state.epoch) {events : List Event}
    (hmem : (label, ticket) ∈ (run.steps config events).waiting)
    (hlast : ticket.request.epoch = (run.steps config events).state.epoch) :
    (label, ticket) ∈ run.waiting ∧ (run.steps config events).state = run.state := by
  -- From the end to the beginning: only a first page of its own epoch begins to wait.
  induction events generalizing run with
  | nil => exact ⟨hmem, rfl⟩
  | cons event events ih =>
      have hmoves := hsound.moves config event
      have hnext := hmoves.epoch
      have hcloses : event.opensEpoch = false := by
        rw [steps_cons, (hsound.step event).steps_epoch] at hlast
        cases hopens : event.opensEpoch with
        | false => rfl
        | true =>
            rw [hopens, if_pos rfl] at hnext
            omega
      have hsame : (run.step config event).1.state.epoch = run.state.epoch := by
        rw [hnext, hcloses]
        rfl
      obtain ⟨hwaits, hstate⟩ := ih (hsound.step event) (hepoch.trans hsame.symm) hmem hlast
      have hbefore := hmoves.mem_waiting_of_first hcloses hfirst hwaits
      exact ⟨hbefore,
        hstate.trans (hsound.state_eq_of_waits hmoves hbefore hepoch hwaits hcloses)⟩

/-! ## One answer to each action -/

theorem Moves.event_of_failure {failure : FetchFailure}
    (hmoves : run.Moves config event (.settled (.error failure)) next) :
    ∃ label, event = .reply label (.error failure) ∧ next.waiting = run.others label := by
  cases hmoves with
  | @failed label => exact ⟨label, rfl, rfl⟩

theorem Moves.report_of_not_waiting (hmoves : run.Moves config event report next)
    (hdelivered : event.delivered? = some label)
    (hnone : ∀ ticket, (label, ticket) ∉ run.waiting) : report = .unknownLabel := by
  cases hmoves with
  | opened | openedAsking | skippedMore | askedMore | cancelled | closed => cases hdelivered
  | replyUnknown | dropUnknown => rfl
  | applied _ hmem | failed _ hmem | superseded _ hmem | dropped hmem | droppedStale hmem =>
      obtain rfl := Option.some.inj hdelivered
      exact absurd hmem (hnone _)

/-- Under a label without a ticket nothing is reported before the next action under it. -/
theorem Sound.report_of_not_waiting (hsound : run.Sound)
    (hnone : ∀ ticket, (label, ticket) ∉ run.waiting) {events : List Event}
    (hact : ∀ action, .act label action ∉ events) :
    ∀ transition ∈ run.trace config events, transition.event.delivered? = some label →
      transition.report = .unknownLabel := by
  induction events generalizing run with
  | nil => simp [trace]
  | cons event events ih =>
      have hmoves := hsound.moves config event
      have hnext : ∀ ticket, (label, ticket) ∉ (run.step config event).1.waiting := by
        intro ticket hmem
        rcases hmoves.mem_waiting_cases hmem with hold | ⟨action, rfl, -⟩
        · exact hnone ticket hold
        · exact hact action (by simp)
      intro transition hmem hdelivered
      rw [trace, List.mem_cons] at hmem
      rcases hmem with rfl | hmem
      · exact hmoves.report_of_not_waiting hdelivered hnone
      · refine ih (hsound.step event) hnext (fun action hlater => ?_) transition hmem hdelivered
        exact hact action (by simp [hlater])

/-! ## Losses in every run -/

theorem Sound.steps (hsound : run.Sound) (config : Config) (events : List Event) :
    (run.steps config events).Sound :=
  steps_induction (fun _ event hsound => hsound.step event) hsound events

theorem Sound.moves_of_step (hsound : run.Sound) (hstep : run.step config event = (next, report)) :
    run.Moves config event report next ∧ next.Sound := by
  have hmoves := hsound.moves config event
  have hnext : (run.step config event).1.Sound := hsound.step event
  rw [hstep] at hmoves hnext
  exact ⟨hmoves, hnext⟩

theorem Moves.asksMore (hmoves : run.Moves config (.act label .more) (.waiting ticket) asked) :
    run.state.AsksMore asked.state ticket ∧ (label, ticket) ∈ asked.waiting := by
  cases hmoves with
  | openedAsking _ hopens => cases hopens
  | askedMore _ hasks => exact ⟨hasks, by simp⟩

/-- Losing a page of further rows leads back to the state that asked for it, and from there
the same page is asked for again. -/
theorem Sound.lose_further_rows (hsound : run.Sound)
    (hstep : run.step config (.act label .more) = (asked, .waiting ticket))
    {before behind : List Event} (loss : Loss)
    (hbefore : ∀ event ∈ before, ∃ other, event.delivered? = some other ∧ other ≠ label)
    (hbehind : ∀ event ∈ behind, event.delivered?.isSome = true) :
    let lost := (asked.steps config before).step config (loss.event label)
    lost.1.state = run.state ∧ lost.2 = loss.report ∧
      (lost.1.steps config behind).state = run.state ∧
      ∀ again, ((lost.1.steps config behind).step config (.act again .more)).2 =
        .waiting ticket := by
  intro lost
  obtain ⟨hmoves, hasked⟩ := hsound.moves_of_step hstep
  obtain ⟨hasks, hmem⟩ := hmoves.asksMore
  have hepoch : ticket.request.epoch = asked.state.epoch :=
    hasks.requestEpoch.trans hasks.epoch.symm
  obtain ⟨hwaits, hsame⟩ := hasked.steps_of_delivered hmem hepoch config hbefore
  have hloss : lost = (⟨run.state, (asked.steps config before).others label⟩, loss.report) := by
    rw [← hasks.landed_eq, ← hsame]
    exact (hasked.steps config before).step_loss hwaits (hepoch.trans (by rw [hsame])) config loss
  have hstate : lost.1.state = run.state := by rw [hloss]
  have hlost : lost.1.Sound := (hasked.steps config before).step _
  have hlive : lost.1.live = [] := by
    rw [← hlost.awaited?_eq_none_iff, hstate]
    exact hsound.awaited?_eq_none_of_asksMore hasks
  have hlast : (lost.1.steps config behind).state = run.state :=
    (hlost.steps_state_of_live_eq_nil hlive hbehind).trans hstate
  refine ⟨hstate, by rw [hloss], hlast, fun again => ?_⟩
  rw [step_act_waiting_iff, hlast]
  exact step_act_waiting_iff.mp (congrArg Prod.snd hstep)

/-- Losing a first page that counts leaves the state that asked for it, no longer loading. -/
theorem Sound.lose_first_page (hsound : run.Sound) {action : Action}
    (hstep : run.step config (.act label action) = (asked, .waiting ticket))
    (hfirst : ticket.fetch = .first) {between : List Event} (loss : Loss)
    (hmem : (label, ticket) ∈ (asked.steps config between).waiting)
    (hlast : ticket.request.epoch = (asked.steps config between).state.epoch) :
    let lost := (asked.steps config between).step config (loss.event label)
    lost.1.state = { asked.state with isLoading := false } ∧ lost.2 = loss.report := by
  intro lost
  obtain ⟨hmoves, hasked⟩ := hsound.moves_of_step hstep
  have hepoch := (hmoves.opensAsking hfirst).requestEpoch ticket rfl
  obtain ⟨-, hsame⟩ := hasked.steps_of_first hfirst hepoch hmem hlast
  have hloss : lost = _ := (hasked.steps config between).step_loss hmem hlast config loss
  rw [hloss, hsame, hfirst]
  exact ⟨rfl, rfl⟩

/-- A failure is reported to the one who waits for the page, and once: nothing else is
reported under the label before the next action. -/
theorem Sound.report_failure_once (hsound : run.Sound) {failure : FetchFailure}
    (hreport : (run.step config event).2 = .settled (.error failure)) :
    ∃ label, event = .reply label (.error failure) ∧
      ∀ later, (∀ action, .act label action ∉ later) →
        ∀ transition ∈ (run.step config event).1.trace config later,
          transition.event.delivered? = some label → transition.report = .unknownLabel := by
  have hmoves := hsound.moves config event
  rw [hreport] at hmoves
  obtain ⟨label, hevent, hwaiting⟩ := hmoves.event_of_failure
  refine ⟨label, hevent, fun later hact => ?_⟩
  refine (hsound.step event).report_of_not_waiting (fun ticket hmem => ?_) hact
  rw [hwaiting] at hmem
  exact (mem_others.mp hmem).2 rfl

/-- In every run a lost page leaves no trace.  Losing a page of further rows leads back to
the state that asked for it, whatever becomes of other tickets, and the next request is the
same.  Losing a first page that counts leaves the state that asked for it, no longer
loading.  A failure is reported once, and only actions ask for pages. -/
theorem lost_pages_leave_no_trace (config : Config) (events : List Event) :
    let run := (initial config).steps config events
    (∀ label asked ticket, run.step config (.act label .more) = (asked, .waiting ticket) →
      ∀ before behind loss,
        (∀ event ∈ before, ∃ other, event.delivered? = some other ∧ other ≠ label) →
        (∀ event ∈ behind, event.delivered?.isSome = true) →
        let lost := (asked.steps config before).step config (Loss.event label loss)
        lost.1.state = run.state ∧ lost.2 = loss.report ∧
          (lost.1.steps config behind).state = run.state ∧
          ∀ again, ((lost.1.steps config behind).step config (.act again .more)).2 =
            .waiting ticket) ∧
    (∀ label action asked ticket,
      run.step config (.act label action) = (asked, .waiting ticket) → ticket.fetch = .first →
      ∀ between loss, (label, ticket) ∈ (asked.steps config between).waiting →
        ticket.request.epoch = (asked.steps config between).state.epoch →
        let lost := (asked.steps config between).step config (Loss.event label loss)
        lost.1.state = { asked.state with isLoading := false } ∧ lost.2 = loss.report) ∧
    ∀ event,
      (∀ failure, (run.step config event).2 = .settled (.error failure) →
        ∃ label, event = .reply label (.error failure) ∧
          ∀ later, (∀ action, .act label action ∉ later) →
            ∀ transition ∈ (run.step config event).1.trace config later,
              transition.event.delivered? = some label →
                transition.report = .unknownLabel) ∧
      ∀ ticket, (run.step config event).2 = .waiting ticket →
        ∃ label action, event = .act label action := by
  intro run
  have hsound : run.Sound := sound_steps config events
  refine ⟨?_, ?_, fun event => ⟨?_, ?_⟩⟩
  · intro label asked ticket hstep before behind loss hbefore hbehind
    exact hsound.lose_further_rows hstep loss hbefore hbehind
  · intro label action asked ticket hstep hfirst between loss hmem hlast
    exact hsound.lose_first_page hstep hfirst loss hmem hlast
  · intro failure hreport
    exact hsound.report_failure_once hreport
  · intro ticket hreport
    have hmoves := hsound.moves config event
    rw [hreport] at hmoves
    exact hmoves.event_of_waiting

end Run

end TableBrowser.Paging
