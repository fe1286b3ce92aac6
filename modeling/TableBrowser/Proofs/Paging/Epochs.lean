import TableBrowser.Proofs.Paging.Bookkeeping

/-!
# Epochs of a run

Epochs only grow, and each first page is asked for in an epoch of its own.  The
epoch of a ticket therefore tells whether anything has happened since that makes
its reply obsolete.
-/

namespace TableBrowser.Paging

/-- Whether an event opens a new epoch. -/
def Event.opensEpoch : Event → Bool
  | .act _ action => action.opensEpoch
  | .cancel | .close => true
  | .reply _ _ | .drop _ => false

/-- The epoch under which a first page is asked for. -/
def Report.firstPageEpoch? : Report → Option Nat
  | .waiting ⟨.first, _, request⟩ => some request.epoch
  | _ => none

namespace Run

variable {config : Config} {run next : Run} {event : Event} {report : Report}

theorem Moves.epoch (hmoves : run.Moves config event report next) :
    next.state.epoch = run.state.epoch + if event.opensEpoch then 1 else 0 := by
  cases hmoves with
  | opened label hopens hstate | openedAsking label hopens hstate =>
      rw [Event.opensEpoch, hopens]
      exact hstate.epoch
  | closed hstate => exact hstate.epoch
  | askedMore label hasks => exact hasks.epoch
  | applied page _ _ =>
      exact (Controller.merge_epoch _ page _).trans (Controller.landed_epoch _ _)
  | failed _ _ _ | dropped _ _ => exact Controller.landed_epoch _ _
  | skippedMore | superseded | replyUnknown | droppedStale | dropUnknown | cancelled => rfl

theorem Moves.firstPageEpoch (hmoves : run.Moves config event report next) {epoch : Nat}
    (hreport : report.firstPageEpoch? = some epoch) :
    epoch = next.state.epoch ∧ next.state.epoch = run.state.epoch + 1 := by
  cases hmoves with
  | @openedAsking _ _ ticket label _ hopens =>
      have hfetch := hopens.fetch ticket rfl
      obtain ⟨fetch, table, request⟩ := ticket
      subst hfetch
      have hepoch : request.epoch = epoch := by simpa [Report.firstPageEpoch?] using hreport
      exact ⟨hepoch ▸ hopens.requestEpoch _ rfl, hopens.epoch⟩
  | @askedMore _ ticket label hasks =>
      have hfetch := hasks.fetch
      obtain ⟨fetch, table, request⟩ := ticket
      subst hfetch
      simp [Report.firstPageEpoch?] at hreport
  | _ => simp [Report.firstPageEpoch?] at hreport

theorem Sound.steps_epoch (hsound : run.Sound) (config : Config) (events : List Event) :
    (run.steps config events).state.epoch =
      run.state.epoch + events.countP Event.opensEpoch := by
  induction events generalizing run with
  | nil => rfl
  | cons event events ih =>
      rw [steps_cons, ih (hsound.step event), (hsound.moves config event).epoch,
        List.countP_cons]
      omega

/-- The epochs under which first pages are asked for, in the order of asking. -/
def firstPageEpochs (config : Config) (run : Run) (events : List Event) : List Nat :=
  (run.trace config events).filterMap fun transition => transition.report.firstPageEpoch?

/-- First pages are asked for under epochs that grow and lie behind the epoch at
the beginning of the run. -/
theorem Sound.firstPageEpochs_increase (hsound : run.Sound) (config : Config)
    (events : List Event) :
    (run.firstPageEpochs config events).Pairwise (· < ·) ∧
      ∀ epoch ∈ run.firstPageEpochs config events, run.state.epoch < epoch := by
  induction events generalizing run with
  | nil => simp [firstPageEpochs, trace]
  | cons event events ih =>
      have hmoves := hsound.moves config event
      obtain ⟨hpairwise, hlater⟩ := ih (hsound.step event)
      have hle : run.state.epoch ≤ (run.step config event).1.state.epoch := by
        rw [hmoves.epoch]
        exact Nat.le_add_right _ _
      cases hreport : (run.step config event).2.firstPageEpoch? with
      | none =>
          have hcons : run.firstPageEpochs config (event :: events) =
              (run.step config event).1.firstPageEpochs config events := by
            simp [firstPageEpochs, trace, hreport]
          rw [hcons]
          exact ⟨hpairwise, fun epoch hepoch => Nat.lt_of_le_of_lt hle (hlater epoch hepoch)⟩
      | some first =>
          -- The epoch of the request is that of the next run, behind which all later ones lie.
          have hcons : run.firstPageEpochs config (event :: events) =
              first :: (run.step config event).1.firstPageEpochs config events := by
            simp [firstPageEpochs, trace, hreport]
          obtain ⟨hfirst, hnext⟩ := hmoves.firstPageEpoch hreport
          rw [hcons, List.pairwise_cons]
          refine ⟨⟨fun epoch hepoch => hfirst ▸ hlater epoch hepoch, hpairwise⟩, ?_⟩
          intro epoch hepoch
          rcases List.mem_cons.mp hepoch with rfl | hepoch
          · omega
          · exact Nat.lt_of_le_of_lt hle (hlater epoch hepoch)

/-- The reply to a waiting ticket is taken exactly if the ticket is of the current
epoch. -/
theorem Sound.moves_reply_iff (hsound : run.Sound) {label : Text} {ticket : Ticket}
    {reply : Except FetchFailure Page}
    (hmoves : run.Moves config (.reply label reply) report next)
    (hmem : (label, ticket) ∈ run.waiting) :
    (report = .settled (reply.map fun page => .applied page.rows.length) ↔
        ticket.request.epoch = run.state.epoch) ∧
      (ticket.request.epoch = run.state.epoch → ∀ page, reply = .ok page →
        next.state.rows = run.state.rows ++ page.rows) ∧
      (ticket.request.epoch ≠ run.state.epoch →
        report = .settled (.ok .superseded) ∧ next.state = run.state) := by
  cases hmoves with
  | applied page hother hepoch =>
      obtain rfl := hsound.labels.ticket_unique hmem hother
      refine ⟨⟨fun _ => hepoch, fun _ => rfl⟩, ?_, fun hne => absurd hepoch hne⟩
      rintro - page ⟨⟩
      exact hsound.merge_rows (mem_live.mpr ⟨⟨label, hmem⟩, hepoch⟩) config page
  | failed failure hother hepoch =>
      obtain rfl := hsound.labels.ticket_unique hmem hother
      refine ⟨⟨fun _ => hepoch, fun _ => rfl⟩, ?_, fun hne => absurd hepoch hne⟩
      rintro - page ⟨⟩
  | superseded reply hother hepoch =>
      obtain rfl := hsound.labels.ticket_unique hmem hother
      refine ⟨⟨?_, fun heq => absurd heq hepoch⟩, fun heq => absurd heq hepoch,
        fun _ => ⟨rfl, rfl⟩⟩
      intro hreport
      cases reply <;> simp [Except.map] at hreport
  | replyUnknown reply hnone =>
      rw [hsound.labels.ticket?_eq_some_iff.mpr hmem] at hnone
      contradiction

/-- In every run the epoch counts the events that open one, no two first pages are
asked for under one epoch, and the reply to a waiting ticket is taken exactly if
the ticket is of the current epoch and otherwise changes nothing. -/
theorem epoch_decides_replies (config : Config) (events : List Event) :
    (∀ transition ∈ (initial config).trace config events,
        transition.after.state.epoch =
          transition.before.state.epoch + if transition.event.opensEpoch then 1 else 0) ∧
      ((initial config).steps config events).state.epoch =
        events.countP Event.opensEpoch ∧
      ((initial config).firstPageEpochs config events).Nodup ∧
      ∀ transition ∈ (initial config).trace config events, ∀ label ticket reply,
        transition.event = .reply label reply → (label, ticket) ∈ transition.before.waiting →
          (transition.report = .settled (reply.map fun page => .applied page.rows.length) ↔
            ticket.request.epoch = transition.before.state.epoch) ∧
          (ticket.request.epoch = transition.before.state.epoch → ∀ page, reply = .ok page →
            transition.after.state.rows = transition.before.state.rows ++ page.rows) ∧
          (ticket.request.epoch ≠ transition.before.state.epoch →
            transition.report = .settled (.ok .superseded) ∧
              transition.after.state = transition.before.state) := by
  have hmoves : ∀ transition ∈ (initial config).trace config events,
      transition.before.Sound ∧
        transition.before.Moves config transition.event transition.report
          transition.after := by
    intro transition hmem
    obtain ⟨⟨earlier, hbefore⟩, hstep⟩ := step_of_mem_trace hmem
    have hsound : transition.before.Sound := hbefore ▸ sound_steps config earlier
    have hmove := hsound.moves config transition.event
    rw [hstep] at hmove
    exact ⟨hsound, hmove⟩
  have hinitial := sound_initial config
  refine ⟨?_, ?_, ?_, ?_⟩
  · intro transition hmem
    exact (hmoves transition hmem).2.epoch
  · rw [hinitial.steps_epoch]
    exact Nat.zero_add _
  · exact (hinitial.firstPageEpochs_increase config events).1.imp Nat.ne_of_lt
  · intro transition hmem label ticket reply hevent hticket
    obtain ⟨hsound, hmove⟩ := hmoves transition hmem
    rw [hevent] at hmove
    exact hsound.moves_reply_iff hmove hticket

end Run

end TableBrowser.Paging
