import Mathlib.Data.List.Forall2
import TableBrowser.Proofs.Paging.Epochs

/-!
# A selection or a close erases the past

A controller never looks at an epoch except to compare it with that of a ticket.
So raising all epochs by a constant changes nothing that is seen, and tickets of
epochs that are over may as well not wait at all.  From these two facts a run that
selects a table goes on like the run of a new controller that selects it, and a
run that closes goes on like a new controller.
-/

namespace TableBrowser.Paging

/-! ## Epochs raised by a constant -/

def State.shift (amount : Nat) (state : State) : State :=
  { state with epoch := state.epoch + amount }

@[simp]
theorem State.shift_table? (amount : Nat) (state : State) :
    (state.shift amount).table? = state.table? := rfl

@[simp]
theorem State.shift_hasMore (amount : Nat) (state : State) :
    (state.shift amount).hasMore = state.hasMore := rfl

@[simp]
theorem State.shift_isLoadingMore (amount : Nat) (state : State) :
    (state.shift amount).isLoadingMore = state.isLoadingMore := rfl

def Ticket.shift (amount : Nat) (ticket : Ticket) : Ticket :=
  { ticket with request := { ticket.request with epoch := ticket.request.epoch + amount } }

def Report.shift (amount : Nat) : Report → Report
  | .waiting ticket => .waiting (ticket.shift amount)
  | .cancelled epoch => .cancelled (epoch + amount)
  | report => report

def Run.shift (amount : Nat) (run : Run) : Run :=
  ⟨run.state.shift amount, run.waiting.map fun entry => (entry.1, entry.2.shift amount)⟩

namespace Controller

variable {config : Config}

theorem reload_shift (config : Config) (amount : Nat) (state : State) :
    reload config (state.shift amount) =
      ((reload config state).1.shift amount, (reload config state).2.map (·.shift amount)) := by
  cases htable : state.table? <;>
    simp [reload, State.shift, State.clearRows, Ticket.shift, requestAt, htable,
      Nat.add_right_comm]

theorem loadMore_shift (config : Config) (amount : Nat) (state : State) :
    loadMore config (state.shift amount) =
      ((loadMore config state).1.shift amount,
        (loadMore config state).2.map (·.shift amount)) := by
  cases htable : state.table? with
  | none => simp only [loadMore, State.shift_table?, htable, Option.map_none]
  | some table =>
      simp only [loadMore, State.shift_table?, State.shift_hasMore, State.shift_isLoadingMore,
        htable]
      split <;> rfl

theorem start_shift (config : Config) (amount : Nat) (state : State) (action : Action) :
    start config (state.shift amount) action =
      ((start config state action).1.shift amount,
        (start config state action).2.map (·.shift amount)) := by
  cases action with
  | select table =>
      exact reload_shift config amount
        { State.idle config.startingSize state.epoch with table? := some table }
  | sort column direction =>
      exact reload_shift config amount { state with sort? := some ⟨column, direction⟩ }
  | clearSort => exact reload_shift config amount { state with sort? := none }
  | filter clause => exact reload_shift config amount { state with clause? := some clause }
  | clearFilter => exact reload_shift config amount { state with clause? := none }
  | more => exact loadMore_shift config amount state

theorem landed_shift (amount : Nat) (state : State) (fetch : Fetch) :
    landed (state.shift amount) fetch = (landed state fetch).shift amount := by
  cases fetch <;> rfl

theorem merge_shift (config : Config) (amount : Nat) (state : State) (page : Page)
    (fetch : Fetch) :
    merge config (state.shift amount) page fetch =
      (merge config state page fetch).shift amount := by
  cases fetch <;> rfl

theorem epoch_shift_ne_iff (amount : Nat) (state : State) (ticket : Ticket) :
    (state.shift amount).epoch ≠ (ticket.shift amount).request.epoch ↔
      state.epoch ≠ ticket.request.epoch := by
  simp [State.shift, Ticket.shift]

theorem settle_shift (config : Config) (amount : Nat) (state : State) (ticket : Ticket)
    (reply : Except FetchFailure Page) :
    settle config (state.shift amount) (ticket.shift amount) reply =
      ((settle config state ticket reply).1.shift amount,
        (settle config state ticket reply).2) := by
  have hlanded : landed (state.shift amount) (ticket.shift amount).fetch =
      (landed state ticket.fetch).shift amount := landed_shift amount state ticket.fetch
  simp only [settle, epoch_shift_ne_iff, hlanded]
  split
  · rfl
  · cases reply with
    | ok page => exact Prod.ext (merge_shift config amount _ page ticket.fetch) rfl
    | error failure => rfl

theorem abandon_shift (amount : Nat) (state : State) (ticket : Ticket) :
    abandon (state.shift amount) (ticket.shift amount) =
      (abandon state ticket).shift amount := by
  simp only [abandon, epoch_shift_ne_iff]
  split
  · rfl
  · exact landed_shift amount state ticket.fetch

end Controller

namespace Run

variable {config : Config} {run fresh : Run} {label : Text} {event : Event}

theorem ticket?_shift (amount : Nat) (run : Run) (label : Text) :
    (run.shift amount).ticket? label = (run.ticket? label).map (·.shift amount) := by
  simp only [ticket?, shift, List.find?_map, Option.map_map]
  rfl

theorem others_shift (amount : Nat) (run : Run) (label : Text) :
    (run.shift amount).others label =
      (run.others label).map fun entry => (entry.1, entry.2.shift amount) := by
  simp only [others, shift, List.filter_map]
  rfl

theorem abandon_shift (amount : Nat) (run : Run) (label : Text) :
    (run.shift amount).abandon label = (run.abandon label).shift amount := by
  rw [abandon, abandon, ticket?_shift]
  cases run.ticket? label with
  | none => rfl
  | some ticket =>
      rw [others_shift]
      exact congrArg (Run.mk · _) (Controller.abandon_shift amount run.state ticket)

theorem step_act_of_ticket {action : Action} {after : State} {ticket : Ticket}
    (hstart : Controller.start config run.state action = (after, some ticket)) :
    run.step config (.act label action) =
      (⟨(abandon ⟨after, run.waiting⟩ label).state,
        (abandon ⟨after, run.waiting⟩ label).waiting ++ [(label, ticket)]⟩,
        .waiting ticket) := by
  simp only [step, hstart]

/-- Raised epochs show in a step only as raised epochs. -/
theorem step_shift (config : Config) (amount : Nat) (run : Run) (event : Event) :
    (run.shift amount).step config event =
      ((run.step config event).1.shift amount, (run.step config event).2.shift amount) := by
  cases event with
  | act label action =>
      rcases hrun : Controller.start config run.state action with ⟨after, _ | ticket⟩
      · have hstart : Controller.start config (run.shift amount).state action =
            (after.shift amount, none) :=
          (Controller.start_shift config amount run.state action).trans (by rw [hrun]; rfl)
        rw [step_act_of_none hrun, step_act_of_none hstart]
        rfl
      · have hstart : Controller.start config (run.shift amount).state action =
            (after.shift amount, some (ticket.shift amount)) :=
          (Controller.start_shift config amount run.state action).trans (by rw [hrun]; rfl)
        have habandon : abandon ⟨after.shift amount, (run.shift amount).waiting⟩ label =
            (abandon ⟨after, run.waiting⟩ label).shift amount :=
          abandon_shift amount ⟨after, run.waiting⟩ label
        rw [step_act_of_ticket hrun, step_act_of_ticket hstart, habandon]
        simp only [shift, List.map_append]
        rfl
  | reply label reply =>
      cases hticket : run.ticket? label with
      | none =>
          simp only [step, ticket?_shift, hticket, Option.map_none]
          rfl
      | some ticket =>
          have hsettle := Controller.settle_shift config amount run.state ticket reply
          simp only [step, ticket?_shift, hticket, Option.map_some, others_shift]
          rw [show (run.shift amount).state = run.state.shift amount from rfl, hsettle]
          rfl
  | drop label =>
      cases hticket : run.ticket? label with
      | none =>
          simp only [step, ticket?_shift, hticket, Option.map_none]
          rfl
      | some ticket =>
          simp only [step, ticket?_shift, hticket, Option.map_some, abandon_shift]
          rfl
  | cancel => simp [step, shift, Controller.cancel, State.shift, Report.shift, Nat.add_right_comm]
  | close =>
      simp [step, shift, Controller.close, State.idle, State.shift, Report.shift,
        Nat.add_right_comm]

/-! ## Tickets of epochs that are over -/

/-- The run without the tickets of the epochs before `floor`. -/
def since (floor : Nat) (run : Run) : Run :=
  ⟨run.state, run.waiting.filter fun entry => floor ≤ entry.2.request.epoch⟩

/-- The waiting ticket, with its label, whose reply the event brings or which the
event gives up. -/
def answered? (run : Run) : Event → Option (Text × Ticket)
  | .reply label _ | .drop label => (run.ticket? label).map fun ticket => (label, ticket)
  | .act _ _ | .cancel | .close => none

variable {floor : Nat}

theorem LabelsDistinct.since (hlabels : run.LabelsDistinct) (floor : Nat) :
    (run.since floor).LabelsDistinct :=
  List.Nodup.sublist (List.Sublist.map _ List.filter_sublist) hlabels

theorem LabelsDistinct.ticket?_since (hlabels : run.LabelsDistinct) (floor : Nat)
    (label : Text) :
    (run.since floor).ticket? label =
      (run.ticket? label).filter fun ticket => floor ≤ ticket.request.epoch := by
  ext ticket
  rw [(hlabels.since floor).ticket?_eq_some_iff, Option.filter_eq_some_iff,
    hlabels.ticket?_eq_some_iff, Run.since, List.mem_filter]

theorem LabelsDistinct.ticket?_since_of_le {ticket : Ticket} (hlabels : run.LabelsDistinct)
    (hticket : run.ticket? label = some ticket) (hle : floor ≤ ticket.request.epoch) :
    (run.since floor).ticket? label = some ticket := by
  rw [hlabels.ticket?_since, hticket]
  exact Option.filter_some_pos (decide_eq_true hle)

theorem LabelsDistinct.ticket?_since_of_none (hlabels : run.LabelsDistinct)
    (hnone : run.ticket? label = none) (floor : Nat) :
    (run.since floor).ticket? label = none := by
  rw [hlabels.ticket?_since, hnone, Option.filter_none]

theorem others_since (floor : Nat) (run : Run) (label : Text) :
    (run.since floor).others label =
      (run.others label).filter fun entry => floor ≤ entry.2.request.epoch := by
  simp only [others, since, List.filter_filter, Bool.and_comm]

/-- A ticket is given out under the epoch of the state behind it, in which none of
the waiting tickets counts. -/
theorem Sound.start_ticket {action : Action} {after : State} {ticket : Ticket}
    (hsound : run.Sound)
    (hstart : Controller.start config run.state action = (after, some ticket)) :
    (∀ entry ∈ run.waiting, entry.2.request.epoch ≠ after.epoch) ∧
      ticket.request.epoch = after.epoch := by
  cases hopens : action.opensEpoch with
  | true =>
      have hstate := Controller.start_opens config run.state hopens
      rw [hstart] at hstate
      exact ⟨hsound.ne_epoch_of_opens hstate, hstate.requestEpoch _ rfl⟩
  | false =>
      obtain rfl : action = .more := by cases action <;> first | rfl | contradiction
      rcases Controller.start_more config run.state with
        hsame | ⟨after', ticket', hmore, hasks⟩
      · rw [hsame] at hstart
        cases hstart
      · rw [hmore] at hstart
        cases hstart
        exact ⟨hsound.ne_epoch_of_asksMore hasks, hasks.requestEpoch.trans hasks.epoch.symm⟩

/-- An event that is not about a ticket of an earlier epoch does the same without
the tickets of earlier epochs. -/
theorem Sound.step_since (hsound : run.Sound)
    (hfloor : floor ≤ (run.step config event).1.state.epoch)
    (hrecent : ∀ entry ∈ run.answered? event, floor ≤ entry.2.request.epoch) :
    (run.since floor).step config event =
      ((run.step config event).1.since floor, (run.step config event).2) := by
  cases event with
  | act label action =>
      rcases hstart : Controller.start config run.state action with ⟨after, _ | ticket⟩
      · have hsince : Controller.start config (run.since floor).state action =
            (after, none) := hstart
        rw [step_act_of_none hstart, step_act_of_none hsince]
        rfl
      · have hsince : Controller.start config (run.since floor).state action =
            (after, some ticket) := hstart
        obtain ⟨hstale, hepoch⟩ := hsound.start_ticket hstart
        rw [step_act_of_some hstart hstale] at hfloor ⊢
        have hnew : floor ≤ ticket.request.epoch := hepoch ▸ hfloor
        rw [step_act_of_some hsince
          fun entry hentry => hstale entry (List.mem_filter.mp hentry).1, others_since]
        simp [Run.since, List.filter_append, hnew]
  | reply label reply =>
      cases hticket : run.ticket? label with
      | none => simp only [Run.step, hticket, hsound.labels.ticket?_since_of_none hticket]
      | some ticket =>
          have hkept : floor ≤ ticket.request.epoch :=
            hrecent (label, ticket) (by simp [answered?, hticket])
          simp only [Run.step, hticket, hsound.labels.ticket?_since_of_le hticket hkept,
            others_since]
          rfl
  | drop label =>
      cases hticket : run.ticket? label with
      | none => simp only [Run.step, hticket, hsound.labels.ticket?_since_of_none hticket]
      | some ticket =>
          have hkept : floor ≤ ticket.request.epoch :=
            hrecent (label, ticket) (by simp [answered?, hticket])
          simp only [Run.step, Run.abandon, hticket,
            hsound.labels.ticket?_since_of_le hticket hkept, others_since]
          rfl
  | cancel | close => rfl

theorem mem_waiting_of_answered? {entry : Text × Ticket}
    (hentry : run.answered? event = some entry) : entry ∈ run.waiting := by
  cases event with
  | act | cancel | close => cases hentry
  | reply label _ | drop label =>
      obtain ⟨ticket, hticket, rfl⟩ := Option.map_eq_some_iff.mp hentry
      exact mem_waiting_of_ticket? hticket

/-- An event about a ticket of an earlier epoch does nothing but take the ticket
away. -/
theorem step_of_answered_stale (config : Config) {entry : Text × Ticket}
    (hentry : run.answered? event = some entry)
    (hstale : entry.2.request.epoch ≠ run.state.epoch) :
    (run.step config event).1 = ⟨run.state, run.others entry.1⟩ ∧
      ((run.step config event).2 = .settled (.ok .superseded) ∨
        (run.step config event).2 = .dropped) := by
  cases event with
  | act | cancel | close => cases hentry
  | reply label reply =>
      obtain ⟨ticket, hticket, rfl⟩ := Option.map_eq_some_iff.mp hentry
      simp only [step, hticket, Controller.settle_of_ne hstale]
      exact ⟨trivial, .inl trivial⟩
  | drop label =>
      obtain ⟨ticket, hticket, rfl⟩ := Option.map_eq_some_iff.mp hentry
      simp only [step, abandon, hticket, Controller.abandon_of_ne hstale]
      exact ⟨trivial, .inr trivial⟩

/-- Taking a ticket of an earlier epoch away leaves those of the later ones. -/
theorem LabelsDistinct.since_others {entry : Text × Ticket} (hlabels : run.LabelsDistinct)
    (hentry : entry ∈ run.waiting) (hlt : entry.2.request.epoch < floor) :
    Run.since floor ⟨run.state, run.others entry.1⟩ = run.since floor := by
  simp only [Run.since, Run.others, List.filter_filter, Run.mk.injEq, true_and]
  apply List.filter_congr
  intro other hother
  by_cases hlabel : other.1 = entry.1
  · have hsame : other.2 = entry.2 :=
      hlabels.ticket_unique hentry (hlabel ▸ hother)
    have hnot : ¬ floor ≤ other.2.request.epoch := by rw [hsame]; omega
    simp [hnot]
  · simp [hlabel]

theorem Moves.mem_waiting {next : Run} {report : Report}
    (hmoves : run.Moves config event report next) {entry : Text × Ticket}
    (hentry : entry ∈ next.waiting) :
    entry ∈ run.waiting ∨ entry.2.request.epoch = next.state.epoch := by
  rcases hmoves.mem_waiting_cases hentry with hold | ⟨action, -, rfl⟩
  · exact .inl hold
  · exact .inr hmoves.requestEpoch_of_waiting

end Run

/-! ## The run of a new controller -/

/-- Whether the event is about one of these tickets. -/
def Transition.concerns (tickets : List (Text × Ticket)) (transition : Transition) : Bool :=
  (transition.before.answered? transition.event).any fun entry => entry ∈ tickets

/-- The same event reports the same and leads to the same state, with the epochs
of `fresh` raised by a constant. -/
structure Transition.Echoes (amount : Nat) (transition fresh : Transition) : Prop where
  event : transition.event = fresh.event
  report : transition.report = fresh.report.shift amount
  state : transition.after.state = fresh.after.state.shift amount

/-- What happens to the old tickets is not seen, and the other transitions are
those that the same events have from `fresh` on, with raised epochs. -/
structure RunsAfresh (config : Config) (old : List (Text × Ticket)) (amount : Nat)
    (fresh : Run) (transitions : List Transition) : Prop where
  echoes :
    let others := transitions.filter fun transition => !transition.concerns old
    List.Forall₂ (Transition.Echoes amount) others
      (fresh.trace config (others.map (·.event)))
  unseen : ∀ transition ∈ transitions, transition.concerns old = true →
    transition.after.state = transition.before.state ∧
      (transition.report = .settled (.ok .superseded) ∨ transition.report = .dropped)

namespace Run

variable {config : Config} {run fresh : Run} {event : Event}
variable {old : List (Text × Ticket)} {floor amount : Nat}

/-- Apart from old tickets of epochs before `floor`, the run is `fresh` with raised
epochs. -/
structure Follows (old : List (Text × Ticket)) (floor amount : Nat) (run fresh : Run) :
    Prop where
  sound : run.Sound
  floor_le : floor ≤ run.state.epoch
  old_lt : ∀ entry ∈ old, entry.2.request.epoch < floor
  mem_old : ∀ entry ∈ run.waiting, entry.2.request.epoch < floor → entry ∈ old
  since : run.since floor = fresh.shift amount

theorem Follows.concerns_iff (hfollows : run.Follows old floor amount fresh)
    {report : Report} {next : Run} :
    (Transition.mk run event report next).concerns old = true ↔
      ∃ entry, run.answered? event = some entry ∧ entry.2.request.epoch < floor := by
  simp only [Transition.concerns, Option.any_eq_true, decide_eq_true_eq]
  constructor
  · rintro ⟨entry, hentry, hold⟩
    exact ⟨entry, hentry, hfollows.old_lt entry hold⟩
  · rintro ⟨entry, hentry, hlt⟩
    exact ⟨entry, hentry, hfollows.mem_old entry (mem_waiting_of_answered? hentry) hlt⟩

theorem Follows.floor_le_step (hfollows : run.Follows old floor amount fresh)
    (config : Config) (event : Event) :
    floor ≤ (run.step config event).1.state.epoch := by
  rw [(hfollows.sound.moves config event).epoch]
  exact Nat.le_add_right_of_le hfollows.floor_le

theorem Follows.mem_old_step (hfollows : run.Follows old floor amount fresh) :
    ∀ entry ∈ (run.step config event).1.waiting, entry.2.request.epoch < floor →
      entry ∈ old := by
  intro entry hentry hlt
  have hfloor := hfollows.floor_le_step config event
  rcases (hfollows.sound.moves config event).mem_waiting hentry with hmem | hepoch
  · exact hfollows.mem_old entry hmem hlt
  · omega

/-- An event about no old ticket is a step on both sides. -/
theorem Follows.step (hfollows : run.Follows old floor amount fresh) (config : Config)
    (hrecent : ∀ entry ∈ run.answered? event, floor ≤ entry.2.request.epoch) :
    (run.step config event).1.Follows old floor amount (fresh.step config event).1 ∧
      (run.step config event).2 = (fresh.step config event).2.shift amount := by
  have hsteps : ((run.step config event).1.since floor, (run.step config event).2) =
      ((fresh.step config event).1.shift amount,
        (fresh.step config event).2.shift amount) := by
    rw [← hfollows.sound.step_since (hfollows.floor_le_step config event) hrecent,
      hfollows.since, step_shift]
  rw [Prod.mk.injEq] at hsteps
  exact ⟨⟨hfollows.sound.step event, hfollows.floor_le_step config event, hfollows.old_lt,
    hfollows.mem_old_step, hsteps.1⟩, hsteps.2⟩

/-- An event about an old ticket is a step on one side only. -/
theorem Follows.step_left (hfollows : run.Follows old floor amount fresh)
    {entry : Text × Ticket} (hentry : run.answered? event = some entry)
    (hlt : entry.2.request.epoch < floor) :
    (run.step config event).1.Follows old floor amount fresh := by
  have hfloor := hfollows.floor_le
  refine ⟨hfollows.sound.step event, hfollows.floor_le_step config event, hfollows.old_lt,
    hfollows.mem_old_step, ?_⟩
  have hne : entry.2.request.epoch ≠ run.state.epoch := by omega
  rw [(step_of_answered_stale config hentry hne).1, ← hfollows.since]
  exact hfollows.sound.labels.since_others (mem_waiting_of_answered? hentry) hlt

theorem Sound.since_next_epoch (hsound : run.Sound) :
    run.since (run.state.epoch + 1) = ⟨run.state, []⟩ := by
  rw [Run.since, List.filter_eq_nil_iff.mpr]
  intro entry hentry
  have hle := hsound.epochs entry hentry
  simpa using Nat.lt_succ_of_le hle

/-- What waits when a new epoch opens is old from then on. -/
theorem Sound.follows_step (hsound : run.Sound)
    (hepoch : (run.step config event).1.state.epoch = run.state.epoch + 1)
    (hsince : (run.step config event).1.since (run.state.epoch + 1) = fresh.shift amount) :
    (run.step config event).1.Follows run.waiting (run.state.epoch + 1) amount fresh := by
  refine ⟨hsound.step event, Nat.le_of_eq hepoch.symm, ?_, ?_, hsince⟩
  · intro entry hentry
    exact Nat.lt_succ_of_le (hsound.epochs entry hentry)
  · intro entry hentry hlt
    rcases (hsound.moves config event).mem_waiting hentry with hmem | hnew
    · exact hmem
    · omega

theorem Sound.follows_select (hsound : run.Sound) (config : Config) (label table : Text) :
    let event := Event.act label (.select table)
    (run.step config event).1.Follows run.waiting (run.state.epoch + 1) run.state.epoch
        ((initial config).step config event).1 ∧
      (run.step config event).2 =
        ((initial config).step config event).2.shift run.state.epoch := by
  intro event
  have hepoch : (run.step config event).1.state.epoch = run.state.epoch + 1 :=
    (hsound.moves config event).epoch
  -- Of the state before it, a selection reads the epoch only.
  have hfresh : Run.step config ⟨run.state, []⟩ event =
      Run.step config ((initial config).shift run.state.epoch) event := by
    simp [event, Run.step, Controller.start, shift, State.shift, initial, Controller.initial,
      State.idle]
  have hsteps : ((run.step config event).1.since (run.state.epoch + 1),
      (run.step config event).2) =
      (((initial config).step config event).1.shift run.state.epoch,
        ((initial config).step config event).2.shift run.state.epoch) := by
    rw [← hsound.step_since (Nat.le_of_eq hepoch.symm) (by simp [event, answered?]),
      hsound.since_next_epoch, hfresh, step_shift]
  rw [Prod.mk.injEq] at hsteps
  exact ⟨hsound.follows_step hepoch hsteps.1, hsteps.2⟩

theorem Sound.follows_close (hsound : run.Sound) (config : Config) :
    (run.step config .close).1.Follows run.waiting (run.state.epoch + 1)
      (run.state.epoch + 1) (initial config) := by
  apply hsound.follows_step rfl
  have hempty := congrArg Run.waiting hsound.since_next_epoch
  simp only [Run.since] at hempty
  simp only [Run.step, Run.since, hempty]
  simp [shift, State.shift, initial, Controller.initial, Controller.close, State.idle]

end Run

namespace RunsAfresh

variable {config : Config} {old : List (Text × Ticket)} {amount : Nat} {fresh run next : Run}
variable {event : Event} {report : Report} {transitions : List Transition}

theorem cons_other
    (hother : (Transition.mk run event report next).concerns old = false)
    (hreport : report = (fresh.step config event).2.shift amount)
    (hstate : next.state = (fresh.step config event).1.state.shift amount)
    (hrest : RunsAfresh config old amount (fresh.step config event).1 transitions) :
    RunsAfresh config old amount fresh (⟨run, event, report, next⟩ :: transitions) where
  echoes := by
    simp only [List.filter_cons, hother, Bool.not_false, if_true, List.map_cons, Run.trace]
    exact .cons ⟨rfl, hreport, hstate⟩ hrest.echoes
  unseen := by
    rintro transition hmem hold
    rcases List.mem_cons.mp hmem with rfl | hmem
    · rw [hother] at hold
      contradiction
    · exact hrest.unseen transition hmem hold

theorem cons_old
    (hold : (Transition.mk run event report next).concerns old = true)
    (hstate : next.state = run.state)
    (hreport : report = .settled (.ok .superseded) ∨ report = .dropped)
    (hrest : RunsAfresh config old amount fresh transitions) :
    RunsAfresh config old amount fresh (⟨run, event, report, next⟩ :: transitions) where
  echoes := by
    simp only [List.filter_cons, hold, Bool.not_true, Bool.false_eq_true, if_false]
    exact hrest.echoes
  unseen := by
    rintro transition hmem hconcerns
    rcases List.mem_cons.mp hmem with rfl | hmem
    · exact ⟨hstate, hreport⟩
    · exact hrest.unseen transition hmem hconcerns

end RunsAfresh

namespace Run

variable {config : Config} {run fresh : Run}
variable {old : List (Text × Ticket)} {floor amount : Nat}

/-- A run that follows `fresh` keeps following it. -/
theorem Follows.runsAfresh (hfollows : run.Follows old floor amount fresh) (config : Config)
    (events : List Event) :
    RunsAfresh config old amount fresh (run.trace config events) := by
  induction events generalizing run fresh with
  | nil => exact ⟨.nil, by simp [trace]⟩
  | cons event events ih =>
      rw [trace]
      cases hconcerns : (Transition.mk run event (run.step config event).2
          (run.step config event).1).concerns old with
      | false =>
          have hrecent : ∀ entry ∈ run.answered? event, floor ≤ entry.2.request.epoch := by
            intro entry hentry
            by_contra hlt
            rw [hfollows.concerns_iff.mpr ⟨entry, hentry, Nat.lt_of_not_le hlt⟩] at hconcerns
            contradiction
          obtain ⟨hnext, hreport⟩ := hfollows.step config hrecent
          exact .cons_other hconcerns hreport (congrArg Run.state hnext.since) (ih hnext)
      | true =>
          obtain ⟨entry, hentry, hlt⟩ := hfollows.concerns_iff.mp hconcerns
          have hfloor := hfollows.floor_le
          have hne : entry.2.request.epoch ≠ run.state.epoch := by omega
          obtain ⟨hstep, hreport⟩ := step_of_answered_stale config hentry hne
          exact .cons_old hconcerns (by rw [hstep]) hreport (ih (hfollows.step_left hentry hlt))

/-- From the selection of a table on, every run is the run of a new controller that
selects it, and from a close on the run of a new controller, in raised epochs.
What becomes of the tickets that were waiting before is not seen. -/
theorem select_and_close_erase_past (config : Config) (earlier : List Event) :
    let run := (initial config).steps config earlier
    (∀ label table continuation,
      RunsAfresh config run.waiting run.state.epoch (initial config)
        (run.trace config (.act label (.select table) :: continuation))) ∧
    (run.step config .close).1.state =
      (initial config).state.shift (run.state.epoch + 1) ∧
    ∀ continuation,
      RunsAfresh config run.waiting (run.state.epoch + 1) (initial config)
        ((run.step config .close).1.trace config continuation) := by
  intro run
  have hsound : run.Sound := sound_steps config earlier
  have hclose := hsound.follows_close config
  refine ⟨?_, congrArg Run.state hclose.since, hclose.runsAfresh config⟩
  intro label table continuation
  obtain ⟨hselect, hreport⟩ := hsound.follows_select config label table
  exact .cons_other rfl hreport (congrArg Run.state hselect.since)
    (hselect.runsAfresh config continuation)

end Run

end TableBrowser.Paging
