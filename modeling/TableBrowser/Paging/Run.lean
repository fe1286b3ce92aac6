import TableBrowser.Paging.Controller

/-!
# Runs of a controller

A controller with the tickets that wait for their replies.  Actions, replies and
given-up tickets may come in any order and any number of tickets may wait at the
same time, each under a label.
-/

namespace TableBrowser.Paging

inductive Event
  | act (label : Text) (action : Action)
  | reply (label : Text) (reply : Except FetchFailure Page)
  | drop (label : Text)
  | cancel
  | close

/-- What an event shows to the outside. -/
inductive Report
  | skipped
  | waiting (ticket : Ticket)
  | settled (outcome : Except FetchFailure Outcome)
  | dropped
  | unknownLabel
  | cancelled (epoch : Nat)
  | closed

structure Run where
  state : State
  waiting : List (Text × Ticket)

namespace Run

def initial (config : Config) : Run :=
  ⟨Controller.initial config, []⟩

def ticket? (run : Run) (label : Text) : Option Ticket :=
  (run.waiting.find? fun entry => entry.1 == label).map (·.2)

/-- The waiting tickets without that of a label. -/
def others (run : Run) (label : Text) : List (Text × Ticket) :=
  run.waiting.filter fun entry => entry.1 != label

/-- Gives up the ticket of a label, if one waits. -/
def abandon (run : Run) (label : Text) : Run :=
  match run.ticket? label with
  | none => run
  | some ticket => ⟨Controller.abandon run.state ticket, run.others label⟩

/-- One event.  A new ticket under a label in use takes the place of the old one,
which is given up. -/
def step (config : Config) (run : Run) : Event → Run × Report
  | .act label action =>
    match Controller.start config run.state action with
    | (state, none) => ({ run with state := state }, .skipped)
    | (state, some ticket) =>
      let freed := abandon { run with state := state } label
      ({ freed with waiting := freed.waiting ++ [(label, ticket)] }, .waiting ticket)
  | .reply label reply =>
    match run.ticket? label with
    | none => (run, .unknownLabel)
    | some ticket =>
      let (state, outcome) := Controller.settle config run.state ticket reply
      (⟨state, run.others label⟩, .settled outcome)
  | .drop label =>
    match run.ticket? label with
    | none => (run, .unknownLabel)
    | some _ => (run.abandon label, .dropped)
  | .cancel =>
    let state := Controller.cancel run.state
    ({ run with state := state }, .cancelled state.epoch)
  | .close => ({ run with state := Controller.close config run.state }, .closed)

/-- All events in turn. -/
def steps (config : Config) (run : Run) (events : List Event) : Run :=
  events.foldl (fun run event => (run.step config event).1) run

end Run

end TableBrowser.Paging
