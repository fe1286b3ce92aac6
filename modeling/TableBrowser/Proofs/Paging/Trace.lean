import TableBrowser.Paging.Run

/-!
# Traces of a run

A run is told by its transitions: each event with what it reported and the run on
either side of it.  What holds of one step holds of every transition, and what
compares transitions with one another follows by induction over the events.
-/

namespace TableBrowser.Paging

structure Transition where
  before : Run
  event : Event
  report : Report
  after : Run

namespace Run

/-- The transitions of a run under a list of events. -/
def trace (config : Config) (run : Run) : List Event → List Transition
  | [] => []
  | event :: events =>
    ⟨run, event, (run.step config event).2, (run.step config event).1⟩ ::
      trace config (run.step config event).1 events

@[simp]
theorem steps_cons (config : Config) (run : Run) (event : Event) (events : List Event) :
    run.steps config (event :: events) = (run.step config event).1.steps config events := rfl

/-- A transition is a step from a run that earlier events reach. -/
theorem step_of_mem_trace {config : Config} {run : Run} {events : List Event}
    {transition : Transition} (hmem : transition ∈ run.trace config events) :
    (∃ earlier, transition.before = run.steps config earlier) ∧
      transition.before.step config transition.event =
        (transition.after, transition.report) := by
  induction events generalizing run with
  | nil => simp [trace] at hmem
  | cons event events ih =>
      rw [trace, List.mem_cons] at hmem
      rcases hmem with rfl | hmem
      · exact ⟨⟨[], rfl⟩, rfl⟩
      · obtain ⟨⟨earlier, hbefore⟩, hstep⟩ := ih hmem
        exact ⟨⟨event :: earlier, hbefore⟩, hstep⟩

/-- What the first run has and every step keeps, every run has. -/
theorem steps_induction {config : Config} {P : Run → Prop}
    (hstep : ∀ run event, P run → P (run.step config event).1)
    {run : Run} (hrun : P run) (events : List Event) : P (run.steps config events) := by
  induction events generalizing run with
  | nil => exact hrun
  | cons event events ih => exact ih (hstep run event hrun)

end Run

end TableBrowser.Paging
