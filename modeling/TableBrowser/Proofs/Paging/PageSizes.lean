import TableBrowser.Proofs.Paging.Pages
import TableBrowser.Proofs.Paging.Settings

/-!
# Page sizes over a run

Two kinds of events decide the page size: a selection or a close starts over, and a first
page that is taken in tells how many rows there are.  The last of them counts, and all
other events leave the page size alone.  A fixed size comes out the same after either, and
the last fixed size among the settings is the one that holds.
-/

namespace TableBrowser.Paging

/-- What decides the page size. -/
inductive Sizing
  | startOver
  | counted (total : Nat)
  deriving DecidableEq

def Sizing.size (config : Config) : Sizing → Nat
  | .startOver => config.startingSize
  | .counted total => config.nextSize total

/-- What a transition decides about the page size. -/
def Transition.sizing? (transition : Transition) : Option Sizing :=
  match transition.event with
  | .act _ (.select _) | .close => some .startOver
  | _ =>
    match transition.answer? with
    | some ⟨⟨.first, _, _⟩, page⟩ => some (.counted page.total)
    | _ => none

/-! ## What the operations do to the page size -/

namespace Controller

theorem reload_pageSize (config : Config) (state : State) :
    (reload config state).1.pageSize = state.pageSize := by
  cases htable : state.table? <;> simp [reload, htable, State.clearRows]

theorem start_pageSize (config : Config) (state : State) {action : Action}
    (hselect : ∀ table, action ≠ .select table) :
    (start config state action).1.pageSize = state.pageSize := by
  cases action with
  | select table => exact absurd rfl (hselect table)
  | sort | clearSort | filter | clearFilter => exact reload_pageSize config _
  | more =>
      rcases start_more config state with hsame | ⟨after, ticket, hstart, hasks⟩
      · rw [hsame]
      · rw [hstart]
        exact hasks.content.pageSize

theorem reload_limit {config : Config} {state : State} {ticket : Ticket}
    (hticket : (reload config state).2 = some ticket) :
    ticket.request.limit = (reload config state).1.pageSize := by
  unfold reload at hticket ⊢
  split at hticket
  · cases hticket
  · cases hticket
    rfl

/-- Pages are asked for in the size that the state behind the action has. -/
theorem start_limit {config : Config} {state : State} {action : Action} {ticket : Ticket}
    (hticket : (start config state action).2 = some ticket) :
    ticket.request.limit = (start config state action).1.pageSize := by
  cases action with
  | select | sort | clearSort | filter | clearFilter => exact reload_limit hticket
  | more =>
      simp only [start, loadMore] at hticket ⊢
      split at hticket
      · cases hticket
      · split at hticket
        · next hmore =>
            cases hticket
            rw [if_pos hmore]
            rfl
        · cases hticket

end Controller

namespace Run

variable {config : Config} {run : Run}

/-- A step leaves the page size alone unless it decides it. -/
theorem step_pageSize (config : Config) (run : Run) (event : Event) :
    let transition : Transition :=
      ⟨run, event, (run.step config event).2, (run.step config event).1⟩
    transition.after.state.pageSize =
      (transition.sizing?.map (·.size config)).getD run.state.pageSize := by
  cases event with
  | act label action =>
      have hcontent := step_act_sameContent config run label action
      cases action with
      | select table => exact hcontent.pageSize.trans (Controller.reload_pageSize config _)
      | sort | clearSort | filter | clearFilter | more =>
          exact hcontent.pageSize.trans (Controller.start_pageSize config _ (by simp))
  | cancel | close => rfl
  | drop label =>
      cases hticket : run.ticket? label with
      | none =>
          simp only [step, hticket]
          rfl
      | some ticket =>
          simp only [step, hticket]
          exact (abandon_sameContent run label).pageSize
  | reply label reply =>
      cases hticket : run.ticket? label with
      | none =>
          simp only [step, hticket]
          cases reply <;> rfl
      | some ticket =>
          by_cases hepoch : ticket.request.epoch = run.state.epoch
          · cases reply with
            | ok page =>
                simp only [step, hticket, Controller.settle_page_of_eq hepoch, Transition.sizing?,
                  Transition.answer?, Option.map_some]
                obtain ⟨fetch, table, request⟩ := ticket
                cases fetch <;> rfl
            | error failure =>
                simp only [step, hticket, Controller.settle_failure_of_eq hepoch]
                exact (Controller.landed_sameContent run.state ticket.fetch).pageSize
          · simp only [step, hticket, Controller.settle_of_ne hepoch]
            cases reply <;> rfl

/-- The last decision in the history of a run holds. -/
theorem steps_pageSize (config : Config) (run : Run) (events : List Event) :
    (run.steps config events).state.pageSize =
      (((run.trace config events).filterMap Transition.sizing?).getLast?.map
        (·.size config)).getD run.state.pageSize := by
  induction events generalizing run with
  | nil => rfl
  | cons event events ih =>
      rw [steps_cons, ih, step_pageSize, trace]
      cases hsizing : Transition.sizing?
          ⟨run, event, (run.step config event).2, (run.step config event).1⟩ with
      | none => rw [List.filterMap_cons, hsizing]; rfl
      | some sizing =>
          rw [List.filterMap_cons, hsizing, List.getLast?_cons]
          cases (((run.step config event).1.trace config events).filterMap
            Transition.sizing?).getLast? <;> rfl

/-- A run of a new browser has the size of the last decision, and starts over at first. -/
theorem pageSize_initial (config : Config) (events : List Event) :
    ((initial config).steps config events).state.pageSize =
      ((((initial config).trace config events).filterMap Transition.sizing?).getLast?.getD
        .startOver).size config := by
  rw [steps_pageSize]
  cases (((initial config).trace config events).filterMap Transition.sizing?).getLast? <;> rfl

theorem Sound.limit_of_waiting (hsound : run.Sound) {event : Event} {ticket : Ticket}
    (hreport : (run.step config event).2 = .waiting ticket) :
    ticket.request.limit = (run.step config event).1.state.pageSize := by
  have hmoves := hsound.moves config event
  rw [hreport] at hmoves
  obtain ⟨label, action, rfl⟩ := hmoves.event_of_waiting
  rw [Controller.start_limit (step_act_waiting_iff.mp hreport),
    (step_act_sameContent config run label action).pageSize]

/-- A request in the history of a run has the page size of a run. -/
theorem limit_of_mem_trace {config : Config} {events : List Event} {transition : Transition}
    (hmem : transition ∈ (initial config).trace config events) {ticket : Ticket}
    (hreport : transition.report = .waiting ticket) :
    ticket.request.limit = transition.after.state.pageSize ∧
      ∃ earlier, transition.after = (initial config).steps config earlier := by
  obtain ⟨⟨earlier, hbefore⟩, hstep⟩ := step_of_mem_trace hmem
  have hsound : transition.before.Sound := hbefore ▸ sound_steps config earlier
  have hafter : (transition.before.step config transition.event).1 = transition.after :=
    congrArg Prod.fst hstep
  refine ⟨?_, earlier ++ [transition.event], ?_⟩
  · rw [← hafter]
    exact hsound.limit_of_waiting (by rw [hstep, hreport])
  · rw [← hafter, hbefore, steps, steps, List.foldl_append]
    rfl

end Run

/-! ## Sizes made by settings -/

/-- Settings fix the size by the last fixed one among them.  Without one the size before
the rows are counted is the last initial one. -/
theorem Sizing.size_ofSettings (settings : List Setting) (sizing : Sizing) :
    sizing.size (.ofSettings settings) =
      match (settings.filterMap Setting.fixedRows?).getLast?, sizing with
      | some rows, _ => max rows 1
      | none, .counted total => advisedSize total
      | none, .startOver =>
        max ((settings.filterMap Setting.initialRows?).getLast?.getD
          Config.defaultInitialSize) 1 := by
  have hfixed := Config.fixedSize?_ofSettings settings
  have hinitial := Config.initialSize_ofSettings settings
  cases hlast : (settings.filterMap Setting.fixedRows?).getLast? with
  | some rows =>
      rw [hlast] at hfixed
      cases sizing <;> simp [size, Config.startingSize, Config.nextSize, hfixed]
  | none =>
      rw [hlast] at hfixed
      cases sizing with
      | counted total => simp [size, Config.nextSize, hfixed]
      | startOver =>
          simp only [size, Config.startingSize, hfixed, Option.map_none, Option.getD_none,
            hinitial]
          cases (settings.filterMap Setting.initialRows?).getLast? <;> rfl

theorem Sizing.size_pos (settings : List Setting) (sizing : Sizing) :
    1 ≤ sizing.size (.ofSettings settings) := by
  cases sizing with
  | startOver => exact Config.startingSize_pos settings
  | counted total => exact Config.nextSize_pos settings total

namespace Run

/-- In every run with a configuration made by settings no page is asked for without rows.
The last fixed size among the settings is the size of all pages.  Without one the size is
advised by the rows that the last first page counted, and until there is such a page behind
the last selection or close it is the initial one. -/
theorem pageSize_follows_settings (settings : List Setting) (events : List Event) :
    let config := Config.ofSettings settings
    let state := ((initial config).steps config events).state
    let trace := (initial config).trace config events
    let fixed? := (settings.filterMap Setting.fixedRows?).getLast?
    let initial? := (settings.filterMap Setting.initialRows?).getLast?
    1 ≤ state.pageSize ∧
      (∀ transition ∈ trace, ∀ ticket, transition.report = .waiting ticket →
        1 ≤ ticket.request.limit ∧
          ticket.request.limit = transition.after.state.pageSize) ∧
      (∀ rows, fixed? = some rows → state.pageSize = max rows 1 ∧
        ∀ transition ∈ trace, ∀ ticket, transition.report = .waiting ticket →
          ticket.request.limit = max rows 1) ∧
      (fixed? = none →
        state.pageSize =
          match (trace.filterMap Transition.sizing?).getLast? with
          | some (.counted total) => advisedSize total
          | _ => max (initial?.getD Config.defaultInitialSize) 1) := by
  intro config state trace fixed? initial?
  have hpos : ∀ events, 1 ≤ ((initial config).steps config events).state.pageSize := by
    intro events
    rw [pageSize_initial]
    exact Sizing.size_pos settings _
  have hfixed : ∀ rows, fixed? = some rows → ∀ events,
      ((initial config).steps config events).state.pageSize = max rows 1 := by
    intro rows hrows events
    rw [pageSize_initial, Sizing.size_ofSettings]
    simp only [fixed?] at hrows
    simp only [hrows]
  refine ⟨hpos events, ?_, ?_, ?_⟩
  · intro transition hmem ticket hreport
    obtain ⟨hlimit, earlier, hafter⟩ := limit_of_mem_trace hmem hreport
    exact ⟨by rw [hlimit, hafter]; exact hpos earlier, hlimit⟩
  · intro rows hrows
    refine ⟨hfixed rows hrows events, fun transition hmem ticket hreport => ?_⟩
    obtain ⟨hlimit, earlier, hafter⟩ := limit_of_mem_trace hmem hreport
    rw [hlimit, hafter]
    exact hfixed rows hrows earlier
  · intro hnone
    simp only [fixed?] at hnone
    simp only [state, pageSize_initial, Sizing.size_ofSettings, config, hnone]
    rcases (trace.filterMap Transition.sizing?).getLast? with _ | _ | total <;> rfl

/-- A first page that counts 20000 rows, and the request behind it. -/
theorem pageSize_follows_settings_counted :
    let settings : List Setting := [.initialSize 0]
    let config := Config.ofSettings settings
    let events : List Event := [.act "first" (.select "movies"),
      .reply "first" (.ok ⟨["id"], [[.integer 1]], 20000, true⟩), .act "next" .more]
    ((initial config).steps config events).state.pageSize = 5000 ∧
      ∃ asked ticket, ((initial config).trace config events)[2]? = some asked ∧
        asked.report = .waiting ticket ∧ ticket.request.offset = 1 ∧
          ticket.request.limit = 5000 := by
  intro settings config events
  obtain ⟨-, hlimits, -, hcounted⟩ := pageSize_follows_settings settings events
  have hsize : ((initial config).steps config events).state.pageSize = 5000 :=
    (hcounted rfl).trans rfl
  refine ⟨hsize, _, _, rfl, rfl, rfl, ?_⟩
  exact (hlimits _ (List.mem_of_getElem? (i := 2) rfl) _ rfl).2.trans hsize

end Run

end TableBrowser.Paging
