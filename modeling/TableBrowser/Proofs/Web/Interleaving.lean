import TableBrowser.Proofs.Paging.Operations
import TableBrowser.Proofs.Web.Plans

/-!
# Requests that run at the same time

A request to browse a session is checked first and takes effect later, and other requests of
the session may run in between.  An order or a filter that takes effect was checked against
the table that was browsed at the time of the check, with the columns that the source gave
then.  It suits the table that is browsed now if that is still the same one, and need not suit
it if another table was selected in between.
-/

namespace TableBrowser.Web

open TableBrowser.Paging

/-- A request that has passed its checks and has not taken effect. -/
structure Prepared where
  /-- The source as it answered the questions of the check. -/
  data : DataSource
  intent : Intent
  /-- The table that was browsed when the request was checked. -/
  checked? : Option Text
  plan : Plan

/-- A request at the moment it takes effect, with the state it leaves. -/
structure Effect where
  prepared : Prepared
  state : State
  report : Report

/-- The page that is asked for when a request takes effect. -/
def Effect.ticket? (effect : Effect) : Option Ticket :=
  match effect.report with
  | .waiting ticket => some ticket
  | .skipped | .settled _ | .dropped | .unknownLabel | .cancelled _ | .closed => none

theorem Effect.report_of_ticket? {effect : Effect} {ticket : Ticket}
    (hticket : effect.ticket? = some ticket) : effect.report = .waiting ticket := by
  rw [ticket?] at hticket
  split at hticket <;> cases hticket
  assumption

/-- The browser of one session with the requests that wait for a page, and those that have
been checked only. -/
structure Traffic where
  run : Run
  prepared : List (Text × Prepared)

/-- What may come next; every request has a label. -/
inductive Move
  | check (label : Text) (data : DataSource) (intent : Intent)
  | act (label : Text)
  | reply (label : Text) (reply : Except FetchFailure Page)
  | drop (label : Text)
  | cancel
  | close

namespace Traffic

def start (server : Server) : Traffic :=
  ⟨Run.initial server.settings.paging, []⟩

def prepared? (traffic : Traffic) (label : Text) : Option Prepared :=
  (traffic.prepared.find? fun entry => entry.1 == label).map (·.2)

/-- The checked requests without that of a label. -/
def others (traffic : Traffic) (label : Text) : List (Text × Prepared) :=
  traffic.prepared.filter fun entry => entry.1 != label

/-- One move, and the effect of a request if it takes effect.  A request that fails its checks
is over. -/
def step (server : Server) (id : Text) (traffic : Traffic) : Move → Traffic × Option Effect
  | .check label data intent =>
    match (server.putState id traffic.run.state).plan data id intent with
    | .error _ => (traffic, none)
    | .ok plan =>
      let entry : Prepared := ⟨data, intent, traffic.run.state.table?, plan⟩
      ({ traffic with prepared := traffic.others label ++ [(label, entry)] }, none)
  | .act label =>
    match traffic.prepared? label with
    | none => (traffic, none)
    | some entry =>
      let (run, report) := traffic.run.step server.settings.paging (.act label entry.plan.action)
      (⟨run, traffic.others label⟩, some ⟨entry, run.state, report⟩)
  | .reply label reply =>
    ({ traffic with run := (traffic.run.step server.settings.paging (.reply label reply)).1 }, none)
  | .drop label =>
    (⟨(traffic.run.step server.settings.paging (.drop label)).1, traffic.others label⟩, none)
  | .cancel => ({ traffic with run := (traffic.run.step server.settings.paging .cancel).1 }, none)
  | .close => ({ traffic with run := (traffic.run.step server.settings.paging .close).1 }, none)

/-- The effects of requests under a list of moves. -/
def effects (server : Server) (id : Text) (traffic : Traffic) : List Move → List Effect
  | [] => []
  | move :: moves =>
    (traffic.step server id move).2.toList ++
      effects server id (traffic.step server id move).1 moves

end Traffic

/-- The page that is asked for is one of the table that is browsed, in its order and under its
clause.  The order is by a column of that table, and the clause was compiled with its columns,
unless the filter names a table itself. -/
structure Effect.Suits (effect : Effect) : Prop where
  asksFor : ∀ ticket ∈ effect.ticket?, ticket.AsksFor effect.state
  checked : ∀ table, effect.state.table? = some table →
    match effect.prepared.intent with
    | .sort column direction =>
      effect.state.sort? = some ⟨column, direction⟩ ∧
        ∃ columns, columnsOf effect.prepared.data table = .ok columns ∧
          columns.any (·.name == column) = true
    | .filter expression none =>
      ∃ compiled, compileFor effect.prepared.data expression (some table) = .ok compiled ∧
        effect.state.clause? = some compiled.clause
    | _ => True

/-! ## What an action leaves -/

/-- The page that an action asks for is the one that its state lacks. -/
theorem asksFor_of_act {config : Config} {run : Run} {label : Text} {action : Action}
    {ticket : Ticket} (hreport : (run.step config (.act label action)).2 = .waiting ticket) :
    ticket.AsksFor (run.step config (.act label action)).1.state := by
  refine Ticket.AsksFor.of_sameContent ?_ (Run.step_act_sameContent config run label action)
  have hstart := Run.step_act_waiting_iff.mp hreport
  cases hopens : action.opensEpoch with
  | true => exact (Controller.start_opens config run.state hopens).asksFor ticket hstart
  | false =>
      obtain rfl : action = .more := by cases action <;> first | rfl | contradiction
      rcases Controller.start_more config run.state with hsame | ⟨after, asked, hmore, hasks⟩
      · rw [hsame] at hstart
        cases hstart
      · rw [hmore] at hstart ⊢
        cases hstart
        exact hasks.asksFor.of_sameContent hasks.content

theorem reload_choices (config : Config) (state : State) :
    (Controller.reload config state).1.table? = state.table? ∧
      (Controller.reload config state).1.sort? = state.sort? ∧
      (Controller.reload config state).1.clause? = state.clause? := by
  rw [Controller.reload]
  split <;> exact ⟨rfl, rfl, rfl⟩

theorem sort?_of_act_sort (config : Config) (run : Run) (label column : Text)
    (direction : Direction) :
    (run.step config (.act label (.sort column direction))).1.state.sort? =
      some ⟨column, direction⟩ :=
  (Run.step_act_sameContent config run label _).sort.trans (reload_choices config _).2.1

theorem clause?_of_act_filter (config : Config) (run : Run) (label clause : Text) :
    (run.step config (.act label (.filter clause))).1.state.clause? = some clause :=
  (Run.step_act_sameContent config run label _).clause.trans (reload_choices config _).2.2

theorem table?_of_act (config : Config) (run : Run) (label : Text) {action : Action}
    (hselect : ∀ table, action ≠ .select table) :
    (run.step config (.act label action)).1.state.table? = run.state.table? := by
  rw [(Run.step_act_sameContent config run label action).table]
  cases action with
  | select table => exact absurd rfl (hselect table)
  | sort column direction => exact (reload_choices config _).1
  | clearSort => exact (reload_choices config _).1
  | filter clause => exact (reload_choices config _).1
  | clearFilter => exact (reload_choices config _).1
  | more =>
      rcases Controller.start_more config run.state with hsame | ⟨after, ticket, hstart, hasks⟩
      · rw [hsame]
      · rw [hstart]
        exact hasks.content.table

theorem table?_of_reply (config : Config) (run : Run) (label : Text)
    (reply : Except FetchFailure Page) :
    (run.step config (.reply label reply)).1.state.table? = run.state.table? := by
  rw [Run.step]
  split
  · rfl
  · next ticket _ =>
      dsimp only [Controller.settle]
      split
      · rfl
      · have hlanded := (Controller.landed_sameContent run.state ticket.fetch).table
        cases reply with
        | ok page => exact (Controller.merge_table? _ page ticket.fetch).trans hlanded
        | error failure => exact hlanded

/-! ## What was checked -/

theorem columnsOf_of_checkSort {data : DataSource} {session : Session} {column table : Text}
    (hcheck : checkSort data session column = .ok ())
    (htable : session.state.table? = some table) :
    ∃ columns, columnsOf data table = .ok columns ∧
      columns.any (·.name == column) = true := by
  simp only [checkSort, htable] at hcheck
  obtain ⟨columns, hcolumns, hany⟩ := exists_of_bind_eq_ok hcheck
  refine ⟨columns, hcolumns, ?_⟩
  split at hany
  · assumption
  · cases hany

/-- The plan was made for a session that browsed the table of the check. -/
def Prepared.IsChecked (entry : Prepared) : Prop :=
  ∃ session : Session, session.state.table? = entry.checked? ∧
    Server.Grants entry.data session entry.plan entry.intent

namespace Traffic

variable {server : Server} {id : Text} {traffic : Traffic} {effect : Effect}

/-- All requests that wait for their turn have been checked. -/
def IsChecked (traffic : Traffic) : Prop :=
  ∀ entry ∈ traffic.prepared, entry.2.IsChecked

theorem isChecked_start (server : Server) : (start server).IsChecked := by
  simp [IsChecked, start]

/-- A request waits for its turn since before the move, or has just passed its checks for the
table that is browsed. -/
theorem mem_prepared_step {move : Move} {entry : Text × Prepared}
    (hentry : entry ∈ (traffic.step server id move).1.prepared) :
    entry ∈ traffic.prepared ∨
      ∃ data intent plan, (server.putState id traffic.run.state).plan data id intent = .ok plan ∧
        entry.2 = ⟨data, intent, traffic.run.state.table?, plan⟩ := by
  have hothers : ∀ label, entry ∈ traffic.others label → entry ∈ traffic.prepared :=
    fun label hother => (List.mem_filter.mp hother).1
  cases move with
  | check label data intent =>
      simp only [step] at hentry
      split at hentry
      · exact .inl hentry
      · next plan hplan =>
          rcases List.mem_append.mp hentry with hentry | hentry
          · exact .inl (hothers label hentry)
          · exact .inr ⟨data, intent, plan, hplan, by rw [List.mem_singleton.mp hentry]⟩
  | act label =>
      simp only [step] at hentry
      split at hentry
      · exact .inl hentry
      · exact .inl (hothers label hentry)
  | drop label => exact .inl (hothers label hentry)
  | reply label reply => exact .inl hentry
  | cancel => exact .inl hentry
  | close => exact .inl hentry

theorem IsChecked.step (hchecked : traffic.IsChecked) (move : Move) :
    (traffic.step server id move).1.IsChecked := by
  intro entry hentry
  rcases mem_prepared_step hentry with hentry | ⟨data, intent, plan, hplan, hnew⟩
  · exact hchecked entry hentry
  · obtain ⟨session, hrequire, -, hgrants⟩ := Server.plan_eq_ok hplan
    have hstate := Server.state_of_require_putState hrequire
    rw [hnew]
    exact ⟨session, by rw [hstate], hgrants⟩

theorem mem_of_prepared? {label : Text} {entry : Prepared}
    (hentry : traffic.prepared? label = some entry) : (label, entry) ∈ traffic.prepared := by
  obtain ⟨found, hfound, rfl⟩ := Option.map_eq_some_iff.mp hentry
  have hlabel : found.1 = label := by simpa using List.find?_some hfound
  rw [← hlabel]
  exact List.mem_of_find?_eq_some hfound

/-- Only a request whose turn it is takes effect, as what was prepared for it. -/
theorem step_eq_some {move : Move} (hstep : (traffic.step server id move).2 = some effect) :
    ∃ label, (label, effect.prepared) ∈ traffic.prepared ∧
      effect.state = (traffic.run.step server.settings.paging
        (.act label effect.prepared.plan.action)).1.state ∧
      effect.report = (traffic.run.step server.settings.paging
        (.act label effect.prepared.plan.action)).2 := by
  cases move with
  | check label data intent =>
      simp only [step] at hstep
      split at hstep <;> cases hstep
  | act label =>
      simp only [step] at hstep
      split at hstep
      · cases hstep
      · next entry hentry =>
          cases hstep
          exact ⟨label, mem_of_prepared? hentry, rfl, rfl⟩
  | reply label reply => cases hstep
  | drop label => cases hstep
  | cancel => cases hstep
  | close => cases hstep

/-- An order or a filter suits the table that is browsed if that is the table of its check. -/
theorem IsChecked.suits (hchecked : traffic.IsChecked) {move : Move}
    (hstep : (traffic.step server id move).2 = some effect)
    (hsame : effect.state.table? = effect.prepared.checked?) : effect.Suits := by
  obtain ⟨label, hmem, hstate, hreport⟩ := step_eq_some hstep
  obtain ⟨session, htable, hgrants⟩ := hchecked _ hmem
  constructor
  case asksFor =>
    intro ticket hticket
    rw [Effect.report_of_ticket? hticket] at hreport
    rw [hstate]
    exact asksFor_of_act hreport.symm
  case checked =>
    intro table hbrowsed
    have hsession : session.state.table? = some table := by rw [htable, ← hsame, hbrowsed]
    split
    · next column direction hintent =>
        rw [hintent] at hgrants
        obtain ⟨hcheck, haction⟩ := hgrants
        rw [haction] at hstate
        exact ⟨by rw [hstate, sort?_of_act_sort], columnsOf_of_checkSort hcheck hsession⟩
    · next expression hintent =>
        rw [hintent] at hgrants
        obtain ⟨compiled, hcompile, haction⟩ := hgrants
        rw [haction] at hstate
        rw [hsession] at hcompile
        exact ⟨compiled, hcompile, by rw [hstate, clause?_of_act_filter]⟩
    · trivial

theorem IsChecked.suits_of_mem_effects (hchecked : traffic.IsChecked) {moves : List Move}
    (hmem : effect ∈ traffic.effects server id moves)
    (hsame : effect.state.table? = effect.prepared.checked?) : effect.Suits := by
  induction moves generalizing traffic with
  | nil => cases hmem
  | cons move moves ih =>
      rw [effects, List.mem_append] at hmem
      rcases hmem with hmem | hmem
      · exact hchecked.suits (Option.mem_toList.mp hmem) hsame
      · exact ih (hchecked.step move) hmem

/-- Which table is browsed changes only if a table is selected or the browser is closed. -/
theorem table?_step (server : Server) (id : Text) (traffic : Traffic) {move : Move}
    (hclose : move ≠ .close)
    (hselect : ∀ effect, (traffic.step server id move).2 = some effect →
      ∀ table, effect.prepared.plan.action ≠ .select table) :
    (traffic.step server id move).1.run.state.table? = traffic.run.state.table? := by
  cases move with
  | check label data intent =>
      simp only [step]
      split <;> rfl
  | act label =>
      simp only [step] at hselect ⊢
      split
      · rfl
      · next entry hentry =>
          simp only [hentry] at hselect
          exact table?_of_act server.settings.paging traffic.run label (hselect _ rfl)
  | reply label reply => exact table?_of_reply server.settings.paging traffic.run label reply
  | drop label =>
      simp only [step, Run.step]
      split
      · rfl
      · exact (Run.abandon_sameContent traffic.run label).table
  | cancel => rfl
  | close => exact absurd rfl hclose

/-- Every request that waits for its turn was checked for the table that is browsed. -/
def IsFresh (traffic : Traffic) : Prop :=
  ∀ entry ∈ traffic.prepared, entry.2.checked? = traffic.run.state.table?

theorem IsFresh.step (hfresh : traffic.IsFresh) {move : Move}
    (htable : (traffic.step server id move).1.run.state.table? = traffic.run.state.table?) :
    (traffic.step server id move).1.IsFresh := by
  intro entry hentry
  rw [htable]
  rcases mem_prepared_step hentry with hentry | ⟨data, intent, plan, -, hnew⟩
  · exact hfresh entry hentry
  · rw [hnew]

/-- As long as no table is selected and the browser is not closed, all orders and filters that
take effect suit the table that is browsed. -/
theorem IsFresh.suits_of_unselected (hfresh : traffic.IsFresh) (hchecked : traffic.IsChecked)
    {moves : List Move} (hclose : Move.close ∉ moves)
    (hselect : ∀ effect ∈ traffic.effects server id moves,
      ∀ table, effect.prepared.plan.action ≠ .select table) :
    ∀ effect ∈ traffic.effects server id moves, effect.Suits := by
  induction moves generalizing traffic with
  | nil => simp [effects]
  | cons move moves ih =>
      rw [effects, List.forall_mem_append] at hselect ⊢
      rw [List.mem_cons, not_or] at hclose
      have hnow : ∀ effect, (traffic.step server id move).2 = some effect →
          ∀ table, effect.prepared.plan.action ≠ .select table :=
        fun effect hstep => hselect.1 effect (Option.mem_toList.mpr hstep)
      have htable := table?_step server id traffic (Ne.symm hclose.1) hnow
      refine ⟨fun effect hmem => ?_, ih (hfresh.step htable) (hchecked.step move) hclose.2
        hselect.2⟩
      have hstep := Option.mem_toList.mp hmem
      obtain ⟨label, hprepared, hstate, -⟩ := step_eq_some hstep
      refine hchecked.suits hstep ?_
      rw [hfresh _ hprepared, hstate]
      exact table?_of_act server.settings.paging traffic.run label (hnow effect hstep)

/-- However requests of a session are interleaved, an order or a filter that takes effect
suits the table that is browsed if that is still the table of its check. -/
theorem effects_suit (server : Server) (id : Text) (moves : List Move) (effect : Effect)
    (hmem : effect ∈ (start server).effects server id moves)
    (hsame : effect.state.table? = effect.prepared.checked?) : effect.Suits :=
  (isChecked_start server).suits_of_mem_effects hmem hsame

/-- A session that browses nothing yet. -/
def newcomer : Server :=
  ⟨⟨"127.0.0.1", 8080, none, false, 3600, 10, Config.standard⟩, [⟨"s", 0, 0, State.idle 500 0⟩]⟩

/-- Two tables with one column each. -/
def rivals : DataSource :=
  (Database.mk [.table ⟨"a", [⟨"x", "INTEGER"⟩], [[.integer 1]], none⟩,
    .table ⟨"b", [⟨"y", "INTEGER"⟩], [[.integer 2], [.integer 1]], none⟩] []).connection.source
      ⟨fun _ => 0, .done⟩

/-- While an order is between its check and its effect, more rows are asked for. -/
def peaceful : List Move :=
  [.check "select" rivals (.select "a"), .act "select",
    .check "sort" rivals (.sort "x" .ascending), .check "more" rivals .more, .act "more",
    .act "sort"]

theorem peaceful_sort_suits :
    ∃ effect ∈ (start newcomer).effects newcomer "s" peaceful,
      effect.prepared.intent = .sort "x" .ascending ∧
        effect.state.table? = effect.prepared.checked? ∧ effect.Suits := by
  have hfound : ((start newcomer).effects newcomer "s" peaceful).any (fun effect =>
      decide (effect.prepared.intent = .sort "x" .ascending ∧
        effect.state.table? = effect.prepared.checked?)) = true := by decide +kernel
  obtain ⟨effect, hmem, hfound⟩ := List.any_eq_true.mp hfound
  obtain ⟨hintent, hsame⟩ := of_decide_eq_true hfound
  exact ⟨effect, hmem, hintent, hsame, effects_suit newcomer "s" peaceful effect hmem hsame⟩

/-- While an order is between its check and its effect, another table is selected. -/
def racing : List Move :=
  [.check "select" rivals (.select "a"), .act "select",
    .check "sort" rivals (.sort "x" .ascending), .check "switch" rivals (.select "b"),
    .act "switch", .act "sort"]

/-- An order that was checked for one table takes effect on another, whose rows are then
asked for in the order of a column it does not have. -/
theorem racing_sort_not_suits :
    ∃ effect ∈ (start newcomer).effects newcomer "s" racing,
      effect.state.table? = some "b".toList ∧
        effect.ticket?.map (fun ticket => (ticket.table, ticket.request.orderBy?)) =
          some ("b".toList, some "x".toList) ∧
        (columnsOf effect.prepared.data "b").toOption = some [⟨"y", "INTEGER"⟩] ∧
        ¬ effect.Suits := by
  have hfound : ((start newcomer).effects newcomer "s" racing).any (fun effect =>
      decide (effect.prepared.intent = .sort "x" .ascending ∧
        effect.state.table? = some "b".toList ∧
        effect.ticket?.map (fun ticket => (ticket.table, ticket.request.orderBy?)) =
          some ("b".toList, some "x".toList) ∧
        (columnsOf effect.prepared.data "b").toOption = some [⟨"y", "INTEGER"⟩])) = true := by
    decide +kernel
  obtain ⟨effect, hmem, hfound⟩ := List.any_eq_true.mp hfound
  obtain ⟨hintent, htable, hticket, hactual⟩ := of_decide_eq_true hfound
  refine ⟨effect, hmem, htable, hticket, hactual, fun hsuits => ?_⟩
  have hsort := hsuits.checked _ htable
  rw [hintent] at hsort
  obtain ⟨-, columns, hcolumns, hany⟩ := hsort
  rw [hcolumns] at hactual
  cases hactual
  revert hany
  decide +kernel

end Traffic

end TableBrowser.Web
