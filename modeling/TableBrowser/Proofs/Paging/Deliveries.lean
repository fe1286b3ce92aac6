import TableBrowser.Proofs.Paging.Epochs

/-!
# Deliveries in any order

Every waiting ticket meets its fate at some time: a page, a failure, or being given
up.  If nothing else happens in between, the order does not matter.  At most one of the
tickets counts, and a ticket that does not count leaves no trace, so the state in the end
is the one that the fate of that ticket brings about by itself.
-/

namespace TableBrowser.Paging

/-- What becomes of a waiting ticket. -/
inductive Fate
  | answered (reply : Except FetchFailure Page)
  | givenUp

namespace Fate

/-- The event by which the ticket of a label meets its fate. -/
def event (label : Text) : Fate → Event
  | .answered reply => .reply label reply
  | .givenUp => .drop label

/-- The state after a ticket has met its fate. -/
def resolve (config : Config) (state : State) (ticket : Ticket) : Fate → State
  | .answered reply => (Controller.settle config state ticket reply).1
  | .givenUp => Controller.abandon state ticket

/-- What is reported when a ticket meets its fate in an epoch. -/
def report (epoch : Nat) (ticket : Ticket) : Fate → Report
  | .answered reply =>
    .settled (if ticket.request.epoch = epoch then
      reply.map fun page => .applied page.rows.length else .ok .superseded)
  | .givenUp => .dropped

variable {config : Config} {state : State} {ticket : Ticket}

/-- A ticket that does not count leaves the state as it is. -/
theorem resolve_of_ne (fate : Fate) (hepoch : ticket.request.epoch ≠ state.epoch) :
    fate.resolve config state ticket = state := by
  cases fate with
  | answered reply => rw [resolve, Controller.settle_of_ne hepoch]
  | givenUp => exact Controller.abandon_of_ne hepoch

/-- A page for the ticket that counts is taken in. -/
theorem resolve_page_of_eq (hepoch : ticket.request.epoch = state.epoch) (page : Page) :
    resolve config state ticket (.answered (.ok page)) =
      Controller.merge config (Controller.landed state ticket.fetch) page ticket.fetch := by
  rw [resolve, Controller.settle_page_of_eq hepoch]

@[simp]
theorem resolve_epoch (fate : Fate) :
    (fate.resolve config state ticket).epoch = state.epoch := by
  by_cases hepoch : ticket.request.epoch = state.epoch
  · match fate with
    | .answered (.ok page) => rw [resolve_page_of_eq hepoch]; simp
    | .answered (.error failure) =>
        rw [resolve, Controller.settle_failure_of_eq hepoch]
        exact Controller.landed_epoch state ticket.fetch
    | .givenUp =>
        rw [resolve, Controller.abandon_of_eq hepoch]
        exact Controller.landed_epoch state ticket.fetch
  · rw [resolve_of_ne fate hepoch]

end Fate

namespace Run

variable {run : Run} (config : Config) (fate : Text → Fate)

/-- The events by which tickets meet their fates, one after the other. -/
def deliveries (fate : Text → Fate) (entries : List (Text × Ticket)) : List Event :=
  entries.map fun entry => (fate entry.1).event entry.1

/-- The waiting tickets of the current epoch under their labels. -/
def liveEntries (run : Run) : List (Text × Ticket) :=
  run.waiting.filter fun entry => entry.2.request.epoch == run.state.epoch

/-- The state after tickets have met their fates. -/
def resolveAll (config : Config) (fate : Text → Fate) (state : State)
    (entries : List (Text × Ticket)) : State :=
  entries.foldl (fun state entry => (fate entry.1).resolve config state entry.2) state

theorem Sound.length_liveEntries_le (hsound : run.Sound) : run.liveEntries.length ≤ 1 := by
  have hlive : run.live = run.liveEntries.map (·.2) := by
    rw [live, liveEntries, List.filter_map]
    rfl
  have hle := hsound.live_length_le
  rwa [hlive, List.length_map] at hle

/-! ## One delivery -/

theorem step_delivery {label : Text} {ticket : Ticket} (fate : Fate)
    (hticket : run.ticket? label = some ticket) :
    run.step config (fate.event label) =
      (⟨fate.resolve config run.state ticket, run.others label⟩,
        fate.report run.state.epoch ticket) := by
  match fate with
  | .givenUp =>
      simp only [Fate.event, step, abandon, hticket, Fate.resolve, Fate.report]
  | .answered reply =>
      simp only [Fate.event, step, hticket, Fate.resolve, Fate.report]
      by_cases hepoch : ticket.request.epoch = run.state.epoch
      · rw [if_pos hepoch]
        cases reply with
        | ok page => rw [Controller.settle_page_of_eq hepoch]; rfl
        | error failure => rw [Controller.settle_failure_of_eq hepoch]; rfl
      · rw [if_neg hepoch, Controller.settle_of_ne hepoch]

/-! ## All deliveries -/

/-- Without the first entry of an order the order is one of the other entries. -/
theorem LabelsDistinct.perm_others (hlabels : run.LabelsDistinct) {entry : Text × Ticket}
    {rest : List (Text × Ticket)} (horder : (entry :: rest).Perm run.waiting) :
    rest.Perm (run.others entry.1) := by
  have hdistinct : ((entry :: rest).map (·.1)).Nodup :=
    (horder.map Prod.fst).nodup_iff.mpr hlabels
  rw [List.map_cons, List.nodup_cons] at hdistinct
  have hrest : (entry :: rest).filter (fun other => other.1 != entry.1) = rest := by
    rw [List.filter_cons_of_neg (by simp), List.filter_eq_self]
    intro other hother
    have hne : other.1 ≠ entry.1 :=
      fun heq => hdistinct.1 (heq ▸ List.mem_map_of_mem hother)
    simpa using hne
  have hfilter := horder.filter fun other => other.1 != entry.1
  rwa [hrest] at hfilter

/-- Tickets meet their fates one by one, and what is reported does not depend on those
that came before. -/
theorem Sound.deliver_all (hsound : run.Sound) {order : List (Text × Ticket)}
    (horder : order.Perm run.waiting) :
    run.steps config (deliveries fate order) =
        ⟨resolveAll config fate run.state order, []⟩ ∧
      (run.trace config (deliveries fate order)).map (·.report) =
        order.map fun entry => (fate entry.1).report run.state.epoch entry.2 := by
  induction order generalizing run with
  | nil =>
      obtain ⟨state, waiting⟩ := run
      obtain rfl : waiting = [] := List.nil_perm.mp horder
      exact ⟨rfl, rfl⟩
  | cons entry rest ih =>
      have hmem : (entry.1, entry.2) ∈ run.waiting := horder.mem_iff.mp (by simp)
      have hstep := step_delivery config (fate entry.1)
        (hsound.labels.ticket?_eq_some_iff.mpr hmem)
      have hnext : (run.step config ((fate entry.1).event entry.1)).1 = _ :=
        congrArg Prod.fst hstep
      have hreport : (run.step config ((fate entry.1).event entry.1)).2 = _ :=
        congrArg Prod.snd hstep
      have hsoundNext := hnext ▸ hsound.step ((fate entry.1).event entry.1)
      obtain ⟨hsteps, hreports⟩ := ih hsoundNext (hsound.labels.perm_others horder)
      rw [Fate.resolve_epoch] at hreports
      constructor
      · rw [deliveries, List.map_cons, steps_cons, hnext]
        exact hsteps
      · rw [deliveries, List.map_cons, trace, List.map_cons, List.map_cons, hreport, hnext]
        exact congrArg _ hreports

theorem resolveAll_of_stale {state : State} {entries : List (Text × Ticket)}
    (hstale : ∀ entry ∈ entries, entry.2.request.epoch ≠ state.epoch) :
    resolveAll config fate state entries = state := by
  induction entries with
  | nil => rfl
  | cons entry rest ih =>
      rw [resolveAll, List.foldl_cons, Fate.resolve_of_ne _ (hstale entry (by simp))]
      exact ih fun other hother => hstale other (by simp [hother])

/-- Only tickets of the epoch leave a trace, and there is at most one of them. -/
theorem resolveAll_eq_resolveAll_filter {state : State} {entries : List (Text × Ticket)}
    (hlive : (entries.filter fun entry => entry.2.request.epoch == state.epoch).length ≤ 1) :
    resolveAll config fate state entries =
      resolveAll config fate state
        (entries.filter fun entry => entry.2.request.epoch == state.epoch) := by
  induction entries with
  | nil => rfl
  | cons entry rest ih =>
      by_cases hepoch : entry.2.request.epoch = state.epoch
      · rw [List.filter_cons_of_pos (by simpa using hepoch)] at hlive ⊢
        have hnone : rest.filter (fun entry => entry.2.request.epoch == state.epoch) = [] := by
          rw [← List.length_eq_zero_iff]
          rw [List.length_cons] at hlive
          omega
        rw [hnone, resolveAll, List.foldl_cons]
        -- The epoch stays, so the tickets behind the one that counts do not count either.
        apply resolveAll_of_stale config fate
        intro other hother
        rw [Fate.resolve_epoch]
        simpa using List.filter_eq_nil_iff.mp hnone other hother
      · rw [List.filter_cons_of_neg (by simpa using hepoch)] at hlive ⊢
        rw [← ih hlive, resolveAll, List.foldl_cons, Fate.resolve_of_ne _ hepoch]
        rfl

theorem Sound.resolveAll_eq (hsound : run.Sound) {order : List (Text × Ticket)}
    (horder : order.Perm run.waiting) :
    resolveAll config fate run.state order =
      resolveAll config fate run.state run.liveEntries := by
  have hfilter : (order.filter fun entry =>
      entry.2.request.epoch == run.state.epoch).Perm run.liveEntries :=
    horder.filter _
  have hle := hsound.length_liveEntries_le
  have hsame : (order.filter fun entry =>
      entry.2.request.epoch == run.state.epoch) = run.liveEntries := by
    match hlive : run.liveEntries with
    | [] => rw [hlive] at hfilter; exact hfilter.eq_nil
    | [entry] => rw [hlive] at hfilter; exact List.perm_singleton.mp hfilter
    | _ :: _ :: _ => rw [hlive] at hle; simp at hle
  rw [resolveAll_eq_resolveAll_filter config fate (hsame ▸ hle), hsame]

theorem Sound.steps_liveEntries (hsound : run.Sound) :
    (run.steps config (deliveries fate run.liveEntries)).state =
      resolveAll config fate run.state run.liveEntries := by
  have hle := hsound.length_liveEntries_le
  match hlive : run.liveEntries with
  | [] => rfl
  | [entry] =>
      have hmem : entry ∈ run.liveEntries := by simp [hlive]
      have hticket := hsound.labels.ticket?_eq_some_iff.mpr (List.mem_filter.mp hmem).1
      rw [deliveries, List.map_singleton, steps_cons, step_delivery config _ hticket]
      rfl
  | _ :: _ :: _ => rw [hlive] at hle; simp at hle

/-! ## Selecting twice -/

/-- Selecting a table asks for its first page in the new epoch. -/
theorem Sound.step_select (hsound : run.Sound) (label table : Text) :
    ∃ after ticket,
      (run.step config (.act label (.select table))).1 =
          ⟨after, run.others label ++ [(label, ticket)]⟩ ∧
        after.table? = some table ∧ ticket.fetch = .first ∧
        ticket.request.epoch = after.epoch := by
  obtain ⟨after, ticket, hstart, htable, hfetch⟩ : ∃ after ticket,
      Controller.start config run.state (.select table) = (after, some ticket) ∧
        after.table? = some table ∧ ticket.fetch = .first := ⟨_, _, rfl, rfl, rfl⟩
  have hopens : run.state.Opens _ _ :=
    Controller.start_opens config run.state (show (Action.select table).opensEpoch = true from rfl)
  rw [hstart] at hopens
  refine ⟨after, ticket, ?_, htable, hfetch, hopens.requestEpoch ticket rfl⟩
  rw [step_act_of_some hstart (hsound.ne_epoch_of_opens hopens)]

/-- The table that was selected last is the one that is shown in the end. -/
theorem Sound.deliver_selected (hsound : run.Sound) (label table : Text) {page : Page}
    (hfate : fate label = .answered (.ok page)) {order : List (Text × Ticket)}
    (horder : order.Perm (run.step config (.act label (.select table))).1.waiting) :
    let final := ((run.step config (.act label (.select table))).1.steps config
      (deliveries fate order)).state
    final.table? = some table ∧ final.columns = page.columns ∧ final.rows = page.rows ∧
      final.total = page.total ∧ final.hasMore = page.hasMore := by
  intro final
  obtain ⟨after, ticket, hselect, htable, hfetch, hepoch⟩ :=
    hsound.step_select config label table
  have hselected : (run.step config (.act label (.select table))).1.Sound := hsound.step _
  have hlive : (run.step config (.act label (.select table))).1.liveEntries =
      [(label, ticket)] := by
    have hmem : (label, ticket) ∈
        (run.step config (.act label (.select table))).1.liveEntries := by
      rw [hselect]
      simp [liveEntries, hepoch]
    obtain ⟨entry, hentry⟩ := List.length_eq_one_iff.mp
      (Nat.le_antisymm hselected.length_liveEntries_le (List.length_pos_of_mem hmem))
    rw [hentry, List.mem_singleton] at hmem
    rw [hentry, hmem]
  have hfinal : final = Controller.merge config (Controller.landed after .first) page .first := by
    have hstate : final = _ :=
      congrArg Run.state (hselected.deliver_all config fate horder).1
    rw [hstate, hselected.resolveAll_eq config fate horder, hlive, hselect, resolveAll,
      List.foldl_cons,
      hfate, Fate.resolve_page_of_eq hepoch, hfetch]
    rfl
  rw [hfinal]
  exact ⟨htable, rfl, rfl, rfl, rfl⟩

/-- In every run at most one waiting ticket counts.  When all waiting tickets meet their
fates, the order makes no difference: the run ends as if only the ticket that counts had
met its fate, and what is reported of a ticket is what would have been reported of it at
once.  After two selections the table of the second one is shown. -/
theorem deliveries_commute (config : Config) (events : List Event) (fate : Text → Fate) :
    let run := (initial config).steps config events
    run.liveEntries.length ≤ 1 ∧
      (∀ order, order.Perm run.waiting →
        run.steps config (deliveries fate order) =
            ⟨(run.steps config (deliveries fate run.liveEntries)).state, []⟩ ∧
          (run.trace config (deliveries fate order)).map (·.report) =
            order.map fun entry =>
              (run.step config ((fate entry.1).event entry.1)).2) ∧
      ∀ first second earlier later page, fate second = .answered (.ok page) →
        let selected :=
          run.steps config [.act first (.select earlier), .act second (.select later)]
        ∀ order, order.Perm selected.waiting →
          let final := (selected.steps config (deliveries fate order)).state
          final.table? = some later ∧ final.columns = page.columns ∧
            final.rows = page.rows ∧ final.total = page.total ∧
            final.hasMore = page.hasMore := by
  intro run
  have hsound : run.Sound := sound_steps config events
  refine ⟨hsound.length_liveEntries_le, ?_, ?_⟩
  · intro order horder
    obtain ⟨hsteps, hreports⟩ := hsound.deliver_all config fate horder
    constructor
    · rw [hsteps, hsound.resolveAll_eq config fate horder, hsound.steps_liveEntries config fate]
    · rw [hreports]
      apply List.map_congr_left
      intro entry hentry
      have hticket := hsound.labels.ticket?_eq_some_iff.mpr (horder.mem_iff.mp hentry)
      rw [step_delivery config _ hticket]
  · intro first second earlier later page hfate selected order horder
    exact (hsound.step (.act first (.select earlier))).deliver_selected config fate second
      later hfate horder

end Run

end TableBrowser.Paging
