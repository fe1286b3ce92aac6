import TableBrowser.Proofs.Paging.Moves
import TableBrowser.Proofs.Paging.Trace

/-!
# The loading flags and the waiting tickets

Every event keeps the tickets and the flags of a run in agreement.  A new epoch
leaves all waiting tickets behind, so it starts from cleared flags.  Within an
epoch a ticket is given out only when none counts, and its reply or its loss
clears the flag that it set.
-/

namespace TableBrowser.Paging.Run

variable {config : Config} {run next : Run} {label : Text} {ticket : Ticket} {after : State}

/-! ## Live tickets -/

theorem live_append (front back : List (Text × Ticket)) :
    live ⟨after, front ++ back⟩ = live ⟨after, front⟩ ++ live ⟨after, back⟩ := by
  simp only [live, List.map_append, List.filter_append]

theorem live_cons_of_eq {back : List (Text × Ticket)}
    (hepoch : ticket.request.epoch = after.epoch) :
    live ⟨after, (label, ticket) :: back⟩ = ticket :: live ⟨after, back⟩ := by
  simp [live, hepoch]

theorem live_cons_of_ne {back : List (Text × Ticket)}
    (hepoch : ticket.request.epoch ≠ after.epoch) :
    live ⟨after, (label, ticket) :: back⟩ = live ⟨after, back⟩ := by
  simp [live, hepoch]

theorem live_eq_nil {waiting : List (Text × Ticket)}
    (hstale : ∀ entry ∈ waiting, entry.2.request.epoch ≠ after.epoch) :
    live ⟨after, waiting⟩ = [] := by
  apply List.filter_eq_nil_iff.mpr
  intro ticket hticket
  obtain ⟨entry, hentry, rfl⟩ := List.mem_map.mp hticket
  simpa using hstale entry hentry

theorem live_congr {waiting : List (Text × Ticket)} {before : State}
    (hepoch : after.epoch = before.epoch) :
    live ⟨after, waiting⟩ = live ⟨before, waiting⟩ := by
  simp only [live, hepoch]

theorem Sound.live_length_le (hsound : run.Sound) : run.live.length ≤ 1 := by
  rw [← List.length_map (fun ticket : Ticket => ticket.fetch), hsound.awaited]
  cases run.state.awaited? <;> simp

theorem Sound.awaited?_eq_some_iff (hsound : run.Sound) {fetch : Fetch} :
    run.state.awaited? = some fetch ↔ ∃ ticket ∈ run.live, ticket.fetch = fetch := by
  rw [← Option.mem_toList, ← hsound.awaited, List.mem_map]

theorem Sound.awaited?_eq_none_iff (hsound : run.Sound) :
    run.state.awaited? = none ↔ run.live = [] := by
  rw [← Option.toList_eq_nil_iff, ← hsound.awaited, List.map_eq_nil_iff]

/-- Without the live ticket no waiting ticket counts. -/
theorem Sound.live_others_eq_nil (hsound : run.Sound) (hmem : (label, ticket) ∈ run.waiting)
    (hepoch : ticket.request.epoch = run.state.epoch) :
    live ⟨run.state, run.others label⟩ = [] := by
  obtain ⟨front, back, hwaiting, hothers, -⟩ := hsound.labels.split hmem
  -- The live ticket alone uses up the one place among the live tickets.
  have hsplit : run.live = live ⟨run.state, front⟩ ++ ticket :: live ⟨run.state, back⟩ := by
    calc run.live = live ⟨run.state, front ++ (label, ticket) :: back⟩ := by rw [← hwaiting]
      _ = live ⟨run.state, front⟩ ++ ticket :: live ⟨run.state, back⟩ := by
        rw [live_append, live_cons_of_eq hepoch]
  have hlength := hsound.live_length_le
  rw [hsplit, List.length_append, List.length_cons] at hlength
  rw [hothers, live_append, List.append_eq_nil_iff,
    ← List.length_eq_zero_iff, ← List.length_eq_zero_iff]
  omega

theorem Sound.live_others_eq_live (hsound : run.Sound) (hmem : (label, ticket) ∈ run.waiting)
    (hepoch : ticket.request.epoch ≠ run.state.epoch) :
    live ⟨run.state, run.others label⟩ = run.live := by
  obtain ⟨front, back, hwaiting, hothers, -⟩ := hsound.labels.split hmem
  calc live ⟨run.state, run.others label⟩
      = live ⟨run.state, front⟩ ++ live ⟨run.state, back⟩ := by rw [hothers, live_append]
    _ = live ⟨run.state, front ++ (label, ticket) :: back⟩ := by
      rw [live_append, live_cons_of_ne hepoch]
    _ = run.live := by rw [← hwaiting]

/-- The page of the live ticket goes behind the rows, also if it is a first page:
while one is on its way there are no rows. -/
theorem Sound.merge_rows (hsound : run.Sound) (hlive : ticket ∈ run.live) (config : Config)
    (page : Page) :
    (Controller.merge config (Controller.landed run.state ticket.fetch) page
      ticket.fetch).rows = run.state.rows ++ page.rows := by
  cases hfetch : ticket.fetch with
  | first =>
      have hloading : run.state.isLoading = true := by
        rw [← State.awaited?_eq_first_iff, hsound.awaited?_eq_some_iff]
        exact ⟨ticket, hlive, hfetch⟩
      rw [(hsound.cleared hloading).1]
      rfl
  | next => rfl

/-! ## Steps keep the agreement -/

theorem Sound.of_live_eq_nil (hlabels : run.LabelsDistinct)
    (hepochs : ∀ entry ∈ run.waiting, entry.2.request.epoch ≤ run.state.epoch)
    (hlive : run.live = []) (hawaited : run.state.awaited? = none)
    (htable : run.state.hasMore = true → run.state.table?.isSome = true) : run.Sound where
  labels := hlabels
  epochs := hepochs
  awaited := by rw [hlive, hawaited]; rfl
  exclusive := fun _ => (State.awaited?_eq_none_iff.mp hawaited).2
  asksFor := by simp [hlive]
  offset := by simp [hlive]
  cleared := by simp [(State.awaited?_eq_none_iff.mp hawaited).1]
  table := htable

theorem Sound.newEpoch (hsound : run.Sound) (hepoch : after.epoch = run.state.epoch + 1)
    (hawaited : after.awaited? = none)
    (htable : after.hasMore = true → after.table?.isSome = true) :
    Sound ⟨after, run.waiting⟩ := by
  have hlt : ∀ entry ∈ run.waiting, entry.2.request.epoch < after.epoch := by
    intro entry hentry
    have hle := hsound.epochs entry hentry
    omega
  apply Sound.of_live_eq_nil
  · exact hsound.labels
  · exact fun entry hentry => Nat.le_of_lt (hlt entry hentry)
  · exact live_eq_nil fun entry hentry => Nat.ne_of_lt (hlt entry hentry)
  · exact hawaited
  · exact htable

/-- A ticket may be given out when no waiting ticket counts. -/
theorem Sound.ask (hsound : run.Sound) (label : Text)
    (hle : run.state.epoch ≤ after.epoch)
    (hstale : ∀ entry ∈ run.waiting, entry.2.request.epoch ≠ after.epoch)
    (hepoch : ticket.request.epoch = after.epoch)
    (hawaited : after.awaited? = some ticket.fetch)
    (hexclusive : after.isLoading = true → after.isLoadingMore = false)
    (hasks : ticket.AsksFor after) (hoffset : ticket.request.offset = after.offset)
    (hcleared : after.isLoading = true → after.rows = [] ∧ after.hasMore = false) :
    Sound ⟨after, run.others label ++ [(label, ticket)]⟩ := by
  have hlive : live ⟨after, run.others label ++ [(label, ticket)]⟩ = [ticket] := by
    rw [live_append, live_cons_of_eq hepoch,
      live_eq_nil fun entry hentry => hstale entry (mem_others.mp hentry).1]
    rfl
  constructor
  case labels => exact hsound.labels.others_concat label ticket
  case epochs =>
    intro entry hentry
    rw [List.mem_append, List.mem_singleton] at hentry
    rcases hentry with hold | rfl
    · exact Nat.le_trans (hsound.epochs entry (mem_others.mp hold).1) hle
    · exact Nat.le_of_eq hepoch
  case awaited => rw [hlive, hawaited]; rfl
  case exclusive => exact hexclusive
  case asksFor => rw [hlive]; simpa using hasks
  case offset => rw [hlive]; simpa using hoffset
  case cleared => exact hcleared
  case table => exact fun _ => by rw [hasks.table]; rfl

theorem Sound.landed_awaited? (hsound : run.Sound) (hlive : ticket ∈ run.live) :
    (Controller.landed run.state ticket.fetch).awaited? = none := by
  have hawaited : run.state.awaited? = some ticket.fetch :=
    hsound.awaited?_eq_some_iff.mpr ⟨ticket, hlive, rfl⟩
  rw [State.awaited?_eq_none_iff]
  cases hfetch : ticket.fetch with
  | first =>
      rw [hfetch, State.awaited?_eq_first_iff] at hawaited
      exact ⟨rfl, hsound.exclusive hawaited⟩
  | next =>
      rw [hfetch, State.awaited?_eq_next_iff] at hawaited
      exact ⟨hawaited.1, rfl⟩

/-- The live ticket goes, and with it the flag that it set. -/
theorem Sound.land (hsound : run.Sound) (hmem : (label, ticket) ∈ run.waiting)
    (hepoch : ticket.request.epoch = run.state.epoch)
    (hafter : after.epoch = run.state.epoch)
    (hawaited : after.awaited? = (Controller.landed run.state ticket.fetch).awaited?)
    (htable : after.table? = run.state.table?) :
    Sound ⟨after, run.others label⟩ := by
  have hlive : ticket ∈ run.live := mem_live.mpr ⟨⟨label, hmem⟩, hepoch⟩
  apply Sound.of_live_eq_nil
  · exact hsound.labels.others label
  · intro entry hentry
    exact Nat.le_trans (hsound.epochs entry (mem_others.mp hentry).1) (Nat.le_of_eq hafter.symm)
  · exact (live_congr hafter).trans (hsound.live_others_eq_nil hmem hepoch)
  · exact hawaited.trans (hsound.landed_awaited? hlive)
  · intro _
    rw [htable, (hsound.asksFor ticket hlive).table]
    rfl

/-- A ticket that no longer counts goes without a trace. -/
theorem Sound.discard (hsound : run.Sound) (hmem : (label, ticket) ∈ run.waiting)
    (hepoch : ticket.request.epoch ≠ run.state.epoch) :
    Sound ⟨run.state, run.others label⟩ := by
  have hlive := hsound.live_others_eq_live hmem hepoch
  constructor
  case labels => exact hsound.labels.others label
  case epochs => exact fun entry hentry => hsound.epochs entry (mem_others.mp hentry).1
  case awaited => rw [hlive]; exact hsound.awaited
  case exclusive => exact hsound.exclusive
  case asksFor => rw [hlive]; exact hsound.asksFor
  case offset => rw [hlive]; exact hsound.offset
  case cleared => exact hsound.cleared
  case table => exact hsound.table

theorem awaited?_of_opens_none {before : State} (hopens : before.Opens after none) :
    after.awaited? = none :=
  State.awaited?_eq_none_iff.mpr ⟨hopens.loading, hopens.loadingMore⟩

theorem Moves.sound {event : Event} {report : Report} (hsound : run.Sound)
    (hmoves : run.Moves config event report next) : next.Sound := by
  cases hmoves with
  | opened label _ hopens | closed hopens =>
      apply hsound.newEpoch hopens.epoch (awaited?_of_opens_none hopens)
      rw [hopens.hasMore]
      exact fun hmore => absurd hmore Bool.false_ne_true
  | openedAsking label _ hopens =>
      apply hsound.ask label
      case hle => exact hopens.epoch ▸ Nat.le_succ _
      case hstale => exact hsound.ne_epoch_of_opens hopens
      case hepoch => exact hopens.requestEpoch _ rfl
      case hawaited =>
        rw [hopens.fetch _ rfl]
        exact State.awaited?_eq_first_iff.mpr hopens.loading
      case hexclusive => exact fun _ => hopens.loadingMore
      case hasks => exact hopens.asksFor _ rfl
      case hoffset => rw [hopens.requestOffset _ rfl, hopens.offset]
      case hcleared => exact fun _ => ⟨hopens.rows, hopens.hasMore⟩
  | skippedMore label | replyUnknown reply _ | dropUnknown _ => exact hsound
  | askedMore label hasks =>
      have hnone := hsound.awaited?_eq_none_of_asksMore hasks
      have hloading : _ = false := hasks.loading.trans (State.awaited?_eq_none_iff.mp hnone).1
      apply hsound.ask label
      case hle => exact Nat.le_of_eq hasks.epoch.symm
      case hstale => exact hsound.ne_epoch_of_asksMore hasks
      case hepoch => exact hasks.requestEpoch.trans hasks.epoch.symm
      case hawaited =>
        rw [hasks.fetch]
        exact State.awaited?_eq_next_iff.mpr ⟨hloading, hasks.loadingMore⟩
      case hexclusive => simp [hloading]
      case hasks => exact hasks.asksFor.of_sameContent hasks.content
      case hoffset => exact hasks.requestOffset.trans hasks.content.offset.symm
      case hcleared => simp [hloading]
  | applied page hmem hepoch =>
      exact hsound.land hmem hepoch (by simp) (by simp [State.awaited?])
        (by simp [(Controller.landed_sameContent run.state _).table])
  | failed failure hmem hepoch | dropped hmem hepoch =>
      exact hsound.land hmem hepoch (by simp) rfl
        (Controller.landed_sameContent run.state _).table
  | superseded reply hmem hepoch | droppedStale hmem hepoch =>
      exact hsound.discard hmem hepoch
  | cancelled => exact hsound.newEpoch rfl rfl hsound.table

theorem Sound.step (hsound : run.Sound) (event : Event) :
    (run.step config event).1.Sound :=
  (hsound.moves config event).sound hsound

theorem sound_initial (config : Config) : (initial config).Sound :=
  Sound.of_live_eq_nil List.nodup_nil (fun _ hentry => absurd hentry List.not_mem_nil)
    rfl rfl (fun hmore => absurd hmore Bool.false_ne_true)

theorem sound_steps (config : Config) (events : List Event) :
    ((initial config).steps config events).Sound :=
  steps_induction (fun _ event hsound => hsound.step event) (sound_initial config) events

/-! ## Flags and phase of every run -/

/-- In every run at most one waiting ticket counts, and the flags and the phase
tell whether there is one and for which page. -/
theorem flags_tell_live_ticket (config : Config) (events : List Event) :
    let run := (initial config).steps config events
    run.live.length ≤ 1 ∧
      (run.state.isLoading = true ↔ ∃ ticket ∈ run.live, ticket.fetch = .first) ∧
      (run.state.isLoadingMore = true ↔ ∃ ticket ∈ run.live, ticket.fetch = .next) ∧
      ¬ (run.state.isLoading = true ∧ run.state.isLoadingMore = true) ∧
      (run.state.isLoading = true → run.state.rows = [] ∧ run.state.hasMore = false) ∧
      (run.state.hasMore = true → run.state.table?.isSome = true) ∧
      (run.state.phase = .idle ↔ run.state.table? = none) ∧
      (run.state.phase = .loading ↔ ∃ ticket ∈ run.live, ticket.fetch = .first) ∧
      (run.state.phase = .loadingMore ↔ ∃ ticket ∈ run.live, ticket.fetch = .next) ∧
      (run.state.phase = .ready ↔ run.state.table? ≠ none ∧ run.live = []) := by
  intro run
  have hsound : run.Sound := sound_steps config events
  have hexclusive : ¬ (run.state.isLoading = true ∧ run.state.isLoadingMore = true) := by
    rintro ⟨hloading, hmore⟩
    rw [hsound.exclusive hloading] at hmore
    contradiction
  have hfirst : run.state.isLoading = true ↔ ∃ ticket ∈ run.live, ticket.fetch = .first := by
    rw [← State.awaited?_eq_first_iff, hsound.awaited?_eq_some_iff]
  have hnext : run.state.isLoadingMore = true ↔ ∃ ticket ∈ run.live, ticket.fetch = .next := by
    rw [← hsound.awaited?_eq_some_iff, State.awaited?_eq_next_iff]
    cases hloading : run.state.isLoading <;> simp_all
  have hselected : run.state.table? = none → run.state.awaited? = none := by
    intro htable
    rw [hsound.awaited?_eq_none_iff, List.eq_nil_iff_forall_not_mem]
    intro ticket hticket
    have hasks := (hsound.asksFor ticket hticket).table
    rw [htable] at hasks
    contradiction
  refine ⟨hsound.live_length_le, hfirst, hnext, hexclusive, hsound.cleared, hsound.table,
    ?_, ?_, ?_, ?_⟩
  · rw [State.phase_eq_idle_iff]
    exact ⟨fun hidle => hidle.2, fun htable => ⟨hselected htable, htable⟩⟩
  · rw [State.phase_eq_loading_iff, hsound.awaited?_eq_some_iff]
  · rw [State.phase_eq_loadingMore_iff, hsound.awaited?_eq_some_iff]
  · rw [State.phase_eq_ready_iff, hsound.awaited?_eq_none_iff, and_comm]

end TableBrowser.Paging.Run
