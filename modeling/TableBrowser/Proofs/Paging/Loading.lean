import TableBrowser.Proofs.Paging.Operations
import TableBrowser.Proofs.Paging.Settings

/-!
# Loading page after page

A source answers with the pages of one list of records.  After the first page the rows
of a browser are the front of this list, and each further page makes the front longer.
So the whole list is loaded after finitely many pages, and calls that leave the pages on
their way behind change nothing of this.
-/

namespace TableBrowser.Paging

/-! ## Pages of a list -/

/-- A page with the records of a list from an offset on, up to a limit. -/
structure IsPageOf (records : List Record) (limit offset : Nat) (page : Page) : Prop where
  total : page.total = records.length
  rows : page.rows = (records.drop offset).take limit
  hasMore : page.hasMore = true ↔ offset + page.rows.length < page.total

namespace IsPageOf

variable {records : List Record} {limit offset : Nat} {page : Page}

theorem length_rows (hpage : IsPageOf records limit offset page) :
    page.rows.length = min limit (page.total - offset) := by
  rw [hpage.rows, hpage.total, List.length_take, List.length_drop]

/-- The rows of a page end at or before the end of the list, unless the page begins
behind it. -/
theorem add_length_le (hpage : IsPageOf records limit offset page) :
    offset + page.rows.length ≤ max offset page.total := by
  have hlength := hpage.length_rows
  omega

/-- Behind the last record there is neither a row nor a mark for more. -/
theorem behind_total (hpage : IsPageOf records limit offset page)
    (hbehind : page.total ≤ offset) : page.rows = [] ∧ page.hasMore = false := by
  have hlength := hpage.length_rows
  have hnone : page.rows.length = 0 := by omega
  refine ⟨List.length_eq_zero_iff.mp hnone, Bool.eq_false_iff.mpr fun hmore => ?_⟩
  have hlt := hpage.hasMore.mp hmore
  omega

end IsPageOf

/-- All requests for what a state shows are answered with pages of one list. -/
def Serves (source : Text → PageRequest → Except FetchFailure Page) (state : State)
    (records : List Record) : Prop :=
  ∀ ticket : Ticket, ticket.AsksFor state → ∃ page,
    source ticket.table ticket.request = .ok page ∧
      IsPageOf records ticket.request.limit ticket.request.offset page

/-! ## Actions that run to their end -/

namespace Controller

variable {config : Config} {source : Text → PageRequest → Except FetchFailure Page}
variable {before state loaded : State}

/-- An action that opens an epoch and is applied takes in the page that its ticket
asks for, and the ticket asks for what the state then shows. -/
theorem exists_page_of_perform {action : Action} (hopens : action.opensEpoch = true)
    {rows : Nat} (hperform : perform config source before action = (loaded, .ok (.applied rows))) :
    ∃ opened ticket page, before.Opens opened (some ticket) ∧ ticket.AsksFor loaded ∧
      source ticket.table ticket.request = .ok page ∧
      loaded = merge config (landed opened .first) page .first := by
  have hstart := start_opens config before hopens
  rcases hsplit : start config before action with ⟨opened, _ | ticket⟩
  · rw [perform, hsplit] at hperform
    cases hperform
  · rw [hsplit] at hstart
    simp only [perform, hsplit] at hperform
    have hepoch := hstart.requestEpoch ticket rfl
    cases hreply : source ticket.table ticket.request with
    | error failure =>
        rw [hreply, settle_failure_of_eq hepoch] at hperform
        cases hperform
    | ok page =>
        rw [hreply, settle_page_of_eq hepoch, hstart.fetch ticket rfl] at hperform
        have hlanded : ticket.AsksFor (landed opened .first) :=
          (hstart.asksFor ticket rfl).of_sameContent (landed_sameContent opened .first)
        obtain ⟨rfl, -⟩ := Prod.mk.inj hperform
        exact ⟨opened, ticket, page, hstart, merge_asksFor hlanded page .first, hreply, rfl⟩

theorem perform_more_of_not_hasMore (hmore : state.hasMore = false) :
    perform config source state .more = (state, .ok .skipped) := by
  cases htable : state.table? with
  | none => simp only [perform, start, loadMore, htable]
  | some table => simp [perform, start, loadMore, htable, hmore]

theorem perform_more_of_page {table : Text} (htable : state.table? = some table)
    (hmore : state.hasMore = true) (hwaited : state.isLoadingMore = false) {page : Page}
    (hpage : source table (requestAt config state state.offset) = .ok page) :
    perform config source state .more =
      (merge config state page .next, .ok (.applied page.rows.length)) := by
  have hasks : (state.hasMore && !state.isLoadingMore) = true := by rw [hmore, hwaited]; rfl
  have hstart : start config state .more = ({ state with isLoadingMore := true },
      some ⟨.next, table, requestAt config { state with isLoadingMore := true } state.offset⟩) := by
    simp only [start, loadMore, htable, if_pos hasks]
  have hlanded : landed { state with isLoadingMore := true } .next = state := by
    rw [landed, ← hwaited]
  rw [perform, hstart]
  show settle config _ _ (source table (requestAt config state state.offset)) = _
  rw [hpage, settle_page_of_eq rfl, hlanded]

end Controller

/-! ## Calls after the first page -/

/-- A call on a controller, which runs to its end before the next one. -/
inductive Call (μ : Type)
  /-- Asks for more rows at a time. -/
  | more (time : μ)
  | cancel
  deriving DecidableEq

namespace Call

variable {μ : Type}

/-- The source is asked at the time of the call. -/
def apply (config : Config) (source : μ → Text → PageRequest → Except FetchFailure Page)
    (state : State) : Call μ → State
  | .more time => (Controller.perform config (source time) state .more).1
  | .cancel => Controller.cancel state

/-- All calls in turn. -/
def run (config : Config) (source : μ → Text → PageRequest → Except FetchFailure Page)
    (state : State) (calls : List (Call μ)) : State :=
  calls.foldl (apply config source) state

def isMore : Call μ → Bool
  | .more _ => true
  | .cancel => false

end Call

namespace State

/-- The rows of a state are the front of a list, and the state still shows what another
one does. -/
structure HasLoaded (state first : State) (records : List Record) : Prop where
  table : state.table? = first.table?
  sort : state.sort? = first.sort?
  clause : state.clause? = first.clause?
  selected : state.table?.isSome = true
  rows : state.rows <+: records
  offset : state.offset = state.rows.length
  total : state.total = records.length
  hasMore : state.hasMore = true ↔ state.rows.length < records.length
  pageSize : 0 < state.pageSize
  waited : state.isLoadingMore = false

namespace HasLoaded

variable {state first : State} {records : List Record}

theorem asksFor (hloaded : state.HasLoaded first records) {ticket : Ticket}
    (hasks : ticket.AsksFor state) : ticket.AsksFor first where
  table := hloaded.table.symm.trans hasks.table
  orderBy := by rw [hasks.orderBy, hloaded.sort]
  direction := by rw [hasks.direction, hloaded.sort]
  clause := hasks.clause.trans hloaded.clause

/-- Without more to load the rows are the whole list. -/
theorem complete (hloaded : state.HasLoaded first records) (hmore : state.hasMore = false) :
    state.rows = records ∧ state.offset = records.length ∧ state.total = records.length := by
  have hle : records.length ≤ state.rows.length := by
    apply Nat.le_of_not_lt
    intro hlt
    rw [hloaded.hasMore.mpr hlt] at hmore
    cases hmore
  have hrows : state.rows = records :=
    hloaded.rows.eq_of_length (Nat.le_antisymm hloaded.rows.length_le hle)
  exact ⟨hrows, by rw [hloaded.offset, hrows], hloaded.total⟩

/-- A page behind the rows makes the front longer. -/
theorem merge_next (config : Config) (hloaded : state.HasLoaded first records) {page : Page}
    (hpage : IsPageOf records state.pageSize state.offset page) :
    (Controller.merge config state page .next).HasLoaded first records where
  table := hloaded.table
  sort := hloaded.sort
  clause := hloaded.clause
  selected := hloaded.selected
  rows := by
    have hsplit : state.rows ++ records.drop state.offset = records := by
      rw [hloaded.offset]
      exact List.prefix_iff_eq_append.mp hloaded.rows
    show state.rows ++ page.rows <+: records
    rw [← hsplit, hpage.rows, List.prefix_append_right_inj]
    exact List.take_prefix _ _
  offset := by
    show state.offset + page.rows.length = (state.rows ++ page.rows).length
    rw [List.length_append, hloaded.offset]
  total := hpage.total
  hasMore := by
    show page.hasMore = true ↔ (state.rows ++ page.rows).length < records.length
    rw [hpage.hasMore, hpage.total, List.length_append, hloaded.offset]
  pageSize := hloaded.pageSize
  waited := hloaded.waited

/-- While there are more rows, asking for them adds at least one. -/
theorem perform_more (config : Config) (hloaded : state.HasLoaded first records)
    (hmore : state.hasMore = true)
    {source : Text → PageRequest → Except FetchFailure Page}
    (hserves : Serves source first records) :
    ∃ after added, Controller.perform config source state .more = (after, .ok (.applied added)) ∧
      0 < added ∧ after.rows.length = state.rows.length + added ∧
      after.HasLoaded first records := by
  obtain ⟨table, htable⟩ := Option.isSome_iff_exists.mp hloaded.selected
  have hasks : (Ticket.mk .next table
      (Controller.requestAt config state state.offset)).AsksFor state :=
    Controller.requestAt_asksFor .next state.offset htable
  obtain ⟨page, hanswer, hpage⟩ := hserves _ (hloaded.asksFor hasks)
  refine ⟨_, _, Controller.perform_more_of_page htable hmore hloaded.waited hanswer, ?_,
    List.length_append, hloaded.merge_next config hpage⟩
  have hlength := hpage.length_rows
  have hlt := hloaded.hasMore.mp hmore
  have hsize : 0 < (Controller.requestAt config state state.offset).limit := hloaded.pageSize
  have hoffset : (Controller.requestAt config state state.offset).offset = state.rows.length :=
    hloaded.offset
  have htotal := hpage.total
  dsimp only at hlength
  omega

/-- One call keeps the front of the list, and if it asks for more rows and the list is not
yet complete, the front grows. -/
theorem apply {μ : Type} (config : Config) (hloaded : state.HasLoaded first records)
    {source : μ → Text → PageRequest → Except FetchFailure Page} {call : Call μ}
    (hserves : ∀ time, call = .more time → Serves (source time) first records) :
    (call.apply config source state).HasLoaded first records ∧
      min records.length (state.rows.length + [call].countP Call.isMore) ≤
        (call.apply config source state).rows.length := by
  cases call with
  | cancel =>
      refine ⟨{ hloaded with waited := rfl }, Nat.min_le_right _ _⟩
  | more time =>
      cases hmore : state.hasMore with
      | false =>
          -- The call is skipped, and the front already is the whole list.
          have hskipped : (Call.more time).apply config source state = state := by
            rw [Call.apply, Controller.perform_more_of_not_hasMore hmore]
          rw [hskipped, (hloaded.complete hmore).1]
          exact ⟨hloaded, Nat.min_le_left _ _⟩
      | true =>
          obtain ⟨after, added, hperform, hadded, hlength, hafter⟩ :=
            hloaded.perform_more config hmore (hserves time rfl)
          have happly : (Call.more time).apply config source state = after := by
            rw [Call.apply, hperform]
          rw [happly]
          refine ⟨hafter, Nat.le_trans (Nat.min_le_right _ _) ?_⟩
          rw [hlength]
          exact Nat.add_le_add_left hadded _

/-- All calls keep the front of the list, and it grows with each that asks for more. -/
theorem run {μ : Type} (config : Config) (hloaded : state.HasLoaded first records)
    {source : μ → Text → PageRequest → Except FetchFailure Page} {calls : List (Call μ)}
    (hserves : ∀ time, .more time ∈ calls → Serves (source time) first records) :
    (Call.run config source state calls).HasLoaded first records ∧
      min records.length (state.rows.length + calls.countP Call.isMore) ≤
        (Call.run config source state calls).rows.length := by
  -- The state is general: what the first call leaves is where the other calls begin.
  induction calls generalizing state with
  | nil => exact ⟨hloaded, Nat.min_le_right _ _⟩
  | cons call calls ih =>
      obtain ⟨hafter, hgrown⟩ := hloaded.apply config
        fun time (hcall : call = .more time) => hserves time (hcall ▸ List.mem_cons_self)
      obtain ⟨hlast, hlength⟩ :=
        ih hafter fun time hmem => hserves time (List.mem_cons_of_mem _ hmem)
      refine ⟨hlast, Nat.le_trans ?_ hlength⟩
      rw [← List.singleton_append, List.countP_append]
      omega

end HasLoaded

/-- The first page of an action that opens an epoch is the front of the list. -/
theorem hasLoaded_of_perform {settings : List Setting} {before first : State}
    {source : Text → PageRequest → Except FetchFailure Page} {records : List Record}
    {action : Action} (hopens : action.opensEpoch = true) {rows : Nat}
    (hperform : Controller.perform (.ofSettings settings) source before action =
      (first, .ok (.applied rows)))
    (hpages : ∀ (ticket : Ticket) (page : Page), ticket.AsksFor first →
      source ticket.table ticket.request = .ok page →
        IsPageOf records ticket.request.limit ticket.request.offset page) :
    first.HasLoaded first records := by
  obtain ⟨opened, ticket, page, hopened, hasks, hanswer, rfl⟩ :=
    Controller.exists_page_of_perform hopens hperform
  have hpage := hpages ticket page hasks hanswer
  rw [hopened.requestOffset ticket rfl] at hpage
  exact {
    table := rfl
    sort := rfl
    clause := rfl
    selected := Option.isSome_iff_exists.mpr ⟨_, hasks.table⟩
    rows := by
      show page.rows <+: records
      rw [hpage.rows]
      exact List.take_prefix _ _
    offset := rfl
    total := hpage.total
    hasMore := by rw [← hpage.total, ← Nat.zero_add (List.length _)]; exact hpage.hasMore
    pageSize := Config.nextSize_pos settings page.total
    waited := hopened.loadingMore }

end State

end TableBrowser.Paging
