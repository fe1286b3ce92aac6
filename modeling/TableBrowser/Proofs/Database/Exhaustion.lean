import TableBrowser.Proofs.Database.Clock
import TableBrowser.Proofs.Database.Pages
import TableBrowser.Proofs.Paging.Loading

/-!
# Browsing a table to its end

A browser that keeps asking for more rows ends with all rows that match its filter, each once
and in the order that it asks for, if the table stays as it is and the filter is not about the
time.  The pages may be of any sizes.  A filter that is about the time can lose its first rows
while the browser is on its way, and then the offsets of later pages skip others.
-/

namespace TableBrowser

open TableBrowser.Filter TableBrowser.Paging TableBrowser.Sql

/-! ## Filters that are not about the time -/

/-- The clause of a filter that is not about the time is not about it either. -/
theorem GroupsSay.areTimeless {text : Text} {filter? : Option Predicate}
    {groups? : Option (List (List Comparison))} (hmeans : GroupsSay text filter? groups?)
    (htimeless : IsTimelessFilter filter?) : AreTimeless groups? := by
  rintro groups rfl group hgroup comparison hmem
  cases filter? with
  | none => cases hmeans
  | some predicate =>
      obtain ⟨condition, hcondition, heq⟩ := hmeans.exists_condition hgroup hmem
      rw [heq]
      exact htimeless predicate rfl condition hcondition

/-- A clock that stands still once a query has begun to look at rows. -/
def Clock.still (clock : Clock) (moment : Int) : Clock
  | 0 => clock 0
  | _ => moment

namespace Connection

variable {ε : Type} {connection : Connection} {table : Text} {contents : Int → Contents ε}
variable {filter? : Option Predicate} {moment : Int} {clock : Clock}

/-- A query that runs by a clock sees the same rows as at one moment: always if the table stays
as it is and the filter is not about the time, and otherwise if the clock stands still. -/
def SeesAlike (connection : Connection) (table : Text) (filter? : Option Predicate)
    (moment : Int) (clock : Clock) : Prop :=
  (connection.IsSteady table ∧ IsTimelessFilter filter?) ∨ ∀ n, clock n = moment

namespace SeesAlike

theorem number_eq (halike : connection.SeesAlike table filter? moment clock)
    (htyped : IsTypedFilter filter?) (n : Nat) :
    connection.number (clock n) (countText table (filter?.map (predicateText .sqlite))) [] =
      connection.number moment (countText table (filter?.map (predicateText .sqlite))) [] := by
  rcases halike with ⟨hsteady, htimeless⟩ | hstill
  · obtain ⟨groups?, hreads, hmeans⟩ := readsAs_statementRow true table htyped none false
    rw [rowText_countRow] at hreads
    exact hsteady.counts _ groups? hreads (hmeans.areTimeless htimeless) _ _
  · rw [hstill]

theorem rows_eq (halike : connection.SeesAlike table filter? moment clock)
    (htyped : IsTypedFilter filter?) (n : Nat) (orderBy? : Option Text)
    (direction? : Option Direction) (limit offset : Nat) :
    connection.rows (clock n) (pageText table (filter?.map (predicateText .sqlite)) orderBy?
        direction?) limit offset =
      connection.rows moment (pageText table (filter?.map (predicateText .sqlite)) orderBy?
        direction?) limit offset := by
  rcases halike with ⟨hsteady, htimeless⟩ | hstill
  · obtain ⟨groups?, hreads, hmeans⟩ :=
      readsAs_statementRow false table htyped (sortOrder? orderBy? direction?) true
    rw [rowText_pageRow] at hreads
    exact hsteady.lists _ groups? _ hreads (hmeans.areTimeless htimeless) _ _ _ _
  · rw [hstill]

theorem page_eq (halike : connection.SeesAlike table filter? moment clock)
    (htyped : IsTypedFilter filter?) {request : PageRequest}
    (hclause : request.clause? = filter?.map (predicateText .sqlite)) :
    (connection.source ⟨clock, .done⟩).page table request =
      (connection.source ⟨clock.still moment, .done⟩).page table request := by
  simp only [source, page, countRows, hclause, halike.number_eq htyped, halike.rows_eq htyped]
  rfl

theorem statementsRun_still (halike : connection.SeesAlike table filter? moment clock)
    (htyped : IsTypedFilter filter?) {request : PageRequest}
    (hclause : request.clause? = filter?.map (predicateText .sqlite))
    (hruns : connection.StatementsRun clock table request) :
    connection.StatementsRun (clock.still moment) table request := by
  obtain ⟨hthere, hcounts, hselects⟩ := hruns
  rw [hclause, halike.number_eq htyped] at hcounts
  rw [hclause] at hselects
  simp only [halike.rows_eq htyped] at hselects
  exact ⟨hthere, hclause ▸ hcounts, hclause ▸ hselects⟩

end SeesAlike

/-! ## Pages for a browser -/

/-- The pages for what a state shows are cut from one listing, by all clocks that see the same
as at one moment. -/
theorem Shows.exists_pages (hshows : connection.Shows table contents)
    (htyped : IsTypedFilter filter?) {state : State}
    (hclause : state.clause? = filter?.map (predicateText .sqlite)) (moment : Int) :
    ∃ listed, (contents moment).IsListing ((contents moment).matching filter?) state.sort?
        listed ∧
      ∀ clock, connection.SeesAlike table filter? moment clock →
        ∀ ticket : Ticket, ticket.AsksFor state →
          connection.StatementsRun clock table ticket.request →
          ∃ page, (connection.source ⟨clock, .done⟩).page table ticket.request = .ok page ∧
            IsPageOf (listed.map (contents moment).record) ticket.request.limit
              ticket.request.offset page := by
  let request : PageRequest :=
    ⟨0, 0, 0, state.sort?.map (·.column), state.sort?.map (·.direction), state.clause?, none⟩
  have hasked : request.clause? = filter?.map (predicateText .sqlite) := hclause
  obtain ⟨listed, hlisting, hpages⟩ := hshows.exists_listing htyped hasked moment
  have horder : sortOrder? request.orderBy? request.direction? = state.sort? := by
    simp only [request]
    cases state.sort? <;> rfl
  rw [horder] at hlisting
  refine ⟨listed, hlisting, fun clock halike ticket hasks hruns => ?_⟩
  have hasked : ticket.request.clause? = filter?.map (predicateText .sqlite) :=
    hasks.clause.trans hclause
  obtain ⟨page, hanswer, hcut⟩ := hpages (clock.still moment) ticket.request rfl
    ⟨hasks.clause, hasks.orderBy, hasks.direction⟩
    (halike.statementsRun_still htyped hasked hruns)
  refine ⟨page, (halike.page_eq htyped hasked).trans hanswer, ?_, ?_, hcut.hasMore⟩
  · rw [hcut.total, List.length_map, hlisting.perm.length_eq]
    rfl
  · rw [hcut.rows, List.map_take, List.map_drop]

/-- Later queries for what a state shows are answered, and see the same as at one moment. -/
structure Continues (connection : Connection) (table : Text) (filter? : Option Predicate)
    (moment : Int) (state : State) (clock : Clock) : Prop where
  alike : connection.SeesAlike table filter? moment clock
  runs : ∀ ticket : Ticket, ticket.AsksFor state →
    connection.StatementsRun clock table ticket.request

/-- For all tables and views, settings, sorts and filters of which the first page is answered,
and all further calls whose statements run: if the filter is not about the time and the table
stays as it is, or if all statements run at one moment, the rows are the front of one listing
of the rows of which the filter is true.  While there are more, asking for them adds at least
one, so that with enough calls there are no more; and then the rows are the whole listing, and
the offset and the total are its length. -/
theorem more_loads_listing (settings : List Setting) (hshows : connection.Shows table contents)
    (hfilter : ∀ predicate, filter? = some predicate →
      ∃ columns source, Predicate.read columns source = .ok predicate)
    {before loaded : State} {action : Action} (hopens : action.opensEpoch = true) {rows : Nat}
    {first : Clock}
    (hfirst : Controller.perform (.ofSettings settings) (connection.source ⟨first, .done⟩).page
      before action = (loaded, .ok (.applied rows)))
    (htable : loaded.table? = some table)
    (hclause : loaded.clause? = filter?.map (predicateText .sqlite))
    (halike : connection.SeesAlike table filter? moment first) :
    ∃ listed, (contents moment).IsListing ((contents moment).matching filter?) loaded.sort?
        listed ∧
      ∀ calls : List (Call Clock),
        (∀ clock, .more clock ∈ calls →
          connection.Continues table filter? moment loaded clock) →
        let state := Call.run (.ofSettings settings)
          (fun clock => (connection.source ⟨clock, .done⟩).page) loaded calls
        state.rows <+: listed.map (contents moment).record ∧
          (state.hasMore = true →
            ∀ clock, connection.Continues table filter? moment loaded clock →
              ∃ after added,
                Controller.perform (.ofSettings settings)
                    (connection.source ⟨clock, .done⟩).page state .more =
                  (after, .ok (.applied added)) ∧
                0 < added ∧ after.rows.length = state.rows.length + added) ∧
          (listed.length ≤ loaded.rows.length + calls.countP Call.isMore →
            state.hasMore = false) ∧
          (state.hasMore = false → state.rows = listed.map (contents moment).record ∧
            state.offset = listed.length ∧ state.total = listed.length) := by
  obtain ⟨listed, hlisting, hpages⟩ :=
    hshows.exists_pages (isTypedFilter_of_read hfilter) hclause moment
  have hsame {ticket : Ticket} (hasks : ticket.AsksFor loaded) : ticket.table = table :=
    Option.some.inj (hasks.table.symm.trans htable)
  have hserves : ∀ clock, connection.Continues table filter? moment loaded clock →
      Serves (connection.source ⟨clock, .done⟩).page loaded
        (listed.map (contents moment).record) := by
    intro clock hcontinues ticket hasks
    rw [hsame hasks]
    exact hpages clock hcontinues.alike ticket hasks (hcontinues.runs ticket hasks)
  have hloaded : loaded.HasLoaded loaded (listed.map (contents moment).record) := by
    refine State.hasLoaded_of_perform hopens hfirst fun ticket page hasks hanswer => ?_
    rw [hsame hasks] at hanswer
    obtain ⟨answered, hanswered, hpage⟩ :=
      hpages first halike ticket hasks (statementsRun_of_page hanswer)
    cases hanswer.symm.trans hanswered
    exact hpage
  refine ⟨listed, hlisting, fun calls hcalls => ?_⟩
  intro state
  obtain ⟨hstate, hgrown⟩ := hloaded.run (.ofSettings settings)
    fun clock hmem => hserves clock (hcalls clock hmem)
  have hlength : (listed.map (contents moment).record).length = listed.length :=
    List.length_map _
  refine ⟨hstate.rows, ?_, ?_, ?_⟩
  · intro hmore clock hclock
    obtain ⟨after, added, hperform, hadded, hafter, -⟩ :=
      hstate.perform_more (.ofSettings settings) hmore (hserves clock hclock)
    exact ⟨after, added, hperform, hadded, hafter⟩
  · intro henough
    rw [← Bool.not_eq_true, hstate.hasMore]
    omega
  · intro hmore
    rw [← hlength]
    exact hstate.complete hmore

end Connection

/-! ## Three rows and three times -/

namespace Database

def idleBrowser (size : Nat) : State :=
  { State.idle size 0 with table? := some "t" }

def filteredBrowser (size : Nat) (clause : Text) (page : Page) : State :=
  Controller.merge (.ofSettings [.fixedSize size])
    { State.idle size 1 with table? := some "t", clause? := some clause } page .first

/-- What is asked for under a filter of the browser. -/
def filterRequest (size offset : Nat) (clause : Text) : PageRequest :=
  ⟨1, size, offset, none, none, some clause, some 30⟩

variable {source : Text → PageRequest → Except FetchFailure Page} {size : Nat} {clause : Text}
variable {page next : Page}

theorem perform_filter (hpage : source "t" (filterRequest size 0 clause) = .ok page) :
    Controller.perform (.ofSettings [.fixedSize size]) source (idleBrowser size)
        (.filter clause) =
      (filteredBrowser size clause page, .ok (.applied page.rows.length)) := by
  have hstart : Controller.start (.ofSettings [.fixedSize size]) (idleBrowser size)
      (.filter clause) =
        ({ State.idle size 1 with
            table? := some "t", clause? := some clause, isLoading := true },
          some ⟨.first, "t", filterRequest size 0 clause⟩) := rfl
  rw [Controller.perform, hstart]
  dsimp only
  rw [hpage, Controller.settle_page_of_eq rfl]
  rfl

theorem perform_more_filteredBrowser (hmore : page.hasMore = true)
    (hpage : source "t" (filterRequest (max size 1) page.rows.length clause) = .ok next) :
    Controller.perform (.ofSettings [.fixedSize size]) source
        (filteredBrowser size clause page) .more =
      (Controller.merge (.ofSettings [.fixedSize size]) (filteredBrowser size clause page) next
        .next, .ok (.applied next.rows.length)) :=
  Controller.perform_more_of_page rfl hmore rfl hpage

def threeTimes : Table :=
  .ofRows "t" [⟨"x", "TEXT"⟩] [[.text "1970-01-01 00:00:01"], [.text "1970-01-01 00:00:05"],
    [.text "1970-01-01 00:00:09"]]

/-- What the table of three times shows at a moment. -/
def timesShown (moment : Int) : Contents Entry :=
  Source.contents ⟨threeTimes, false⟩ moment

def timesPages (moment : Int) : Text → PageRequest → Except FetchFailure Page :=
  ((Database.mk [.table threeTimes] []).connection.source ⟨atOnce moment, .done⟩).page

/-- Time passes between two pages of times that lie ahead, and the first of these falls
behind.  The second page begins too late, and a row is not loaded although it matches at both
moments. -/
theorem clock_loses_rows :
    ∃ predicate loaded after,
      Predicate.read [⟨"x", "TEXT"⟩] "x>@now" = .ok predicate ∧
      Controller.perform (.ofSettings [.fixedSize 2]) (timesPages 0) (idleBrowser 2)
        (.filter (predicateText .sqlite predicate)) = (loaded, .ok (.applied 2)) ∧
      loaded.hasMore = true ∧
      Controller.perform (.ofSettings [.fixedSize 2]) (timesPages 3) loaded .more =
        (after, .ok (.applied 0)) ∧
      after.hasMore = false ∧
      ∃ row, row ∈ (timesShown 0).matching (some predicate) ∧
        row ∈ (timesShown 3).matching (some predicate) ∧
        (timesShown 3).record row ∉ after.rows := by
  let last : Entry := ⟨3, [.text "1970-01-01 00:00:09"]⟩
  have hlast (moment : Int) : last ∈ (timesShown moment).rows :=
    List.mem_of_getElem? (i := 2) rfl
  obtain ⟨predicate, hread, hpredicate⟩ : ∃ predicate,
      Predicate.read [⟨"x", "TEXT"⟩] "x>@now" = .ok predicate ∧
        (predicateText .sqlite predicate, predicate.truth ((timesShown 0).truth · last),
          predicate.truth ((timesShown 3).truth · last)) =
          ("x > datetime('now')".toList, some true, some true) :=
    exists_ok (by decide +kernel)
  obtain ⟨page, hpage, hshown⟩ : ∃ page,
      timesPages 0 "t" (filterRequest 2 0 "x > datetime('now')") = .ok page ∧
        (page.hasMore, page.rows.map (·.map shownText?)) =
          (true, [[some "1970-01-01 00:00:01".toList], [some "1970-01-01 00:00:05".toList]]) :=
    exists_ok (by decide +kernel)
  obtain ⟨next, hnext, hmore⟩ : ∃ next,
      timesPages 3 "t" (filterRequest 2 2 "x > datetime('now')") = .ok next ∧
        (next.hasMore, next.rows.length) = (false, 0) :=
    exists_ok (by decide +kernel)
  simp only [Prod.mk.injEq] at hpredicate hshown hmore
  obtain ⟨htext, hfirst, hsecond⟩ := hpredicate
  have htwo : page.rows.length = 2 := by
    rw [← List.length_map (·.map shownText?), hshown.2]
    rfl
  have hbehind : timesPages 3 "t"
      (filterRequest (max 2 1) page.rows.length "x > datetime('now')") = .ok next := by
    rw [htwo]
    exact hnext
  have hperform := perform_more_filteredBrowser hshown.1 hbehind
  rw [hmore.2] at hperform
  refine ⟨predicate, _, _, hread, ?_, hshown.1, hperform, hmore.1, last,
    Contents.mem_matching_some.mpr ⟨hlast 0, hfirst⟩,
    Contents.mem_matching_some.mpr ⟨hlast 3, hsecond⟩, fun hmem => ?_⟩
  · rw [htext, perform_filter hpage, htwo]
  · rw [List.length_eq_zero_iff] at hmore
    have hrows : _ ∈ page.rows ++ next.rows := hmem
    rw [hmore.2, List.append_nil] at hrows
    have hrow := List.mem_map_of_mem (f := fun row => row.map shownText?) hrows
    rw [hshown.2] at hrow
    exact absurd hrow (by decide +kernel)

end Database

open TableBrowser.Database in
/-- Each statement runs at a moment of its own. -/
theorem Connection.more_loads_listing_threeRows :
    ∃ loaded, Controller.perform (.ofSettings [.fixedSize 1])
          (threeRows.connection.source ⟨fun n => n, .done⟩).page (idleBrowser 1)
          (.filter "x > 1") = (loaded, .ok (.applied 1)) ∧
      let state := Call.run (.ofSettings [.fixedSize 1])
        (fun clock => (threeRows.connection.source ⟨clock, .done⟩).page) loaded
        [.cancel, .more fun n => n + 7]
      state.hasMore = false ∧ state.rows.length = 2 ∧ state.offset = 2 ∧ state.total = 2 := by
  obtain ⟨predicate, hread, htext, hpropositions, hmatching⟩ := read_aboveOne
  obtain ⟨page, hpage, hone⟩ : ∃ page,
      (threeRows.connection.source ⟨fun n => n, .done⟩).page "t" (filterRequest 1 0 "x > 1") =
        .ok page ∧ page.rows.length = 1 :=
    exists_ok (by decide +kernel)
  have hfirst := perform_filter hpage
  rw [hone] at hfirst
  refine ⟨filteredBrowser 1 "x > 1" page, hfirst, ?_⟩
  intro state
  have hfilter : ∀ other, some predicate = some other →
      ∃ columns source, Predicate.read columns source = .ok other :=
    fun _ heq => Option.some.inj heq ▸ hread
  have hclause : (filteredBrowser 1 "x > 1" page).clause? =
      (some predicate).map (predicateText .sqlite) := by
    rw [Option.map_some, htext]
    rfl
  have htimeless : IsTimelessFilter (some predicate) := by
    rintro _ ⟨⟩ condition hcondition
    have hmem := List.mem_map_of_mem (f := Proposition.ofCondition) hcondition
    rw [hpropositions, List.mem_singleton] at hmem
    rw [hmem]
    exact ⟨by decide, nofun⟩
  have halike (clock : Clock) : threeRows.connection.SeesAlike "t" (some predicate) 0 clock :=
    .inl ⟨connection_isSteady threeRows "t", htimeless⟩
  have hruns : threeRows.connection.StatementsRun (fun n => n + 7) "t"
      (requestOf "x > 1" none none) := by
    decide +kernel
  have hcalls : ∀ clock, .more clock ∈ [Call.cancel, .more fun n : Nat => (n : Int) + 7] →
      threeRows.connection.Continues "t" (some predicate) 0 (filteredBrowser 1 "x > 1" page)
        clock := by
    intro clock hmem
    obtain rfl : clock = fun n : Nat => (n : Int) + 7 := by simpa using hmem
    exact ⟨halike _, fun ticket hasks =>
      statementsRun_of_asksAlike ⟨hasks.clause, hasks.orderBy, hasks.direction⟩ hruns⟩
  obtain ⟨listed, hlisting, hloads⟩ :=
    more_loads_listing [.fixedSize 1] threeRows_shows hfilter rfl hfirst rfl hclause (halike _)
  have hlength : listed.length = 2 := hlisting.perm.length_eq.trans hmatching
  obtain ⟨-, -, henough, hall⟩ := hloads _ hcalls
  have hmore : state.hasMore = false := by
    apply henough
    show listed.length ≤ page.rows.length + 1
    rw [hlength, hone]
  obtain ⟨hrows, hoffset, htotal⟩ := hall hmore
  refine ⟨hmore, ?_, hoffset.trans hlength, htotal.trans hlength⟩
  rw [hrows, List.length_map, hlength]

end TableBrowser
