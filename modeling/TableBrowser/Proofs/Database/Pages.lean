import TableBrowser.Proofs.Database.Answers
import TableBrowser.Proofs.Filter.Reading

/-!
# Pages of a table

A page is answered by two statements, of which one counts the rows that match and the other
lists those of the page.  All pages of a table under one filter and sort that are selected at
one moment are cut from one listing of the rows that match then.  The number of rows is that
of the moment in which they were counted, and the mark for further rows is told from it.
-/

namespace TableBrowser

open TableBrowser.Database (integerBound)
open TableBrowser.Filter TableBrowser.Paging TableBrowser.Sql

theorem isTypedFilter_of_read {filter? : Option Predicate}
    (hfilter : ∀ predicate, filter? = some predicate →
      ∃ columns source, Predicate.read columns source = .ok predicate) :
    IsTypedFilter filter? := by
  intro predicate heq
  obtain ⟨columns, source, hread⟩ := hfilter predicate heq
  exact Predicate.isTyped_of_read hread

namespace Connection

variable {ε : Type} {connection : Connection} {table : Text} {contents : Int → Contents ε}
variable {filter? : Option Predicate}

/-- The requests ask for rows under the same clause in the same order. -/
structure AsksAlike (left right : PageRequest) : Prop where
  clause : left.clause? = right.clause?
  orderBy : left.orderBy? = right.orderBy?
  direction : left.direction? = right.direction?

/-- A page is cut from a listing, and its mark is told from a number that was counted. -/
structure IsCut (contents : Contents ε) (listed : List ε) (total limit offset : Nat)
    (page : Page) : Prop where
  columns : page.columns = contents.columns
  total : page.total = total
  rows : page.rows = ((listed.drop offset).take limit).map contents.record
  hasMore : page.hasMore = true ↔ offset + page.rows.length < page.total

/-- All pages of a moment are cut from one listing. -/
theorem Shows.exists_listing (hshows : connection.Shows table contents)
    (htyped : IsTypedFilter filter?) {request : PageRequest}
    (hclause : request.clause? = filter?.map (predicateText .sqlite)) (moment : Int) :
    ∃ listed, (contents moment).IsListing ((contents moment).matching filter?)
        (sortOrder? request.orderBy? request.direction?) listed ∧
      ∀ clock other, clock 2 = moment → AsksAlike other request →
        connection.StatementsRun clock table other →
        ∃ page, (connection.source ⟨clock, .done⟩).page table other = .ok page ∧
          IsCut (contents moment) listed ((contents (clock 1)).matching filter?).length
            other.limit other.offset page := by
  obtain ⟨listed, hlisting, hcuts⟩ :=
    hshows.rows_pageText htyped request.orderBy? request.direction? moment
  refine ⟨listed, hlisting, ?_⟩
  rintro clock other rfl halike ⟨hthere, ⟨count, hcount⟩, ⟨⟨columns, rows⟩, hrows⟩⟩
  refine ⟨_, source_page_of_done (page_eq_ok hthere hcount hrows), ?_⟩
  rw [halike.clause, hclause] at hcount hrows
  rw [halike.orderBy, halike.direction] at hrows
  obtain ⟨rfl, rfl⟩ := hcuts _ _ _ _ hrows
  have htotal := hshows.number_countText htyped hcount
  subst htotal
  refine ⟨rfl, Int.toNat_natCast _, List.map_map, ?_⟩
  simp only [decide_eq_true_iff, List.length_map]

/-- A page that is answered tells that its statements run. -/
theorem statementsRun_of_page {clock : Clock} {request : PageRequest}
    {page : Page}
    (hpage : (connection.source ⟨clock, .done⟩).page table request = .ok page) :
    connection.StatementsRun clock table request := by
  have hanswered : ∃ page, connection.page clock table request = .ok page := by
    rw [source] at hpage
    dsimp only at hpage
    cases hresult : connection.page clock table request with
    | ok page => exact ⟨page, rfl⟩
    | error fault =>
        rw [hresult] at hpage
        cases htimeout : request.timeoutSeconds? <;> rw [htimeout] at hpage <;> cases hpage
  obtain ⟨page, hanswer⟩ := hanswered
  simp only [Connection.page, ensureTable] at hanswer
  cases hthere : connection.hasTable (clock 0) table with
  | error fault =>
      rw [hthere] at hanswer
      cases hanswer
  | ok isThere =>
      cases isThere with
      | false =>
          rw [hthere] at hanswer
          cases hanswer
      | true =>
          cases hcount : connection.number (clock 1) (countText table request.clause?) [] with
          | error message =>
              simp only [hthere, countRows, hcount] at hanswer
              cases hanswer
          | ok count =>
              cases hrows : connection.rows (clock 2) (pageText table request.clause?
                  request.orderBy? request.direction?) request.limit
                  (min request.offset maxOffset) with
              | error message =>
                  simp only [hthere, countRows, hcount, hrows] at hanswer
                  cases hanswer
              | ok found => exact ⟨hthere, ⟨count, hcount⟩, ⟨found, hrows⟩⟩

/-- Wherever its statements run, a page is cut from one listing of the rows that are sought when
it is selected, and its total is the number of the rows that are sought when it is counted. -/
def Fetches (connection : Connection) (table : Text) (contents : Int → Contents ε)
    (request : PageRequest) (sought : Int → List ε) : Prop :=
  ∀ moment, ∃ listed, (contents moment).IsListing (sought moment)
      (sortOrder? request.orderBy? request.direction?) listed ∧
    ∀ clock, clock 2 = moment → ∀ limit offset,
      connection.StatementsRun clock table { request with limit := limit, offset := offset } →
      ∃ page, (connection.source ⟨clock, .done⟩).page table
            { request with limit := limit, offset := offset } = .ok page ∧
        page.total = (sought (clock 1)).length ∧
        page.rows = ((listed.drop offset).take limit).map (contents moment).record

/-- The rows that are sought by a filter are those of which it is true. -/
theorem Shows.fetches (hshows : connection.Shows table contents)
    (htyped : IsTypedFilter filter?) {request : PageRequest}
    (hclause : request.clause? = filter?.map (predicateText .sqlite)) :
    connection.Fetches table contents request fun moment => (contents moment).matching filter? := by
  intro moment
  obtain ⟨listed, hlisting, hpages⟩ := hshows.exists_listing htyped hclause moment
  refine ⟨listed, hlisting, fun clock hclock limit offset hruns => ?_⟩
  obtain ⟨page, hfetch, hcut⟩ := hpages clock { request with limit := limit, offset := offset }
    hclock ⟨rfl, rfl, rfl⟩ hruns
  exact ⟨page, hfetch, hcut.total, hcut.rows⟩

/-- For all tables and views, filters, sorts, limits and offsets, and all moments at which the
statements of a page run: the page has the rows from its offset on, up to its limit, of one
listing of the rows of which the filter is true when they are selected, in the order that is
asked for.  The listing depends on neither limit nor offset.  The total is the number of rows
of which the filter is true when they are counted, there are more exactly if the rows of the
page end before it, and no sum leaves 64 bits. -/
theorem fetch_cuts_listing (hshows : connection.Shows table contents)
    (hfilter : ∀ predicate, filter? = some predicate →
      ∃ columns source, Predicate.read columns source = .ok predicate)
    {request : PageRequest} (hclause : request.clause? = filter?.map (predicateText .sqlite))
    (moment : Int) :
    ∃ listed, (contents moment).IsListing ((contents moment).matching filter?)
        (sortOrder? request.orderBy? request.direction?) listed ∧
      ∀ clock, clock 2 = moment → ∀ limit < UInt32.size, ∀ offset < UInt64.size,
        connection.StatementsRun clock table { request with limit := limit, offset := offset } →
        ∃ page, (connection.source ⟨clock, .done⟩).page table
              { request with limit := limit, offset := offset } = .ok page ∧
          page.columns = (contents moment).columns ∧
          page.total = ((contents (clock 1)).matching filter?).length ∧
          page.rows = ((listed.drop offset).take limit).map (contents moment).record ∧
          (page.hasMore = true ↔ offset + page.rows.length < page.total) ∧
          page.total < integerBound ∧ offset + page.rows.length < UInt64.size ∧
          (((contents moment).matching filter?).length ≤ offset → page.rows = []) ∧
          (page.total ≤ offset → page.hasMore = false) := by
  obtain ⟨listed, hlisting, hpages⟩ :=
    hshows.exists_listing (isTypedFilter_of_read hfilter) hclause moment
  refine ⟨listed, hlisting, fun clock hclock limit _ offset hoffset hruns => ?_⟩
  obtain ⟨page, hfetch, hcolumns, htotal, hrows, hmore⟩ :=
    hpages clock { request with limit := limit, offset := offset } hclock ⟨rfl, rfl, rfl⟩ hruns
  dsimp only at hrows hmore
  have hbound (moment : Int) : ((contents moment).matching filter?).length < integerBound :=
    Nat.lt_of_le_of_lt ((contents moment).length_matching_le filter?) (hshows.fits moment)
  have hlength : page.rows.length = min limit (listed.length - offset) := by
    rw [hrows, List.length_map, List.length_take, List.length_drop]
  have hlisted := hlisting.perm.length_eq
  have hfits := hbound moment
  have hhalf : 2 * integerBound = UInt64.size := by decide
  refine ⟨page, hfetch, hcolumns, htotal, hrows, hmore, htotal ▸ hbound _, by omega, ?_, ?_⟩
  · intro hbehind
    exact List.length_eq_zero_iff.mp (by omega)
  · intro hbehind
    rw [Bool.eq_false_iff, ne_eq, hmore]
    omega

/-! ## Three rows -/

theorem exists_eq_ok_iff {α β : Type} {result : Except α β} :
    (∃ b, result = .ok b) ↔ result.toOption.isSome = true := by
  cases result with
  | error failure => exact ⟨fun ⟨_, heq⟩ => (nomatch heq), fun hsome => (nomatch hsome)⟩
  | ok b => exact ⟨fun _ => rfl, fun _ => ⟨b, rfl⟩⟩

theorem statementsRun_iff {clock : Clock} {request : PageRequest} :
    connection.StatementsRun clock table request ↔
      connection.hasTable (clock 0) table = .ok true ∧
      (connection.number (clock 1) (countText table request.clause?) []).toOption.isSome = true ∧
      (connection.rows (clock 2)
        (pageText table request.clause? request.orderBy? request.direction?) request.limit
        (min request.offset maxOffset)).toOption.isSome = true := by
  rw [← exists_eq_ok_iff, ← exists_eq_ok_iff]
  exact ⟨fun hruns => ⟨hruns.1, hruns.2, hruns.3⟩, fun ⟨hthere, hcounts, hselects⟩ =>
    ⟨hthere, hcounts, hselects⟩⟩

instance (connection : Connection) (clock : Clock) (table : Text) (request : PageRequest) :
    Decidable (connection.StatementsRun clock table request) :=
  decidable_of_iff' _ statementsRun_iff

end Connection

namespace Database

theorem exists_ok {α β γ : Type} {result : Except α β} {f : β → γ} {c : γ}
    (hmap : result.toOption.map f = some c) : ∃ b, result = .ok b ∧ f b = c := by
  cases result with
  | error failure => cases hmap
  | ok b => exact ⟨b, rfl, Option.some.inj hmap⟩

theorem exists_error {α β : Type} {result : Except α β}
    (hnone : result.toOption.isNone = true) : ∃ failure, result = .error failure := by
  cases result with
  | error failure => exact ⟨failure, rfl⟩
  | ok b => cases hnone

def threeNumbers : Table :=
  .ofRows "t" [⟨"x", "INTEGER"⟩] [[.integer 1], [.integer 2], [.integer 3]]

def threeRows : Database :=
  ⟨[.table threeNumbers], []⟩

/-- A page of other rows is answered like a page of a database in memory that asks alike. -/
theorem statementsRun_of_asksAlike {db : Database} {clock : Clock} {table : Text}
    {request other : PageRequest} (halike : Connection.AsksAlike other request)
    (hruns : db.connection.StatementsRun clock table request) :
    db.connection.StatementsRun clock table other := by
  obtain ⟨hthere, hcounts, ⟨found, hselects⟩⟩ := hruns
  refine ⟨hthere, ?_, ?_⟩
  · rwa [halike.clause]
  · rw [halike.clause, halike.orderBy, halike.direction]
    exact exists_rows_of_rows hselects _ _

theorem threeRows_shows :
    threeRows.connection.Shows "t" (Source.contents ⟨threeNumbers, false⟩) := by
  refine connection_shows (fun table hmem => ?_) rfl
  cases List.mem_singleton.mp hmem
  exact Table.isKept_ofRows _ _ (by decide)

/-- A request for up to ten rows under a clause. -/
def requestOf (clause : Text) (orderBy? : Option Text) (direction? : Option Direction) :
    PageRequest :=
  ⟨0, 10, 0, orderBy?, direction?, some clause, none⟩

def shownNumber? : Json → Option Int
  | .integer n => some n
  | _ => none

def shownText? : Json → Option Text
  | .string t => some t
  | _ => none

/-- Two branches over the numbers of the rows are visited one after the other, and then the
rows are not in the order of the table. -/
theorem branches_leave_table_order :
    ∃ predicate page, Predicate.read [⟨"x", "INTEGER"⟩] "rowid>2|rowid<2" = .ok predicate ∧
      threeRows.connection.StatementsRun (atOnce 0) "t"
        (requestOf (predicateText .sqlite predicate) none none) ∧
      (threeRows.connection.source ⟨atOnce 0, .done⟩).page "t"
        (requestOf (predicateText .sqlite predicate) none none) = .ok page ∧
      page.rows ≠
        ((((Source.contents ⟨threeNumbers, false⟩ 0).matching (some predicate)).drop 0).take
          10).map (Source.contents ⟨threeNumbers, false⟩ 0).record := by
  obtain ⟨predicate, hread, hpredicate⟩ : ∃ predicate,
      Predicate.read [⟨"x", "INTEGER"⟩] "rowid>2|rowid<2" = .ok predicate ∧
        (predicateText .sqlite predicate,
          ((Source.contents ⟨threeNumbers, false⟩ 0).matching (some predicate)).map (·.cells)) =
          ("rowid > 2 OR rowid < 2".toList, [[.integer 1], [.integer 3]]) :=
    exists_ok (by decide +kernel)
  obtain ⟨htext, hmatching⟩ := Prod.mk.inj hpredicate
  obtain ⟨page, hfetch, hrows⟩ : ∃ page,
      (threeRows.connection.source ⟨atOnce 0, .done⟩).page "t"
          (requestOf "rowid > 2 OR rowid < 2".toList none none) = .ok page ∧
        page.rows.map (·.map shownNumber?) = [[some 3], [some 1]] :=
    exists_ok (by decide +kernel)
  have hruns : threeRows.connection.StatementsRun (atOnce 0) "t"
      (requestOf "rowid > 2 OR rowid < 2".toList none none) := by
    decide +kernel
  refine ⟨predicate, page, hread, htext ▸ hruns, htext ▸ hfetch, fun heq => ?_⟩
  have hcells : page.rows = [[.integer 1], [.integer 3]].map (·.map Cell.toJson) := by
    rw [heq, ← hmatching, List.map_map, List.drop_zero, List.take_of_length_le]
    · rfl
    · rw [← List.length_map (·.cells), hmatching]
      decide
  rw [hcells] at hrows
  exact absurd hrows (by decide)

theorem read_aboveOne :
    ∃ predicate, (∃ columns source, Predicate.read columns source = .ok predicate) ∧
      predicateText .sqlite predicate = "x > 1".toList ∧
      predicate.conditions.map Proposition.ofCondition = [⟨"x", .greater, .number "1"⟩] ∧
      ((Source.contents ⟨threeNumbers, false⟩ 0).matching (some predicate)).length = 2 := by
  obtain ⟨predicate, hread, hpredicate⟩ : ∃ predicate,
      Predicate.read [⟨"x", "INTEGER"⟩] "x>1" = .ok predicate ∧
        (predicateText .sqlite predicate, predicate.conditions.map Proposition.ofCondition,
          ((Source.contents ⟨threeNumbers, false⟩ 0).matching (some predicate)).length) =
          ("x > 1".toList, [⟨"x", .greater, .number "1"⟩], 2) :=
    exists_ok (by decide +kernel)
  simp only [Prod.mk.injEq] at hpredicate
  exact ⟨predicate, ⟨_, _, hread⟩, hpredicate⟩

end Database

/-- The rows are counted and selected at two moments, and the offset is behind all of them. -/
theorem Connection.fetch_cuts_listing_behind_end :
    ∃ page, (Database.threeRows.connection.source ⟨fun n => if n = 2 then 5 else 0, .done⟩).page
          "t" { Database.requestOf "x > 1" (some "x".toList) (some .descending) with
            offset := UInt64.size - 1 } = .ok page ∧
      page.total = 2 ∧ page.rows = [] ∧ page.hasMore = false := by
  obtain ⟨predicate, hread, htext, -, hlength⟩ := Database.read_aboveOne
  have hfilter : ∀ other, some predicate = some other →
      ∃ columns source, Predicate.read columns source = .ok other :=
    fun _ heq => Option.some.inj heq ▸ hread
  have hclause : (Database.requestOf "x > 1" (some "x".toList) (some .descending)).clause? =
      (some predicate).map (predicateText .sqlite) := by
    rw [Option.map_some, htext]
    rfl
  have hruns : Database.threeRows.connection.StatementsRun (fun n => if n = 2 then 5 else 0) "t"
      { Database.requestOf "x > 1" (some "x".toList) (some .descending) with
        limit := 10, offset := UInt64.size - 1 } := by
    decide +kernel
  obtain ⟨listed, -, hpages⟩ :=
    fetch_cuts_listing Database.threeRows_shows hfilter hclause 5
  obtain ⟨page, hfetch, -, htotal, -, -, -, -, hnone, hless⟩ :=
    hpages _ rfl 10 (by decide) (UInt64.size - 1) (by decide) hruns
  have htwo : page.total = 2 := htotal.trans hlength
  have hle : page.total ≤ UInt64.size - 1 := by
    rw [htwo]
    decide
  refine ⟨page, hfetch, htwo, hnone ?_, hless hle⟩
  exact Nat.le_trans (Contents.length_matching_le _ _) (by decide +kernel)

end TableBrowser
