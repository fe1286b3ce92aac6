import TableBrowser.Database.Plan

/-!
# Which visits a plan can take

A plan takes the walk of one of the visits that it weighs.  A visit is a scan, a search
along one order, or one search for each branch of an OR; a search along an order uses a
term about what the order is by in the first place, and says that this is fixed only if
the term equates it with a constant.
-/

namespace TableBrowser.Database

open TableBrowser.Sql TableBrowser.Paging

/-! ## Searches -/

/-- A term with which a search goes on. -/
structure Search.GoesOn (search next : Search) (term : Term) : Prop where
  isNew : next.isNew = false
  fixesFirst : next.fixesFirst = true →
    search.fixesFirst = true ∨ search.isNew = true ∧ term.kind = .equal

/-- A visit along what an order is by uses a term about the first part of it. -/
theorem mem_searchesFrom_cons {field : Field} {sought : Sought} {left : Estimate}
    {rest : List (Sought × Estimate)} {search : Search} {visit : Visit}
    (hvisit : visit ∈ searchesFrom field ((sought, left) :: rest) search) :
    ∃ term ∈ field.terms ++ field.around, term.sought? = some sought ∧
      ∃ next, search.GoesOn next term ∧
        (visit = next.visit field ∨ visit ∈ searchesFrom field rest next) := by
  obtain ⟨⟨term, place⟩, husable, hvisit⟩ := List.mem_flatMap.mp hvisit
  obtain ⟨hmem, hterm⟩ := List.mem_filter.mp husable
  have hsought : term.sought? = some sought := by
    simp only [Bool.and_eq_true, beq_iff_eq] at hterm
    exact hterm.1
  refine ⟨term, List.mem_of_getElem? (List.mk_mem_zipIdx_iff_getElem?.mp hmem), hsought, ?_⟩
  dsimp only at hvisit
  split at hvisit
  · next hkind =>
      refine ⟨_, ⟨rfl, fun hfixes => ?_⟩, List.mem_cons.mp hvisit⟩
      exact ((Bool.or_eq_true _ _).mp hfixes).imp_right fun hnew => ⟨hnew, hkind⟩
  · exact ⟨_, by exact ⟨rfl, Or.inl⟩, List.mem_cons.mp hvisit⟩
  · split at hvisit
    · exact ⟨_, by exact ⟨rfl, Or.inl⟩, .inl (List.mem_singleton.mp hvisit)⟩
    · rcases List.mem_cons.mp hvisit with hrange | hceiling
      · exact ⟨_, by exact ⟨rfl, Or.inl⟩, .inl hrange⟩
      · obtain ⟨⟨ceiling, above⟩, -, heq⟩ := List.mem_map.mp hceiling
        exact ⟨_, by exact ⟨rfl, Or.inl⟩, .inl heq.symm⟩
  · split at hvisit
    · cases hvisit
    · exact ⟨_, by exact ⟨rfl, Or.inl⟩, .inl (List.mem_singleton.mp hvisit)⟩
  · cases hvisit

theorem walk_of_mem_searchesFrom {field : Field} {columns : List (Sought × Estimate)}
    {search : Search} {visit : Visit} (hvisit : visit ∈ searchesFrom field columns search)
    (hnew : search.isNew = false) :
    visit.walk = .along field.order ∧
      (visit.fixesFirst = true → search.fixesFirst = true) := by
  induction columns generalizing search with
  | nil => cases hvisit
  | cons first rest ih =>
      obtain ⟨term, -, -, next, hnext, hvisit⟩ := mem_searchesFrom_cons hvisit
      have hfixes : next.fixesFirst = true → search.fixesFirst = true := by
        intro hnextFixes
        rcases hnext.fixesFirst hnextFixes with hfixes | ⟨hisNew, -⟩
        · exact hfixes
        · rw [hnew] at hisNew
          cases hisNew
      rcases hvisit with rfl | hvisit
      · exact ⟨rfl, hfixes⟩
      · obtain ⟨hwalk, hrest⟩ := ih hvisit hnext.isNew
        exact ⟨hwalk, fun hvisitFixes => hfixes (hrest hvisitFixes)⟩

/-- A search along an order uses a term about what the order is by in the first place, and
fixes that only by an equation. -/
structure Visit.Searches (visit : Visit) (order : Order) (terms : List Term) : Prop where
  walk : visit.walk = .along order
  uses : ∃ term ∈ terms, ∃ first ∈ order.columns.head?, term.sought? = some first.1
  fixes : visit.fixesFirst = true → ∃ term ∈ terms, ∃ first ∈ order.columns.head?,
    term.kind = .equal ∧ term.sought? = some first.1

theorem searches_of_mem_searches {subject : Subject} {terms around : List Term} {order : Order}
    {visit : Visit} (hvisit : visit ∈ searches subject terms around order) :
    visit.Searches order (terms ++ around) := by
  unfold searches at hvisit
  cases hcolumns : order.columns with
  | nil =>
      rw [hcolumns] at hvisit
      cases hvisit
  | cons first rest =>
      rw [hcolumns] at hvisit
      obtain ⟨term, hterm, hsought, next, hnext, hvisit⟩ := mem_searchesFrom_cons hvisit
      have hfixes : next.fixesFirst = true → term.kind = .equal := by
        intro hnextFixes
        rcases hnext.fixesFirst hnextFixes with hstart | ⟨-, hkind⟩
        · cases hstart
        · exact hkind
      have huses : ∃ term ∈ terms ++ around, ∃ first ∈ order.columns.head?,
          term.sought? = some first.1 := ⟨term, hterm, first, by rw [hcolumns]; rfl, hsought⟩
      rcases hvisit with rfl | hvisit
      · exact ⟨rfl, huses, fun hvisitFixes =>
          ⟨term, hterm, first, by rw [hcolumns]; rfl, hfixes hvisitFixes, hsought⟩⟩
      · obtain ⟨hwalk, hrest⟩ := walk_of_mem_searchesFrom hvisit hnext.isNew
        exact ⟨hwalk, huses, fun hvisitFixes =>
          ⟨term, hterm, first, by rw [hcolumns]; rfl, hfixes (hrest hvisitFixes), hsought⟩⟩

/-! ## Visits that are weighed -/

/-- Whether an order may bring the rows in the order of what is asked for. -/
def Order.helps (order : Order) (key? : Option Sought) : Bool :=
  key? == some .number || key? == order.columns.head?.map (·.1)

/-- A visit is a scan of an order that helps or a search along an order. -/
inductive IsVisit (orders : List Order) (terms : List Term) (key? : Option Sought)
    (visit : Visit) : Prop
  | scan (order : Order) (hmem : order ∈ orders) (hwalk : visit.walk = .along order)
    (hfixes : visit.fixesFirst = false)
    (hhelps : (order.isByNumber || order.helps key?) = true)
  | search (order : Order) (hmem : order ∈ orders) (hsearches : visit.Searches order terms)

theorem isVisit_of_mem_visitsOf {subject : Subject} {orders : List Order} {terms : List Term}
    {key? : Option Sought} {visit : Visit}
    (hvisit : visit ∈ visitsOf subject orders terms key?) :
    IsVisit orders terms key? visit := by
  obtain ⟨order, horder, hvisit⟩ := List.mem_flatMap.mp hvisit
  obtain ⟨made, hmade, rfl⟩ := List.mem_map.mp hvisit
  rcases List.mem_append.mp hmade with hscan | hsearch
  · split at hscan
    · next hhelps =>
        rw [List.mem_singleton.mp hscan]
        exact .scan order horder rfl rfl hhelps
    · cases hscan
  · have hsearches := searches_of_mem_searches hsearch
    rw [List.append_nil] at hsearches
    exact .search order horder ⟨hsearches.walk, hsearches.uses, hsearches.fixes⟩

theorem Visit.mem_of_mem_dropSuperseded {visit other : Visit} {visits : List Visit}
    (hmem : other ∈ visit.dropSuperseded visits) : other ∈ visits := by
  induction visits with
  | nil => cases hmem
  | cons first rest ih =>
      rw [dropSuperseded] at hmem
      split at hmem
      · exact hmem
      · split at hmem
        · exact List.mem_cons_of_mem _ (ih hmem)
        · rcases List.mem_cons.mp hmem with rfl | hrest
          · exact List.mem_cons_self
          · exact List.mem_cons_of_mem _ (ih hrest)

theorem Visit.mem_of_place? {visit other : Visit} {visits placed : List Visit}
    (hplace : visit.place? visits = some placed) (hmem : other ∈ placed) :
    other = visit ∨ other ∈ visits := by
  induction visits generalizing placed with
  | nil =>
      cases hplace
      exact .inl (List.mem_singleton.mp hmem)
  | cons first rest ih =>
      rw [place?] at hplace
      split at hplace
      · cases hplace
      · split at hplace
        · cases hplace
          rcases List.mem_cons.mp hmem with rfl | hrest
          · exact .inl rfl
          · exact .inr (List.mem_cons_of_mem _ (mem_of_mem_dropSuperseded hrest))
        · obtain ⟨inner, hinner, rfl⟩ := Option.map_eq_some_iff.mp hplace
          rcases List.mem_cons.mp hmem with rfl | hrest
          · exact .inr List.mem_cons_self
          · exact (ih hinner hrest).imp_right (List.mem_cons_of_mem _)

/-- A visit that is of use is one of those that are weighed. -/
theorem Visit.mem_of_mem_useful {visits : List Visit} {visit : Visit}
    (hmem : visit ∈ useful visits) : visit ∈ visits := by
  have hfold : ∀ (rest kept : List Visit),
      visit ∈ rest.foldl (fun kept visit => (visit.place? kept).getD kept) kept →
        visit ∈ kept ∨ visit ∈ rest := by
    intro rest
    induction rest with
    | nil => exact fun kept hkept => .inl hkept
    | cons first rest ih =>
        intro kept hkept
        rcases ih _ hkept with hplaced | hrest
        · dsimp only at hplaced
          cases hplace : first.place? kept with
          | none =>
              rw [hplace] at hplaced
              exact .inl hplaced
          | some placed =>
              rw [hplace] at hplaced
              rcases mem_of_place? hplace hplaced with rfl | hold
              · exact .inr List.mem_cons_self
              · exact .inl hold
        · exact .inr (List.mem_cons_of_mem _ hrest)
  rcases hfold visits [] hmem with hnil | hvisits
  · cases hnil
  · exact hvisits

/-- A fold that keeps what it has or takes what comes ends with its start or with an item. -/
theorem mem_of_foldl_eq_some {α : Type} {choice : Option α → α → Option α}
    (hchoice : ∀ kept item, choice kept item = kept ∨ choice kept item = some item)
    {items : List α} {start : Option α} {last : α}
    (hfold : items.foldl choice start = some last) : start = some last ∨ last ∈ items := by
  induction items generalizing start with
  | nil => exact .inl hfold
  | cons first rest ih =>
      rcases ih hfold with hfirst | hrest
      · rcases hchoice start first with hkept | htaken
        · exact .inl (hkept.symm.trans hfirst)
        · cases htaken.symm.trans hfirst
          exact .inr List.mem_cons_self
      · exact .inr (List.mem_cons_of_mem _ hrest)

theorem Weighed.mem_of_best? {all : List Weighed} {best : Weighed} (hbest : best? all = some best) :
    best ∈ all := by
  have hchosen := mem_of_foldl_eq_some ?_ hbest
  · rcases hchosen with hnone | hmem
    · cases hnone
    · exact hmem
  · intro kept weighed
    cases kept with
    | none => exact .inr rfl
    | some kept =>
        by_cases hbetter : weighed.isBetter kept
        · exact .inr (if_pos hbetter)
        · exact .inl (if_neg hbetter)

theorem mem_of_bestVisit? {visits : List Visit} {visit : Visit}
    (hbest : bestVisit? visits = some visit) : visit ∈ visits := by
  obtain ⟨weighed, hweighed, rfl⟩ := Option.map_eq_some_iff.mp hbest
  obtain ⟨visit, hvisit, rfl⟩ := List.mem_map.mp (Weighed.mem_of_best? hweighed)
  exact hvisit

/-! ## One search for each branch -/

theorem mapM_eq_some_imp {α β : Type} {f : α → Option β} {items : List α} {results : List β}
    (hmap : items.mapM f = some results) : ∀ item ∈ items, (f item).isSome = true := by
  induction items generalizing results with
  | nil => nofun
  | cons first rest ih =>
      rw [List.mapM_cons] at hmap
      obtain ⟨result, hfirst, hmap⟩ := Option.bind_eq_some_iff.mp hmap
      obtain ⟨others, hrest, -⟩ := Option.bind_eq_some_iff.mp hmap
      intro item hitem
      rcases List.mem_cons.mp hitem with rfl | hitem
      · rw [hfirst]
        rfl
      · exact ih hrest item hitem

/-- Branches are only visited one by one if there is at least one and a search for each. -/
theorem branchesVisit?_eq_some {subject : Subject} {orders : List Order} {terms : List Term}
    {branches : List (List Term)} {visit : Visit}
    (hvisit : branchesVisit? subject orders terms branches = some visit) :
    visit.walk = .branches (branches.map (branchOrder subject orders)) ∧ branches ≠ [] ∧
      ∀ branch ∈ branches, ∃ order ∈ orders, ∃ found,
        found ∈ searches subject branch terms order := by
  obtain ⟨estimates, hestimates, hvisit⟩ := Option.bind_eq_some_iff.mp hvisit
  refine ⟨?_, ?_, fun branch hbranch => ?_⟩
  · cases estimates with
    | nil => cases hvisit
    | cons first rest =>
        cases hvisit
        rfl
  · rintro rfl
    cases hestimates
    cases hvisit
  · have hsome := mapM_eq_some_imp hestimates branch hbranch
    have hne : (orders.flatMap fun order => searches subject branch terms order) ≠ [] := by
      intro hnil
      rw [hnil] at hsome
      cases hsome
    obtain ⟨found, hfound⟩ := List.exists_mem_of_ne_nil _ hne
    obtain ⟨order, horder, hfound⟩ := List.mem_flatMap.mp hfound
    exact ⟨order, horder, found, hfound⟩

/-! ## The plan that is chosen -/

/-- The visits that are weighed for a clause and an order. -/
def weighedVisits (subject : Subject) (indexes : List Index) (clause? : Option Clause)
    (key? : Option Sought) : List Visit :=
  let orders := ordersOf subject.table indexes
  let (terms, branches) := Plan.termsOf subject clause?
  visitsOf subject orders terms key? ++ (branchesVisit? subject orders terms branches).toList

theorem mem_weighedVisits {subject : Subject} {indexes : List Index} {clause? : Option Clause}
    {key? : Option Sought} {visit : Visit}
    (hvisit : visit ∈ weighedVisits subject indexes clause? key?) :
    visit ∈ visitsOf subject (ordersOf subject.table indexes)
        (Plan.termsOf subject clause?).1 key? ∨
      branchesVisit? subject (ordersOf subject.table indexes)
        (Plan.termsOf subject clause?).1 (Plan.termsOf subject clause?).2 = some visit :=
  (List.mem_append.mp hvisit).imp_right Option.mem_toList.mp

/-- What the rows are asked to be in order of. -/
def Subject.orderKey? (subject : Subject) (order? : Option SortOrder) : Option Sought :=
  order?.bind fun order => (subject.scope.named? order.column).bind subject.soughtBy?

/-- A plan has the walk of a visit that is weighed, and is in order as that visit is. -/
theorem choose_eq {subject : Subject} {indexes : List Index} {clause? : Option Clause}
    {order? : Option SortOrder} {plan : Plan}
    (hplan : Plan.choose subject indexes clause? order? = plan) :
    plan = ⟨.along .byNumber, .unsorted⟩ ∨
      ∃ visit ∈ weighedVisits subject indexes clause? (subject.orderKey? order?),
        plan.walk = visit.walk ∧
          (plan.sortedness = .unsorted ∨ plan.sortedness =
            visit.sortedness (Plan.termsOf subject clause?).1 (subject.orderKey? order?)) := by
  subst hplan
  unfold Plan.choose
  dsimp only
  split
  · exact .inl rfl
  · next best hbest =>
      exact .inr ⟨best, Visit.mem_of_mem_useful (mem_of_bestVisit? hbest), rfl, .inl rfl⟩
  · next best order hbest =>
      have hbest := Visit.mem_of_mem_useful (mem_of_bestVisit? hbest)
      split
      · next chosen hchosen =>
          obtain ⟨visit, hvisit, rfl⟩ := List.mem_map.mp (Weighed.mem_of_best? hchosen)
          refine .inr ⟨visit, ?_, rfl, .inr rfl⟩
          split at hvisit
          · exact Visit.mem_of_mem_useful (List.mem_filter.mp hvisit).1
          · exact Visit.mem_of_mem_useful hvisit
      · exact .inr ⟨best, hbest, rfl, .inr rfl⟩

end TableBrowser.Database
