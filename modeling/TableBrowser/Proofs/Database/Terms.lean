import TableBrowser.Database.Query
import TableBrowser.Proofs.Database.Kept
import TableBrowser.Proofs.Database.Truth

/-!
# What the terms of a clause say

A clause of comparisons has terms that say something of each row for which it is true:
a term that equates something with a constant fixes what is sought in the row, whether
the term is a comparison itself or follows from the branches of an OR.
-/

namespace TableBrowser.Database

open TableBrowser.Sql

/-! ## What is sought in a row -/

/-- The cell of a row that is sought. -/
def Sought.cell (sought : Sought) (entry : Entry) : Cell :=
  match sought with
  | .number => .integer entry.number
  | .column place => (entry.cells[place]?).getD .null

/-- The subject of statements over a source. -/
def Subject.ofSource (source : Source) (now : Int) : Subject :=
  ⟨source.table, .ofSource source, now⟩

/-- A column that is referred to is a column of the source. -/
def Source.Shows (source : Source) : Reference → Prop
  | .column place affinity =>
    ∃ column, source.columns[place]? = some column ∧ affinity = .ofType column.type
  | _ => True

variable {source : Source} {now : Int} {entry : Entry}

theorem Source.shows_of_column? {name : Text} {reference : Reference}
    (hcolumn : (Scope.ofSource source).column? name = some reference) :
    source.Shows reference := by
  obtain ⟨place, -, hcolumn⟩ := Option.bind_eq_some_iff.mp hcolumn
  obtain ⟨column, hplace, heq⟩ := Option.bind_eq_some_iff.mp hcolumn
  cases heq
  exact ⟨column, hplace, rfl⟩

theorem Source.shows_of_named? {name : Text} {reference : Reference}
    (hnamed : (Scope.ofSource source).named? name = some reference) :
    source.Shows reference := by
  rcases Option.or_eq_some_iff.mp hnamed with hcolumn | ⟨-, hnumber⟩
  · exact shows_of_column? hcolumn
  · split at hnumber
    · cases hnumber
      trivial
    · cases hnumber

theorem Source.shows_of_reference? {word : Text} {reference : Reference}
    (hreference : (Scope.ofSource source).reference? now word = some reference) :
    source.Shows reference := by
  unfold Scope.reference? at hreference
  split at hreference
  · cases hreference
    trivial
  · split at hreference
    · cases hreference
      trivial
    · rcases Option.or_eq_some_iff.mp hreference with hnamed | ⟨-, htruth⟩
      · exact shows_of_named? hnamed
      · obtain ⟨value, -, rfl⟩ := Option.map_eq_some_iff.mp htruth
        trivial

/-- A view shows the columns of its table with other names but the same affinities. -/
theorem affinity_of_viewedColumns {columns : List Column} {taken : List Text}
    {start place : Nat} {column : Column}
    (hcolumn : (viewedColumns taken start columns)[place]? = some column) :
    ∃ stored, columns[place]? = some stored ∧
      Affinity.ofType column.type = Affinity.ofType stored.type := by
  induction columns generalizing taken start place with
  | nil => cases hcolumn
  | cons first rest ih =>
      cases place with
      | zero =>
          rw [viewedColumns, List.getElem?_cons_zero] at hcolumn
          cases hcolumn
          refine ⟨first, rfl, ?_⟩
          dsimp only
          split
          · next hempty =>
              rw [List.isEmpty_iff.mp hempty]
              decide
          · rfl
      | succ place =>
          rw [viewedColumns, List.getElem?_cons_succ] at hcolumn
          exact ih hcolumn

theorem Source.affinity_of_columns {place : Nat} {column : Column}
    (hcolumn : source.columns[place]? = some column) :
    ∃ stored, source.table.columns[place]? = some stored ∧
      Affinity.ofType column.type = Affinity.ofType stored.type := by
  unfold Source.columns at hcolumn
  split at hcolumn
  · exact affinity_of_viewedColumns hcolumn
  · exact ⟨column, hcolumn, rfl⟩

theorem exists_row_of_mem_entries {table : Table} (hentry : entry ∈ entries table) :
    ∃ index, table.rows[index]? = some entry.cells ∧ entry.number = index + 1 := by
  obtain ⟨⟨cells, index⟩, hmem, rfl⟩ := List.mem_map.mp hentry
  exact ⟨index, List.mk_mem_zipIdx_iff_getElem?.mp hmem, rfl⟩

/-- What a reference is in a row is told by what it seeks. -/
theorem operand_eq (hkept : source.table.IsKept) (hentry : entry ∈ entries source.table)
    {reference : Reference} (hshows : source.Shows reference) {sought : Sought}
    (hsought : (Subject.ofSource source now).soughtBy? reference = some sought) :
    reference.operand entry =
      ⟨sought.cell entry, (Subject.ofSource source now).affinityOf sought⟩ := by
  cases reference with
  | number =>
      cases hsought
      rfl
  | constant cell => cases hsought
  | column place affinity =>
      obtain ⟨column, hcolumn, rfl⟩ := hshows
      obtain ⟨stored, hstored, haffinity⟩ := source.affinity_of_columns hcolumn
      have hname : (Subject.ofSource source now).table.columns[place]? = some stored := hstored
      simp only [Subject.soughtBy?, hname, Option.map_some] at hsought
      split at hsought
      · next hnumbered =>
          cases hsought
          have hnumbered : source.table.numbered? = some stored.name := by
            rw [Bool.and_eq_true] at hnumbered
            exact (eq_of_beq hnumbered.2).symm
          obtain ⟨hinteger, hnumbers⟩ := hkept.numbered place stored hstored hnumbered
          obtain ⟨index, hrow, hnumber⟩ := exists_row_of_mem_entries hentry
          rw [Reference.operand, hnumbers index _ hrow, haffinity, hinteger]
          simp [Sought.cell, Subject.affinityOf, hnumber]
      · cases hsought
        simp [Reference.operand, Sought.cell, Subject.affinityOf, hname, haffinity]

theorem isStored_cell (hkept : source.table.IsKept) (hentry : entry ∈ entries source.table)
    (sought : Sought) :
    IsStored ((Subject.ofSource source now).affinityOf sought) (sought.cell entry) := by
  cases sought with
  | number => exact isStored_integer _
  | column place =>
      obtain ⟨index, hrow, -⟩ := exists_row_of_mem_entries hentry
      rw [Subject.affinityOf, Sought.cell]
      cases hcolumn : (Subject.ofSource source now).table.columns[place]? with
      | none => exact isStored_none _
      | some column => exact hkept.stored _ (List.mem_of_getElem? hrow) place column hcolumn

/-! ## Terms that fix what is sought -/

/-- If a term equates something with a constant, the row has a cell there that compares
equal with the constant. -/
def Term.Fixes (subject : Subject) (entry : Entry) (term : Term) : Prop :=
  term.kind = .equal → ∃ sought constant,
    term.sought? = some sought ∧ term.constant? = some constant ∧
      (sought.cell entry).key =
        (convertedBy (subject.affinityOf sought) (comparandCell subject.now constant)).key

theorem Term.Fixes.of_eq {subject : Subject} {term other : Term}
    (hfixes : term.Fixes subject entry) (hkind : other.kind = term.kind)
    (hsought : other.sought? = term.sought?) (hconstant : other.constant? = term.constant?) :
    other.Fixes subject entry := by
  unfold Fixes at hfixes ⊢
  rwa [hkind, hsought, hconstant]

theorem kindOf_eq_equal {comparator : Comparator} (hkind : kindOf comparator = .equal) :
    comparator = .equal := by
  cases comparator with
  | equal => rfl
  | notEqual | greater | greaterEqual | less | lessEqual | like => cases hkind

/-- A comparison that is true of a row fixes what it is about. -/
theorem fixes_comparisonTerm (hkept : source.table.IsKept)
    (hentry : entry ∈ entries source.table) {comparison : Comparison}
    (htrue : (Test.ofComparison now (.ofSource source) comparison).truth entry = some true) :
    (comparisonTerm (.ofSource source now) comparison).Fixes (.ofSource source now) entry := by
  intro hkind
  simp only [comparisonTerm] at hkind
  split at hkind
  · next hsome =>
      obtain ⟨sought, hsought⟩ := Option.isSome_iff_exists.mp hsome
      obtain ⟨reference, hreference, hseeks⟩ := Option.bind_eq_some_iff.mp hsought
      refine ⟨sought, comparison.comparand.value, hsought, rfl, ?_⟩
      have hoperand := operand_eq hkept hentry (Source.shows_of_reference? hreference) hseeks
      have hscope : (Scope.ofSource source).reference? now comparison.column.value =
          some reference := hreference
      simp only [Test.truth, Test.ofComparison, hscope, kindOf_eq_equal hkind, hoperand] at htrue
      exact key_eq_of_compareCells (isStored_cell hkept hentry sought) htrue
  · cases hkind

/-- The bounds of a pattern equate nothing. -/
theorem kind_ne_equal_of_mem_patternTerms {subject : Subject} {place : Nat}
    {comparison : Comparison} {term : Term}
    (hterm : term ∈ patternTerms subject place comparison) : term.kind ≠ .equal := by
  unfold patternTerms at hterm
  split at hterm
  · dsimp only at hterm
    split at hterm
    · cases hterm
    · simp only [List.mem_cons, List.not_mem_nil, or_false] at hterm
      rcases hterm with rfl | rfl <;> exact nofun
  · cases hterm

theorem mem_groupTerms {subject : Subject} {comparisons : List Comparison} {term : Term}
    (hterm : term ∈ groupTerms subject (comparisons.map .leaf)) :
    ∃ comparison ∈ comparisons, term = comparisonTerm subject comparison ∨
      ∃ place, term ∈ patternTerms subject place comparison := by
  rcases List.mem_append.mp hterm with hfactor | hderived
  · simp only [List.mem_map] at hfactor
    obtain ⟨factor, ⟨comparison, hmem, rfl⟩, rfl⟩ := hfactor
    exact ⟨comparison, hmem, .inl rfl⟩
  · obtain ⟨⟨factor, place⟩, hmem, hpattern⟩ := List.mem_flatMap.mp hderived
    have hfactor := List.mem_of_getElem?
      (List.mk_mem_zipIdx_iff_getElem?.mp (List.mem_reverse.mp hmem))
    obtain ⟨comparison, hcomparison, rfl⟩ := List.mem_map.mp hfactor
    exact ⟨comparison, hcomparison, .inr ⟨place, hpattern⟩⟩

theorem fixes_groupTerms (hkept : source.table.IsKept) (hentry : entry ∈ entries source.table)
    {comparisons : List Comparison}
    (htrue : ∀ comparison ∈ comparisons,
      (Test.ofComparison now (.ofSource source) comparison).truth entry = some true) :
    ∀ term ∈ groupTerms (.ofSource source now) (comparisons.map .leaf),
      term.Fixes (.ofSource source now) entry := by
  intro term hterm hkind
  obtain ⟨comparison, hmem, rfl | ⟨place, hpattern⟩⟩ := mem_groupTerms hterm
  · exact fixes_comparisonTerm hkept hentry (htrue comparison hmem) hkind
  · exact absurd hkind (kind_ne_equal_of_mem_patternTerms hpattern)

theorem mem_closeFixed {subject : Subject} {terms : List Term} {term : Term}
    (hterm : term ∈ closeFixed subject terms) :
    ∃ original ∈ terms, term.kind = original.kind ∧ term.sought? = original.sought? ∧
      term.constant? = original.constant? := by
  obtain ⟨⟨original, place⟩, hmem, rfl⟩ := List.mem_map.mp hterm
  refine ⟨original, List.mem_of_getElem? (List.mk_mem_zipIdx_iff_getElem?.mp hmem), ?_⟩
  dsimp only
  split <;> exact ⟨rfl, rfl, rfl⟩

/-- Constants that are written alike are the same cell. -/
theorem comparandCell_of_sameConstant {a b : Comparand} (hsame : sameConstant a b = true) :
    comparandCell now a = comparandCell now b := by
  unfold sameConstant at hsame
  split at hsame
  · next s t =>
      rcases (Bool.or_eq_true _ _).mp hsame with heq | hvalue
      · rw [eq_of_beq heq]
      · split at hvalue
        · next hs ht =>
            rw [Bool.and_eq_true] at hvalue
            rw [comparandCell, comparandCell, hs, ht, eq_of_beq hvalue.1]
        · cases hvalue
  · rw [eq_of_beq hsame]

theorem commonKind?_eq_equal {a b : TermKind} (hkind : commonKind? a b = some .equal) :
    a = .equal ∧ b = .equal := by
  cases a <;> cases b <;> first | exact ⟨rfl, rfl⟩ | cases hkind

/-- A term says what two others have in common. -/
structure Term.IsCommon (a b term : Term) : Prop where
  kind : commonKind? a.kind b.kind = some term.kind
  left : a.sought? = term.sought?
  right : b.sought? = term.sought?
  constants : ∃ sought s t, term.sought? = some sought ∧ term.constant? = some s ∧
    a.constant? = some s ∧ b.constant? = some t ∧ sameConstant s t = true

theorem isCommon_of_commonTerm? {a b term : Term} (hcommon : commonTerm? a b = some term) :
    Term.IsCommon a b term := by
  obtain ⟨kind, hkind, hcommon⟩ := Option.bind_eq_some_iff.mp hcommon
  obtain ⟨sought, hsought, hcommon⟩ := Option.bind_eq_some_iff.mp hcommon
  obtain ⟨s, hs, hcommon⟩ := Option.bind_eq_some_iff.mp hcommon
  obtain ⟨t, ht, hcommon⟩ := Option.bind_eq_some_iff.mp hcommon
  split at hcommon
  · next hsame =>
      simp only [Bool.and_eq_true, beq_iff_eq] at hsame
      cases hcommon
      exact ⟨hkind, hsought, hsame.1.1, sought, s, t, rfl, rfl, hs, ht, hsame.2⟩
  · cases hcommon

/-- What two terms have in common is fixed by either of them. -/
theorem Term.Fixes.common {subject : Subject} {a b term : Term} (hcommon : IsCommon a b term)
    (hfixes : a.Fixes subject entry ∨ b.Fixes subject entry) : term.Fixes subject entry := by
  intro hequal
  obtain ⟨sought, s, t, hsought, hs, has, hbt, hsame⟩ := hcommon.constants
  have hkind := hcommon.kind
  rw [hequal] at hkind
  obtain ⟨hequalA, hequalB⟩ := commonKind?_eq_equal hkind
  refine ⟨sought, s, hsought, hs, ?_⟩
  rcases hfixes with hfixes | hfixes
  · obtain ⟨sought', constant, hsought', hconstant, hkey⟩ := hfixes hequalA
    cases hsought.symm.trans (hcommon.left.symm.trans hsought')
    cases has.symm.trans hconstant
    exact hkey
  · obtain ⟨sought', constant, hsought', hconstant, hkey⟩ := hfixes hequalB
    cases hsought.symm.trans (hcommon.right.symm.trans hsought')
    cases hbt.symm.trans hconstant
    rwa [comparandCell_of_sameConstant hsame]

/-! ## Terms of an OR -/

theorem mem_amongTerm? {branches : List (List Term)} {term : Term}
    (hterm : term ∈ (amongTerm? branches).toList) :
    (∃ count, term.kind = .among count) ∧
      ∃ branch ∈ branches, ∃ first ∈ branch, first.sought? = term.sought? := by
  unfold amongTerm? at hterm
  split at hterm
  · next first rest =>
      dsimp only at hterm
      split at hterm
      · rw [Option.toList_some, List.mem_singleton] at hterm
        rw [hterm]
        exact ⟨⟨_, rfl⟩, [first], List.mem_cons_self, first, List.mem_cons_self, rfl⟩
      · cases hterm
  · cases hterm

/-- A term of an OR is the OR itself, or asks for one of several values, or is what two
branches have in common. -/
theorem mem_orTerms {branches : List (List Term)} {term : Term}
    (hterm : term ∈ orTerms branches) :
    term.kind = .other ∧ term.sought? = none ∨
      ((∃ count, term.kind = .among count) ∧
        ∃ branch ∈ branches, ∃ first ∈ branch, first.sought? = term.sought?) ∨
      ∃ left right, branches = [left, right] ∧
        ∃ a ∈ left, ∃ b ∈ right, Term.IsCommon a b term := by
  rcases List.mem_append.mp hterm with hwhole | hamong
  · rcases List.mem_cons.mp hwhole with rfl | hcommon
    · exact .inl ⟨rfl, rfl⟩
    · split at hcommon
      · split at hcommon
        · next left right _ =>
            obtain ⟨a, ha, hb⟩ := List.mem_flatMap.mp hcommon
            obtain ⟨b, hb, heq⟩ := List.mem_filterMap.mp hb
            exact .inr (.inr ⟨left, right, rfl, a, ha, b, hb, isCommon_of_commonTerm? heq⟩)
        · cases hcommon
      · cases hcommon
  · exact .inr (.inl (mem_amongTerm? hamong))

/-- What follows from an OR is fixed by each of its branches. -/
theorem fixes_orTerms {subject : Subject} {branches : List (List Term)}
    (hfixes : ∃ branch ∈ branches, ∀ term ∈ branch, term.Fixes subject entry) :
    ∀ term ∈ orTerms branches, term.Fixes subject entry := by
  intro term hterm
  rcases mem_orTerms hterm with ⟨hkind, -⟩ | ⟨⟨count, hkind⟩, -⟩ |
    ⟨left, right, rfl, a, ha, b, hb, hcommon⟩
  · exact fun hequal => absurd (hkind.symm.trans hequal) nofun
  · exact fun hequal => absurd (hkind.symm.trans hequal) nofun
  · obtain ⟨branch, hbranch, hfixes⟩ := hfixes
    simp only [List.mem_cons, List.not_mem_nil, or_false] at hbranch
    rcases hbranch with rfl | rfl
    · exact .common hcommon (.inl (hfixes a ha))
    · exact .common hcommon (.inr (hfixes b hb))

/-! ## What terms are about -/

/-! ## The terms of a clause -/

theorem exists_true_group {groups : List (List Comparison)} {scope : Scope}
    (htrue : formulaTruth (·.truth entry)
      (formulaMap (Test.ofComparison now scope) (groups.map (·.map .leaf))) = some true) :
    ∃ group ∈ groups, ∀ comparison ∈ group,
      (Test.ofComparison now scope comparison).truth entry = some true := by
  rw [formulaMap_leaves, formulaTruth_leaves, Truth.any_eq_true_iff, List.map_map] at htrue
  obtain ⟨group, hgroup, hall⟩ := List.mem_map.mp htrue
  refine ⟨group, hgroup, fun comparison hmem => ?_⟩
  rw [Function.comp_apply, Truth.all_eq_true_iff, List.map_map] at hall
  exact hall _ (List.mem_map_of_mem hmem)

/-- The terms of the groups of a clause. -/
def branchesOf (subject : Subject) (groups : List (List Comparison)) : List (List Term) :=
  groups.map fun group => groupTerms subject (group.map .leaf)

theorem termsOf_singleton (subject : Subject) (comparisons : List Comparison) :
    Plan.termsOf subject (some ([comparisons].map (·.map .leaf))) =
      (closeFixed subject (groupTerms subject (comparisons.map .leaf)), []) := rfl

theorem termsOf_groups (subject : Subject) {groups : List (List Comparison)}
    (hlength : groups.length ≠ 1) :
    Plan.termsOf subject (some (groups.map (·.map .leaf))) =
      (orTerms (branchesOf subject groups), branchesOf subject groups) := by
  have hbranches : (groups.map (·.map .leaf)).map (groupTerms subject) =
      branchesOf subject groups := by
    rw [branchesOf, List.map_map]
    rfl
  unfold Plan.termsOf
  split
  · next heq => cases heq
  · next heq =>
      obtain ⟨comparisons, rfl, -⟩ := List.map_eq_singleton_iff.mp (Option.some.inj heq)
      exact absurd rfl hlength
  · next heq =>
      cases heq
      rw [hbranches]

/-- The terms of a clause fix what they equate in each row of which the clause is true. -/
theorem fixes_termsOf (hkept : source.table.IsKept) {groups : List (List Comparison)}
    (hentry : entry ∈ selectEntries source.table
      (some (formulaMap (Test.ofComparison now (.ofSource source)) (groups.map (·.map .leaf))))) :
    ∀ term ∈ (Plan.termsOf (.ofSource source now) (some (groups.map (·.map .leaf)))).1,
      term.Fixes (.ofSource source now) entry := by
  obtain ⟨hentries, htrue⟩ := List.mem_filter.mp hentry
  obtain ⟨group, hgroup, hall⟩ := exists_true_group (eq_of_beq htrue)
  have hfixes := fixes_groupTerms hkept hentries hall
  by_cases hlength : groups.length = 1
  · obtain ⟨comparisons, rfl⟩ := List.length_eq_one_iff.mp hlength
    cases List.mem_singleton.mp hgroup
    rw [termsOf_singleton]
    intro term hterm
    obtain ⟨original, hmem, hkind, hsought, hconstant⟩ := mem_closeFixed hterm
    exact (hfixes original hmem).of_eq hkind hsought hconstant
  · rw [termsOf_groups _ hlength]
    exact fixes_orTerms ⟨_, List.mem_map_of_mem hgroup, hfixes⟩

end TableBrowser.Database
