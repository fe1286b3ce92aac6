import TableBrowser.Filter.Compile
import TableBrowser.Proofs.Filter.TypeHints
import TableBrowser.Proofs.Sql.MomentRow
import TableBrowser.Sql.Clause

/-!
# What columns and dialects change

A clause is made of text that only its conditions decide and of their operands.  Columns
and dialect show in the operands alone, and there only in raw bytes and relative dates.  A
relative date is written in each dialect in its own way, but for the same moment.
-/

namespace TableBrowser.Sql

open TableBrowser.Filter

/-! ## Clauses as segments -/

/-- A part of a clause: fixed text, or an operand behind its operator. -/
inductive Segment
  | fixed (t : Text)
  | operand (op : Operator) (value : Operand)

def Segment.text (dialect : Dialect) : Segment → Text
  | .fixed t => t
  | .operand op value => comparandText dialect op value

def segmentsText (dialect : Dialect) (segments : List Segment) : Text :=
  segments.flatMap (·.text dialect)

def conditionSegments (condition : Condition) : List Segment :=
  [.fixed (condition.column.value ++ " " ++ condition.op.value.keyword ++ " "),
    .operand condition.op.value condition.operand.value]

def groupSegments (group : Group) : List Segment :=
  let parts := group.conditions.map conditionSegments
  if parts.length > 1 then
    .fixed ['('] :: List.intercalate [.fixed " AND "] parts ++ [.fixed [')']]
  else parts.flatten

def predicateSegments (predicate : Predicate) : List Segment :=
  List.intercalate [.fixed " OR "] (predicate.groups.map groupSegments)

variable {dialect other : Dialect}

theorem segmentsText_fixed (dialect : Dialect) (t : Text) :
    segmentsText dialect [.fixed t] = t :=
  List.append_nil t

theorem segmentsText_append (dialect : Dialect) (left right : List Segment) :
    segmentsText dialect (left ++ right) =
      segmentsText dialect left ++ segmentsText dialect right :=
  List.flatMap_append

theorem segmentsText_intercalate (dialect : Dialect) (separator : Text)
    (parts : List (List Segment)) :
    segmentsText dialect (List.intercalate [.fixed separator] parts) =
      List.intercalate separator (parts.map (segmentsText dialect)) := by
  induction parts with
  | nil => rfl
  | cons first rest ih =>
      cases rest with
      | nil => simp only [List.map_singleton, List.intercalate_singleton]
      | cons second rest =>
          rw [List.map_cons] at ih
          rw [List.map_cons, List.map_cons, List.intercalate_cons_cons, List.intercalate_cons_cons,
            ← ih, segmentsText_append, segmentsText_append, segmentsText_fixed]

theorem segmentsText_flatten (dialect : Dialect) (parts : List (List Segment)) :
    segmentsText dialect parts.flatten = (parts.map (segmentsText dialect)).flatten := by
  induction parts with
  | nil => rfl
  | cons first rest ih =>
      rw [List.flatten_cons, segmentsText_append, ih, List.map_cons, List.flatten_cons]

theorem segmentsText_conditionSegments (dialect : Dialect) (condition : Condition) :
    segmentsText dialect (conditionSegments condition) = conditionText dialect condition := by
  simp [segmentsText, conditionSegments, Segment.text, conditionText]

theorem segmentsText_groupSegments (dialect : Dialect) (group : Group) :
    segmentsText dialect (groupSegments group) = groupText dialect group := by
  have hparts : (group.conditions.map conditionSegments).map (segmentsText dialect) =
      group.conditions.map (conditionText dialect) := by
    rw [List.map_map]
    exact List.map_congr_left fun condition _ => segmentsText_conditionSegments dialect condition
  rw [groupSegments, groupText, ← hparts]
  simp only [List.length_map]
  split
  · rw [segmentsText_append, segmentsText_fixed, ← segmentsText_intercalate]
    rfl
  · exact segmentsText_flatten dialect _

theorem segmentsText_predicateSegments (dialect : Dialect) (predicate : Predicate) :
    segmentsText dialect (predicateSegments predicate) = predicateText dialect predicate := by
  have hgroups : (predicate.groups.map groupSegments).map (segmentsText dialect) =
      predicate.groups.map (groupText dialect) := by
    rw [List.map_map]
    exact List.map_congr_left fun group _ => segmentsText_groupSegments dialect group
  rw [predicateSegments, segmentsText_intercalate, hgroups, predicateText]

/-! ## Two clauses -/

/-- Raw bytes and relative dates are what dialects write in different ways. -/
def IsDialectal : Operand → Prop
  | .binary _ | .date _ => True
  | .number _ | .text _ => False

/-- Two segments at the same place that show the same text, unless they stand for raw bytes
or a date. -/
inductive Segment.Matches (dialect other : Dialect) : Segment → Segment → Prop
  | fixed (t : Text) : Matches dialect other (.fixed t) (.fixed t)
  | operand {op : Operator} {left right : Operand} (hmatches : left.Matches op right)
    (htext : IsDialectal left ∨ IsDialectal right ∨
      comparandText dialect op left = comparandText other op right) :
    Matches dialect other (.operand op left) (.operand op right)

/-- Numbers and strings are the same in both dialects. -/
theorem comparandText_eq (op : Operator) {operand : Operand} (hplain : ¬ IsDialectal operand) :
    comparandText dialect op operand = comparandText other op operand := by
  cases operand with
  | number | text => rfl
  | binary | date => exact absurd trivial hplain

theorem Segment.matches_operand (op : Operator) {left right : Operand}
    (hmatches : left.Matches op right) :
    Matches dialect other (.operand op left) (.operand op right) := by
  refine .operand hmatches ?_
  rcases hmatches with rfl | ⟨-, ⟨raw, uuid, -, rfl, -⟩ | ⟨raw, uuid, -, rfl, -⟩⟩
  · by_cases hdialectal : IsDialectal left
    · exact .inl hdialectal
    · exact .inr (.inr (comparandText_eq op hdialectal))
  · exact .inr (.inl trivial)
  · exact .inl trivial

theorem conditionSegments_match {condition found : Condition}
    (hmatches : condition.Matches found) :
    List.Forall₂ (Segment.Matches dialect other) (conditionSegments condition)
      (conditionSegments found) := by
  rw [conditionSegments, conditionSegments, ← hmatches.column_eq, ← hmatches.op_eq]
  exact .cons (.fixed _) (.cons (Segment.matches_operand _ hmatches.operand_matches) .nil)

theorem forall₂_intercalate {α : Type} {R : α → α → Prop} {separator : List α}
    (hseparator : List.Forall₂ R separator separator) {parts others : List (List α)}
    (hparts : List.Forall₂ (List.Forall₂ R) parts others) :
    List.Forall₂ R (List.intercalate separator parts) (List.intercalate separator others) := by
  induction hparts with
  | nil => exact .nil
  | @cons first _ rest _ hfirst hrest ih =>
      cases hrest with
      | nil =>
          rw [List.intercalate_singleton, List.intercalate_singleton]
          exact hfirst
      | cons hsecond hmore =>
          rw [List.intercalate_cons_cons, List.intercalate_cons_cons]
          exact List.rel_append (List.rel_append hfirst hseparator) ih

theorem fixed_matches (t : Text) :
    List.Forall₂ (Segment.Matches dialect other) [.fixed t] [.fixed t] :=
  .cons (.fixed t) .nil

theorem groupSegments_match {group found : Group} (hmatches : group.Matches found) :
    List.Forall₂ (Segment.Matches dialect other) (groupSegments group) (groupSegments found) := by
  have hparts : List.Forall₂ (List.Forall₂ (Segment.Matches dialect other))
      (group.conditions.map conditionSegments) (found.conditions.map conditionSegments) :=
    List.rel_map (fun _ _ hcondition => conditionSegments_match hcondition)
      hmatches.conditions_match
  rw [groupSegments, groupSegments]
  simp only [← hparts.length_eq]
  split
  · exact .cons (.fixed _) (List.rel_append (forall₂_intercalate (fixed_matches _) hparts)
      (fixed_matches _))
  · exact List.rel_flatten hparts

theorem predicateSegments_match {predicate found : Predicate}
    (hmatches : predicate.Matches found) :
    List.Forall₂ (Segment.Matches dialect other) (predicateSegments predicate)
      (predicateSegments found) := by
  have hparts : List.Forall₂ (List.Forall₂ (Segment.Matches dialect other))
      (predicate.groups.map groupSegments) (found.groups.map groupSegments) :=
    List.rel_map (fun _ _ hgroup => groupSegments_match hgroup) hmatches.groups_match
  exact forall₂_intercalate (fixed_matches _) hparts

/-! ## Dates in both dialects -/

/-- The moment that a dialect sees in an expression. -/
def Moment.ofText? (dialect : Dialect) (t : Text) : Option Moment :=
  match comparand? dialect (lexemes t) with
  | some (⟨.moment moment, _⟩, []) => some moment
  | _ => none

/-- The same moment without weeks. -/
def Moment.inDays (moment : Moment) : Moment :=
  { moment with back? := moment.back?.map fun
      | (amount, .week) => (7 * amount, .day)
      | back => back }

theorem Moment.ofText?_relativeDate (dialect : Dialect) (date : RelativeDate) :
    ofText? dialect (dialect.relativeDate date) = some (ofDate dialect date) := by
  have hread := comparand?_dateRow dialect date 0 []
  rw [List.append_nil, ← lexemes_rowText (separated_dateRow dialect date []),
    rowText_dateRow] at hread
  rw [ofText?, hread]

theorem Moment.inDays_ofDate (dialect : Dialect) (date : RelativeDate) :
    (ofDate dialect date).inDays = ofDate .sqlite date := by
  cases date with
  | now | today | yesterday => cases dialect <;> rfl
  | ago amount unit => cases dialect <;> cases unit <;> rfl

/-- The number of units of a modifier fits in 64 bits. -/
theorem modifierUnits_lt (amount : UInt32) (unit : DateUnit) :
    (modifierUnits amount.toNat unit).1 < UInt64.size := by
  have hamount := amount.toNat_lt
  have hsize : UInt64.size = 18446744073709551616 := rfl
  cases unit <;> simp only [modifierUnits] <;> omega

/-! ## Two compilations of one source -/

/-- Whatever the columns and the dialects, two compilations of a source fail alike or find
the same conditions at the same places; their clauses differ in raw bytes and dates only,
and a date is the same moment in every dialect. -/
theorem columns_and_dialect_touch_operands (columns others : List Column)
    (dialect other : Dialect) (source : Text) :
    ((∃ failure, compile dialect columns source = .error failure ∧
          compile other others source = .error failure) ∨
        ∃ predicate found, Predicate.read columns source = .ok predicate ∧
          Predicate.read others source = .ok found ∧ predicate.Matches found ∧
          compile dialect columns source =
            .ok ⟨segmentsText dialect (predicateSegments predicate), predicate.preview⟩ ∧
          compile other others source =
            .ok ⟨segmentsText other (predicateSegments found), found.preview⟩ ∧
          List.Forall₂ (Segment.Matches dialect other) (predicateSegments predicate)
            (predicateSegments found)) ∧
      (∀ each date, (Moment.ofText? each (Dialect.relativeDate each date)).map Moment.inDays =
        some (.ofDate .sqlite date)) ∧
      ∀ amount unit, (modifierUnits (UInt32.toNat amount) unit).1 < UInt64.size := by
  refine ⟨?_, fun each date => ?_, modifierUnits_lt⟩
  · rw [compile, compile]
    have hagree := Predicate.read_agree columns others source
    revert hagree
    generalize Predicate.read columns source = result
    generalize Predicate.read others source = same
    rintro (failure | hmatches)
    · exact .inl ⟨failure, rfl, rfl⟩
    · refine .inr ⟨_, _, rfl, rfl, hmatches, ?_, ?_, predicateSegments_match hmatches⟩
      · rw [segmentsText_predicateSegments]
        rfl
      · rw [segmentsText_predicateSegments]
        rfl
  · rw [Moment.ofText?_relativeDate, Option.map_some, Moment.inDays_ofDate]

/-- Two clauses for one relative date, which the dialects write in different ways. -/
theorem columns_and_dialect_touch_yesterday :
    compile .sqlite [] "seen>@yesterday" =
        .ok ⟨"seen > date('now', '-1 day')", "WHERE seen greater than yesterday"⟩ ∧
      compile .mySql [⟨"seen", "TEXT"⟩] "seen>@yesterday" =
        .ok ⟨"seen > DATE_SUB(CURDATE(), INTERVAL 1 DAY)", "WHERE seen greater than yesterday"⟩ ∧
      ∃ predicate found, Predicate.read [] "seen>@yesterday" = .ok predicate ∧
        Predicate.read [⟨"seen", "TEXT"⟩] "seen>@yesterday" = .ok found ∧
          predicate.Matches found ∧
          List.Forall₂ (Segment.Matches .sqlite .mySql) (predicateSegments predicate)
            (predicateSegments found) := by
  have hsqlite : compile .sqlite [] "seen>@yesterday" =
      .ok ⟨"seen > date('now', '-1 day')", "WHERE seen greater than yesterday"⟩ := by
    decide +kernel
  refine ⟨hsqlite, by decide +kernel, ?_⟩
  rcases (columns_and_dialect_touch_operands [] [⟨"seen", "TEXT"⟩] .sqlite .mySql
    "seen>@yesterday").1 with
    ⟨failure, hfailed, -⟩ | ⟨predicate, found, hread, hother, hmatches, -, -, hsegments⟩
  · cases hsqlite.symm.trans hfailed
  · exact ⟨predicate, found, hread, hother, hmatches, hsegments⟩

end TableBrowser.Sql
