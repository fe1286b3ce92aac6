import TableBrowser.Proofs.Filter.Pieces

/-!
# Positions in a filter

Every span of a predicate that was read is a range of the source and cuts out the text
that the part was read from.  The conditions stand one behind the other, groups and
predicates run from their first condition to their last, and a condition is read in the
same way from its own text alone.  The span of a failure cuts out what the failure names.
-/

namespace TableBrowser

/-! ## Ranges -/

/-- The range at the same distance from a later beginning. -/
def Span.movedBack (distance : Nat) (span : Span) : Span :=
  ⟨span.start - distance, span.stop - distance⟩

def Located.movedBack {α : Type} (distance : Nat) (located : Located α) : Located α :=
  ⟨located.value, located.span.movedBack distance⟩

namespace Text

/-- A character begins or the text ends at a byte offset. -/
def IsBoundary (source : Text) (offset : Nat) : Prop :=
  ∃ before behind, source = before ++ behind ∧ before.byteSize = offset

theorem eq_nil_of_byteSize {t : Text} (hsize : t.byteSize = 0) : t = [] := by
  cases t with
  | nil => rfl
  | cons c rest =>
      have hpos := c.utf8Size_pos
      simp only [byteSize_cons] at hsize
      omega

/-- Two boundaries in order cut out a part. -/
theorem isSome_slice?_of_isBoundary {source : Text} {start stop : Nat}
    (hstart : IsBoundary source start) (hstop : IsBoundary source stop) (hle : start ≤ stop) :
    (source.slice? ⟨start, stop⟩).isSome := by
  obtain ⟨before, rest, rfl, rfl⟩ := hstart
  obtain ⟨front, behind, heq, rfl⟩ := hstop
  obtain ⟨part, rfl, rfl⟩ : ∃ part, front = before ++ part ∧ rest = part ++ behind := by
    rcases List.append_eq_append_iff.mp heq with ⟨part, hfront, hrest⟩ | ⟨part, hbefore, hbehind⟩
    · exact ⟨part, hfront, hrest⟩
    · have hpart : part = [] := by
        apply eq_nil_of_byteSize
        rw [hbefore, byteSize_append] at hle
        omega
      subst hpart
      exact ⟨[], by simpa using hbefore.symm, by simpa using hbehind.symm⟩
  rw [byteSize_append, slice?_append]
  rfl

end Text

namespace Filter

variable {columns : List Column} {source : Text}

def Condition.movedBack (distance : Nat) (condition : Condition) : Condition :=
  ⟨condition.column.movedBack distance, condition.op.movedBack distance,
    condition.operand.movedBack distance, condition.span.movedBack distance⟩

/-! ## One condition -/

/-- The parts of a condition stand in the source where their spans say, one behind the
other from the start of the condition to its end, and the text of the condition alone is
read as the same condition. -/
structure Condition.StandsIn (columns : List Column) (source : Text) (condition : Condition) :
    Prop where
  column_cut : source.slice? condition.column.span = some condition.column.value
  op_cut : source.slice? condition.op.span = some condition.op.value.symbol
  operand_cut : ∃ raw, source.slice? condition.operand.span = some raw ∧
    operandOf? columns condition.column.value condition.op.value raw =
      some condition.operand.value
  begins_with_column : condition.span.start = condition.column.span.start
  column_before_op : condition.column.span.stop ≤ condition.op.span.start
  op_before_operand : condition.op.span.stop ≤ condition.operand.span.start
  ends_with_operand : condition.operand.span.stop = condition.span.stop
  reads_alone : ∃ cut, source.slice? condition.span = some cut ∧
    Condition.read columns cut = .ok (condition.movedBack condition.span.start)

namespace ConditionText

variable {written : ConditionText} {operand : Operand}

theorem column_within (written : ConditionText) (offset : Nat) :
    (Placed.mk written.column offset).Within ⟨written.text, offset⟩ :=
  ⟨[], written.gap ++ (written.op.symbol ++ (written.space ++ written.value)), rfl, rfl⟩

theorem op_within (written : ConditionText) (offset : Nat) :
    (Placed.mk written.op.symbol (written.opSpan offset).start).Within
      ⟨written.text, offset⟩ := by
  refine ⟨written.column ++ written.gap, written.space ++ written.value, ?_, ?_⟩
  · simp [text]
  · simp [opSpan, Nat.add_assoc]

theorem value_within (written : ConditionText) (offset : Nat) :
    (Placed.mk written.value (written.valueSpan offset).start).Within
      ⟨written.text, offset⟩ := by
  refine ⟨written.column ++ (written.gap ++ (written.op.symbol ++ written.space)), [], ?_, ?_⟩
  · simp [text]
  · simp [valueSpan, opSpan, Nat.add_assoc]

theorem valueSpan_stop (written : ConditionText) (offset : Nat) :
    (written.valueSpan offset).stop = (Placed.mk written.text offset).span.stop := by
  simp [valueSpan, opSpan, Placed.span, text, Nat.add_assoc]

/-- A condition that is read at an offset is read in the same way at the start of its own
text. -/
theorem IsProper.read_text (hproper : written.IsProper)
    (hoperand : operandOf? columns written.column written.op written.value = some operand)
    (offset : Nat) :
    Condition.read columns written.text =
      .ok ((written.conditionAt offset operand).movedBack offset) := by
  have hstrip := Placed.strip_eq_self 0 hproper.isTrimmed_text hproper.head?_ne
  have hmoved : (written.conditionAt offset operand).movedBack offset =
      written.conditionAt 0 operand := by
    simp only [conditionAt, Condition.movedBack, Located.movedBack, Span.movedBack, columnSpan,
      opSpan, valueSpan, Placed.span, Condition.mk.injEq, Located.mk.injEq, Span.mk.injEq,
      true_and]
    omega
  rw [hmoved, Condition.read, Condition.readAt_eq_ok_iff]
  exact ⟨written, operand, hproper, by rw [hstrip], hoperand, by rw [hstrip]⟩

theorem IsProper.standsIn (hproper : written.IsProper)
    (hoperand : operandOf? columns written.column written.op written.value = some operand)
    {offset : Nat} (hwithin : (Placed.mk written.text offset).Within ⟨source, 0⟩) :
    (written.conditionAt offset operand).StandsIn columns source where
  column_cut := ((written.column_within offset).trans hwithin).slice?
  op_cut := ((written.op_within offset).trans hwithin).slice?
  operand_cut := ⟨written.value, ((written.value_within offset).trans hwithin).slice?, hoperand⟩
  begins_with_column := rfl
  column_before_op := by
    simp only [conditionAt, columnSpan, opSpan]
    omega
  op_before_operand := by
    simp only [conditionAt, valueSpan]
    omega
  ends_with_operand := written.valueSpan_stop offset
  reads_alone := ⟨written.text, hwithin.slice?, hproper.read_text hoperand offset⟩

end ConditionText

/-- A condition stands in the piece it was read from. -/
theorem Condition.span_of_readAt {piece : Placed} {condition : Condition}
    (hread : readAt columns piece = .ok condition) : condition.span = piece.strip.span := by
  obtain ⟨written, operand, -, htext, -, rfl⟩ := readAt_eq_ok_iff.mp hread
  rw [ConditionText.conditionAt, ← htext]

theorem Condition.standsIn_of_readAt {piece : Placed} {condition : Condition}
    (hread : readAt columns piece = .ok condition) (hwithin : piece.Within ⟨source, 0⟩) :
    condition.StandsIn columns source := by
  obtain ⟨written, operand, hproper, htext, hoperand, rfl⟩ := readAt_eq_ok_iff.mp hread
  have hstrip := (Placed.strip_within piece).trans hwithin
  exact hproper.standsIn hoperand (by rw [← htext]; exact hstrip)

/-! ## Conditions in order -/

/-- The span is that of a text in the source. -/
def IsPlaced (source : Text) (span : Span) : Prop :=
  ∃ placed : Placed, placed.Within ⟨source, 0⟩ ∧ span = placed.span

theorem IsPlaced.start_le_stop {span : Span} (hplaced : IsPlaced source span) :
    span.start ≤ span.stop := by
  obtain ⟨placed, -, rfl⟩ := hplaced
  simp [Placed.span]

theorem IsPlaced.isBoundary_start {span : Span} (hplaced : IsPlaced source span) :
    source.IsBoundary span.start := by
  obtain ⟨placed, ⟨before, behind, htext, hoffset⟩, rfl⟩ := hplaced
  exact ⟨before, placed.text ++ behind, htext, by simpa [Placed.span] using hoffset.symm⟩

theorem IsPlaced.isBoundary_stop {span : Span} (hplaced : IsPlaced source span) :
    source.IsBoundary span.stop := by
  obtain ⟨placed, ⟨before, behind, htext, hoffset⟩, rfl⟩ := hplaced
  refine ⟨before ++ placed.text, behind, by simpa using htext, ?_⟩
  simp only [Placed.span, Text.byteSize_append, hoffset, Nat.zero_add]

/-- One condition ends before another begins. -/
def Condition.Precedes (left right : Condition) : Prop :=
  left.span.stop < right.span.start

theorem pairwise_of_readFrom {pieces : List Placed} {conditions : List Condition}
    (hread : ReadFrom columns pieces conditions)
    (hpieces : pieces.Pairwise Placed.Precedes) : conditions.Pairwise Condition.Precedes := by
  induction hread with
  | nil => exact .nil
  | @cons piece condition pieces conditions hpiece hrest ih =>
      rw [List.pairwise_cons] at hpieces ⊢
      refine ⟨fun other hother => ?_, ih hpieces.2⟩
      obtain ⟨behind, hbehind, hotherRead⟩ := exists_left_of_forall₂ hrest hother
      rw [Condition.Precedes, Condition.span_of_readAt hpiece, Condition.span_of_readAt hotherRead]
      exact (hpieces.1 behind hbehind).of_within (Placed.strip_within _) (Placed.strip_within _)

theorem isPlaced_of_readFrom {pieces : List Placed} {conditions : List Condition}
    (hread : ReadFrom columns pieces conditions)
    (hwithin : ∀ piece ∈ pieces, piece.Within ⟨source, 0⟩) :
    ∀ condition ∈ conditions, IsPlaced source condition.span := by
  intro condition hcondition
  obtain ⟨piece, hpiece, hpieceRead⟩ := exists_left_of_forall₂ hread hcondition
  exact ⟨piece.strip, (Placed.strip_within piece).trans (hwithin piece hpiece),
    Condition.span_of_readAt hpieceRead⟩

/-! ## First and last -/

/-- The span is a range of the source, from the start of the first condition to the end of
the last. -/
structure RunsOver (source : Text) (span : Span) (conditions : List Condition) : Prop where
  cut : (source.slice? span).isSome
  ends : ∃ first ∈ conditions.head?, ∃ last ∈ conditions.getLast?,
    span = ⟨first.span.start, last.span.stop⟩

theorem getLast?_eq_getLastD {α : Type} (first : α) (rest : List α) :
    (first :: rest).getLast? = some ((first :: rest).getLastD first) := by
  rw [List.getLast?_cons, List.getLastD_cons, List.getLastD_eq_getLast?]

/-- Of spans in order, the first and the last give the ends of the span that covers both. -/
theorem cover_getLastD {α : Type} (spanOf : α → Span) (first : α) (rest : List α)
    (horder : ∀ other ∈ rest, (spanOf first).start ≤ (spanOf other).start ∧
      (spanOf first).stop ≤ (spanOf other).stop) :
    (spanOf first).cover (spanOf ((first :: rest).getLastD first)) =
      ⟨(spanOf first).start, (spanOf ((first :: rest).getLastD first)).stop⟩ := by
  have hlast := List.mem_of_getLast? (getLast?_eq_getLastD first rest)
  generalize (first :: rest).getLastD first = last at hlast ⊢
  rcases List.mem_cons.mp hlast with rfl | hmem
  · simp [Span.cover]
  · obtain ⟨hstart, hstop⟩ := horder last hmem
    rw [Span.cover, Nat.min_eq_left hstart, Nat.max_eq_right hstop]

/-- The conditions of a source, each in its place and one behind the other. -/
structure InOrder (source : Text) (conditions : List Condition) : Prop where
  placed : ∀ condition ∈ conditions, IsPlaced source condition.span
  precedes : conditions.Pairwise Condition.Precedes

theorem InOrder.le_of_mem {first : Condition} {rest : List Condition}
    (horder : InOrder source (first :: rest)) :
    ∀ other ∈ rest, first.span.start ≤ other.span.start ∧ first.span.stop ≤ other.span.stop := by
  intro other hother
  have hprecedes := (List.pairwise_cons.mp horder.precedes).1 other hother
  have hfirst := (horder.placed first (by simp)).start_le_stop
  have hsecond := (horder.placed other (by simp [hother])).start_le_stop
  simp only [Condition.Precedes] at hprecedes
  omega

theorem RunsOver.of_ends {span : Span} {first last : Condition} {rest : List Condition}
    (horder : InOrder source (first :: rest)) (hlast : (first :: rest).getLast? = some last)
    (hspan : span = ⟨first.span.start, last.span.stop⟩) :
    RunsOver source span (first :: rest) := by
  have hmem := List.mem_of_getLast? hlast
  have hfirst := horder.placed first (by simp)
  have hle : first.span.start ≤ last.span.stop := by
    have hlastSpan := (horder.placed last hmem).start_le_stop
    rcases List.mem_cons.mp hmem with rfl | hrest
    · exact hlastSpan
    · exact Nat.le_trans (horder.le_of_mem last hrest).1 hlastSpan
  refine ⟨?_, first, rfl, last, hlast, hspan⟩
  rw [hspan]
  exact Text.isSome_slice?_of_isBoundary hfirst.isBoundary_start
    (horder.placed last hmem).isBoundary_stop hle

theorem Group.runsOver {group : Group} (hgroup : ofConditions? group.conditions = some group)
    (horder : InOrder source group.conditions) :
    RunsOver source group.span group.conditions := by
  obtain ⟨conditions, span⟩ := group
  cases conditions with
  | nil => cases hgroup
  | cons first rest =>
      have hcover := cover_getLastD Condition.span first rest horder.le_of_mem
      cases hgroup
      exact .of_ends horder (getLast?_eq_getLastD first rest) hcover

/-! ## Whole filters -/

/-- Every part of a predicate stands in the source where its span says. -/
structure Predicate.StandsIn (columns : List Column) (source : Text) (predicate : Predicate) :
    Prop where
  conditions_stand : ∀ condition ∈ predicate.conditions, condition.StandsIn columns source
  conditions_precede : predicate.conditions.Pairwise Condition.Precedes
  groups_run : ∀ group ∈ predicate.groups, RunsOver source group.span group.conditions
  run : RunsOver source predicate.span predicate.conditions

/-- The span of a failure is a range of the source.  A condition that is blamed is the text
of that range, and so is an operator that does not go with a date. -/
def Failure.PointsInto (source : Text) (failure : Failure) : Prop :=
  ∃ cut, source.slice? failure.span = some cut ∧
    (∀ condition, failure.cause = .invalidCondition condition →
      failure.message = "invalid filter condition '" ++ cut ++ "'") ∧
    (∀ symbol, failure.cause = .patternOnDate symbol →
      ∃ op : Operator, op.isPattern = true ∧ op.symbol = symbol ∧ cut = symbol)

theorem inOrder_groups {groups : List Group}
    (horder : InOrder source (groups.flatMap (·.conditions))) :
    ∀ group ∈ groups, InOrder source group.conditions := by
  intro group hgroup
  have hsublist : group.conditions.Sublist (groups.flatMap (·.conditions)) := by
    rw [List.flatMap_def]
    exact List.sublist_flatten_of_mem (List.mem_map_of_mem hgroup)
  exact ⟨fun condition hcondition => horder.placed condition (hsublist.subset hcondition),
    horder.precedes.sublist hsublist⟩

/-- The first group begins and ends before the others do. -/
theorem groups_le_of_mem {first : Group} {rest : List Group}
    (horder : InOrder source ((first :: rest).flatMap (·.conditions)))
    (hruns : ∀ group ∈ first :: rest, RunsOver source group.span group.conditions) :
    ∀ other ∈ rest, first.span.start ≤ other.span.start ∧ first.span.stop ≤ other.span.stop := by
  intro other hother
  obtain ⟨_, head, hhead, last, hlast, hfirst⟩ := hruns first (by simp)
  obtain ⟨_, otherHead, hotherHead, otherLast, hotherLast, hspan⟩ := hruns other (by simp [hother])
  have hprecedes := horder.precedes
  rw [List.flatMap_cons, List.pairwise_append] at hprecedes
  have hmem : ∀ condition ∈ other.conditions,
      condition ∈ rest.flatMap (·.conditions) := fun condition hcondition =>
    List.mem_flatMap.mpr ⟨other, hother, hcondition⟩
  have hheads := hprecedes.2.2 head (List.mem_of_head? hhead) otherHead
    (hmem _ (List.mem_of_head? hotherHead))
  have hlasts := hprecedes.2.2 last (List.mem_of_getLast? hlast) otherLast
    (hmem _ (List.mem_of_getLast? hotherLast))
  have hheadSpan := (horder.placed head (by
    rw [List.flatMap_cons]
    exact List.mem_append_left _ (List.mem_of_head? hhead))).start_le_stop
  have hlastSpan := (horder.placed otherLast (by
    rw [List.flatMap_cons]
    exact List.mem_append_right _ (hmem _ (List.mem_of_getLast? hotherLast)))).start_le_stop
  simp only [Condition.Precedes] at hheads hlasts
  rw [hfirst, hspan]
  exact ⟨by dsimp only; omega, by dsimp only; omega⟩

/-- A predicate runs over the conditions of all its groups. -/
theorem Predicate.runsOver {predicate : Predicate} {parts : List (List Placed)}
    (hfrom : predicate.IsReadFrom columns parts)
    (horder : InOrder source predicate.conditions)
    (hruns : ∀ group ∈ predicate.groups, RunsOver source group.span group.conditions) :
    RunsOver source predicate.span predicate.conditions := by
  obtain ⟨first, rest, hgroups, hspan⟩ := hfrom.span_eq
  rw [Predicate.conditions, hgroups] at horder ⊢
  rw [hgroups] at hruns
  have hcover := cover_getLastD Group.span first rest (groups_le_of_mem horder hruns)
  have hlast := getLast?_eq_getLastD first rest
  rw [hspan, hcover]
  generalize (first :: rest).getLastD first = lastGroup at hlast ⊢
  obtain ⟨_, head, hhead, _, _, hfirst⟩ := hruns first (by simp)
  obtain ⟨_, _, _, last, hlastCondition, hlastSpan⟩ :=
    hruns lastGroup (List.mem_of_getLast? hlast)
  have hends : ((first :: rest).flatMap (·.conditions)).getLast? = some last := by
    obtain ⟨init, hinit⟩ := List.getLast?_eq_some_iff.mp hlast
    rw [hinit, List.flatMap_append, List.flatMap_singleton, List.getLast?_append,
      Option.mem_def.mp hlastCondition]
    rfl
  obtain ⟨more, hmore⟩ := List.head?_eq_some_iff.mp hhead
  rw [List.flatMap_cons, hmore, List.cons_append] at horder hends ⊢
  exact .of_ends horder hends (by rw [hfirst, hlastSpan])

theorem Predicate.standsIn_of_read {predicate : Predicate}
    (hread : read columns source = .ok predicate) : predicate.StandsIn columns source := by
  have hfrom := isReadFrom_of_read hread
  have hconditions : ReadFrom columns (sourcePieces source).flatten predicate.conditions :=
    readFrom_flatten hfrom.groups_read
  have hwithin : ∀ piece ∈ (sourcePieces source).flatten, piece.Within ⟨source, 0⟩ :=
    fun piece hpiece => within_source_of_mem_sourcePieces hpiece
  have horder : InOrder source predicate.conditions :=
    ⟨isPlaced_of_readFrom hconditions hwithin,
      pairwise_of_readFrom hconditions (precedes_conditionPieces _)⟩
  have hruns : ∀ group ∈ predicate.groups, RunsOver source group.span group.conditions := by
    intro group hgroup
    obtain ⟨part, -, hpart⟩ := exists_left_of_forall₂ hfrom.groups_read hgroup
    exact Group.runsOver hpart.group_eq (inOrder_groups horder group hgroup)
  refine ⟨?_, horder.precedes, hruns, runsOver hfrom horder hruns⟩
  intro condition hcondition
  obtain ⟨piece, hpiece, hpieceRead⟩ := exists_left_of_forall₂ hconditions hcondition
  exact Condition.standsIn_of_readAt hpieceRead (hwithin piece hpiece)

theorem Failure.pointsInto_of_readAt {piece : Placed} {failure : Failure}
    (hread : Condition.readAt columns piece = .error failure)
    (hwithin : piece.Within ⟨source, 0⟩) : failure.PointsInto source := by
  have hstrip := (Placed.strip_within piece).trans hwithin
  rcases Condition.failure_of_readAt hread with rfl | rfl | ⟨written, htext, hnone, rfl⟩
  · have hempty : (Placed.mk [] piece.strip.offset).Within ⟨source, 0⟩ :=
      Placed.Within.trans ⟨[], piece.strip.text, rfl, rfl⟩ hstrip
    exact ⟨[], hempty.slice?, by rintro _ ⟨⟩, by rintro _ ⟨⟩⟩
  · refine ⟨piece.strip.text, hstrip.slice?, ?_, by rintro _ ⟨⟩⟩
    rintro _ ⟨⟩
    rfl
  · have hop : (Placed.mk written.op.symbol (written.opSpan piece.strip.offset).start).Within
        ⟨source, 0⟩ := by
      have hwritten : (Placed.mk written.text piece.strip.offset).Within ⟨source, 0⟩ := by
        rw [← htext]
        exact hstrip
      exact (written.op_within _).trans hwritten
    refine ⟨written.op.symbol, hop.slice?, by rintro _ ⟨⟩, ?_⟩
    rintro _ ⟨⟩
    exact ⟨written.op, (operandOf?_eq_none_iff.mp hnone).1, rfl, rfl⟩

theorem Failure.pointsInto_of_read {failure : Failure}
    (hread : Predicate.read columns source = .error failure) : failure.PointsInto source := by
  rcases Predicate.read_cases columns source with
    ⟨-, hempty⟩ | ⟨piece, hpiece, failed, hfailed, hpieceRead⟩ | ⟨-, hnone⟩ | ⟨predicate, hok, -⟩
  · cases hempty.symm.trans hread
    have hwhole := (Placed.Within.refl ⟨source, 0⟩).slice?
    rw [Placed.span, Nat.zero_add] at hwhole
    exact ⟨source, hwhole, by rintro _ ⟨⟩, by rintro _ ⟨⟩⟩
  · cases hpieceRead.symm.trans hread
    exact Failure.pointsInto_of_readAt hfailed (within_source_of_mem_sourcePieces hpiece)
  · cases hnone.symm.trans hread
    exact ⟨_, (Placed.strip_within ⟨source, 0⟩).slice?, by rintro _ ⟨⟩, by rintro _ ⟨⟩⟩
  · cases hok.symm.trans hread

/-- What is read of a filter stands in it where its spans say, and a filter that cannot be
read fails at a range of its text. -/
theorem spans_cut_source (columns : List Column) (source : Text) :
    match Predicate.read columns source with
    | .ok predicate => predicate.StandsIn columns source
    | .error failure => failure.PointsInto source := by
  cases hread : Predicate.read columns source with
  | ok predicate => exact Predicate.standsIn_of_read hread
  | error failure => exact Failure.pointsInto_of_read hread

/-- A source of two groups is read, and all of it stands where its spans say. -/
theorem spans_cut_source_two_groups :
    ∃ predicate, Predicate.read [] " a=1 & b>=2|c=@7d" = .ok predicate ∧
      predicate.groups.length = 2 ∧ predicate.StandsIn [] " a=1 & b>=2|c=@7d" := by
  have hgroups : (Predicate.read [] " a=1 & b>=2|c=@7d").toOption.map (·.groups.length) =
      some 2 := by
    decide +kernel
  have hspans := spans_cut_source [] " a=1 & b>=2|c=@7d"
  cases hread : Predicate.read [] " a=1 & b>=2|c=@7d" with
  | error failure =>
      rw [hread] at hgroups
      cases hgroups
  | ok predicate =>
      rw [hread] at hgroups hspans
      exact ⟨predicate, rfl, Option.some.inj hgroups, hspans⟩

end Filter

end TableBrowser
