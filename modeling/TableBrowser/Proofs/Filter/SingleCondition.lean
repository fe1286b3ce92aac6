import TableBrowser.Proofs.Filter.Layout
import TableBrowser.Sql.Clause

/-!
# Filters of one condition

A text without combinators is one piece, so it is read as one group of one condition if it
is read as a condition, and the clause of such a filter is the text of that condition.
-/

namespace TableBrowser.Filter

open TableBrowser.Text (IsTrimmed IsWord)

variable {columns : List Column} {predicate : Predicate} {condition : Condition}

/-- The predicate says no more than one condition. -/
def Predicate.IsSingle (predicate : Predicate) (condition : Condition) : Prop :=
  ∃ group : Group, predicate.groups = [group] ∧ group.conditions = [condition]

theorem Predicate.IsSingle.predicateText_eq (hsingle : predicate.IsSingle condition)
    (dialect : Sql.Dialect) :
    Sql.predicateText dialect predicate = Sql.conditionText dialect condition := by
  obtain ⟨group, hgroups, hconditions⟩ := hsingle
  rw [Sql.predicateText, hgroups, List.map_singleton, List.intercalate_singleton, Sql.groupText,
    hconditions, List.map_singleton, List.length_singleton, if_neg (Nat.lt_irrefl 1),
    List.flatten_singleton]

theorem Predicate.IsSingle.isTyped_of_read (hsingle : predicate.IsSingle condition)
    {source : Text} (hread : Predicate.read columns source = .ok predicate) :
    condition.IsTyped := by
  obtain ⟨group, hgroups, hconditions⟩ := hsingle
  have hgroup := (Predicate.isTyped_of_read hread).2 group (by simp [hgroups])
  exact hgroup.conditions_typed condition (by simp [hconditions])

/-! ## Reading one piece -/

theorem splitAt_of_isPlain {separator : Char} {placed : Placed}
    (hfree : separator ∉ placed.text) : placed.splitAt separator = [placed] := by
  rw [Placed.splitAt, Text.splitAt_of_not_mem hfree]
  rfl

/-- A text without combinators is one piece, or none if it is blank. -/
theorem conditionPieces_of_isPlain {placed : Placed} (hplain : IsPlain placed.text) :
    conditionPieces placed = if placed.isBlank then [] else [[placed]] := by
  rw [conditionPieces, splitAt_of_isPlain hplain.or_not_mem, List.map_singleton,
    splitAt_of_isPlain hplain.and_not_mem]
  cases hblank : placed.isBlank <;> simp [hblank]

/-- A trimmed text without combinators and without a question mark in front is one piece. -/
theorem sourcePieces_of_isPlain {t : Text} (htrimmed : IsTrimmed t)
    (hmark : t.head? ≠ some '?') (hplain : IsPlain t) (hne : t ≠ []) :
    sourcePieces t = [[⟨t, 0⟩]] := by
  have hstrip := Placed.strip_eq_self 0 htrimmed hmark
  have hsolid : ¬ (Placed.mk t 0).isBlank = true := by
    rw [Placed.isBlank_iff, hstrip]
    exact hne
  rw [sourcePieces, hstrip, conditionPieces_of_isPlain hplain, if_neg hsolid]

/-- A source of one piece fails as the piece does, or is read as the piece is. -/
theorem Predicate.read_of_piece {source : Text} {piece : Placed}
    (hpieces : sourcePieces source = [[piece]]) :
    (∃ failure, Condition.readAt columns piece = .error failure ∧
        Predicate.read columns source = .error failure) ∨
      ∃ condition predicate, Condition.readAt columns piece = .ok condition ∧
        Predicate.read columns source = .ok predicate ∧ predicate.IsSingle condition := by
  rcases Predicate.read_cases columns source with
    ⟨hnil, -⟩ | ⟨other, hmem, failure, hfailed, hsource⟩ | ⟨hnil, -⟩ | ⟨predicate, hsource, hfrom⟩
  · rw [hpieces] at hnil
    cases hnil
  · rw [hpieces, List.flatten_singleton, List.mem_singleton] at hmem
    subst hmem
    exact .inl ⟨failure, hfailed, hsource⟩
  · rw [hpieces] at hnil
    cases hnil
  · have hgroups := hfrom.groups_read
    rw [hpieces] at hgroups
    obtain ⟨group, groups, hgroup, hrest, hgroupsEq⟩ := List.forall₂_cons_left_iff.mp hgroups
    obtain ⟨condition, conditions, hread, hmore, hconditionsEq⟩ :=
      List.forall₂_cons_left_iff.mp hgroup.conditions_read
    rw [List.forall₂_nil_left_iff] at hrest hmore
    exact .inr ⟨condition, predicate, hread, hsource, group, by rw [hgroupsEq, hrest],
      by rw [hconditionsEq, hmore]⟩

/-- A source without combinators that is one condition is read as it. -/
theorem Predicate.exists_read_of_isProper {written : ConditionText} {operand : Operand}
    (hproper : written.IsProper) (hplain : IsPlain written.text)
    (hoperand : operandOf? columns written.column written.op written.value = some operand) :
    ∃ predicate, Predicate.read columns written.text = .ok predicate ∧
      predicate.IsSingle (written.conditionAt 0 operand) := by
  obtain ⟨c, rest, hcons, -⟩ := hproper.exists_cons
  have hpieces := sourcePieces_of_isPlain hproper.isTrimmed_text hproper.head?_ne hplain
    (by rw [hcons]; exact List.cons_ne_nil c rest)
  have hstrip := Placed.strip_eq_self 0 hproper.isTrimmed_text hproper.head?_ne
  have hcondition : Condition.readAt columns ⟨written.text, 0⟩ =
      .ok (written.conditionAt 0 operand) := by
    rw [Condition.readAt_eq_ok_iff]
    exact ⟨written, operand, hproper, congrArg Placed.text hstrip, hoperand, by rw [hstrip]⟩
  rcases Predicate.read_of_piece hpieces with
    ⟨failure, hfailed, -⟩ | ⟨condition, predicate, hread, hsource, hsingle⟩
  · cases hcondition.symm.trans hfailed
  · cases hcondition.symm.trans hread
    exact ⟨predicate, hsource, hsingle⟩

/-! ## Equalities -/

/-- A value that a filter can carry, and that is no date token. -/
structure IsCarriedValue (value : Text) : Prop where
  ne_nil : value ≠ []
  trimmed : value.trim = value
  plain : IsPlain value
  undated : RelativeDate.ofToken? value = none

theorem isCarriedValue_iff (value : Text) :
    IsCarriedValue value ↔ value ≠ [] ∧ value.trim = value ∧ IsPlain value ∧
      RelativeDate.ofToken? value = none :=
  ⟨fun hvalue => ⟨hvalue.1, hvalue.2, hvalue.3, hvalue.4⟩,
    fun ⟨hne, htrimmed, hplain, hundated⟩ => ⟨hne, htrimmed, hplain, hundated⟩⟩

instance : DecidablePred IsCarriedValue :=
  fun value => decidable_of_iff' _ (isCarriedValue_iff value)

/-- Values of a column that does not hold raw bytes are numbers or text. -/
theorem Operand.classify_of_not_binary {type? : Option Text}
    (hplain : type?.any Column.holdsBinary = false) (value : Text) :
    classify type? value = if isNumeric value then .number value else .text value := by
  rw [classify, hplain, if_neg Bool.false_ne_true]

/-- The source that compares a column with a value. -/
def equalitySource (word value : Text) : Text :=
  word ++ '=' :: value

theorem exists_read_equalitySource (columns : List Column) {word value : Text}
    (hword : IsWord word) (hvalue : IsCarriedValue value) :
    ∃ predicate condition,
      Predicate.read columns (equalitySource word value) = .ok predicate ∧
        predicate.IsSingle condition ∧
        condition.meaning =
          ⟨word, .equal, .classify (Column.typeOf? columns word) value⟩ := by
  let written : ConditionText := ⟨word, [], .equal, [], value⟩
  have hproper : written.IsProper :=
    { column_word := hword
      gap_blank := Text.allBlank_nil
      space_blank := Text.allBlank_nil
      value_ne_nil := hvalue.ne_nil
      value_trimmed := Text.trim_eq_self_iff.mp hvalue.trimmed
      op_ends := fun hlonger => hlonger.elim nofun nofun }
  have htext : written.text = equalitySource word value := rfl
  have hplain : IsPlain written.text :=
    (isPlain_of_class (by decide) (by decide) hword.chars).append
      (show IsPlain ('=' :: value) from
        List.forall_mem_cons.mpr ⟨by decide, hvalue.plain⟩)
  have hoperand : operandOf? columns word .equal value =
      some (.classify (Column.typeOf? columns word) value) := by
    rw [operandOf?, hvalue.undated]
    rfl
  obtain ⟨predicate, hread, hsingle⟩ := Predicate.exists_read_of_isProper hproper hplain hoperand
  exact ⟨predicate, _, htext ▸ hread, hsingle, rfl⟩

end TableBrowser.Filter
