import TableBrowser.Proofs.Filter.PreviewText

/-!
# Clauses behind one preview

Two sources that are shown with one preview compile to one clause unless a text of one of them
runs over a condition of the other.  If one does, their clauses differ: a clause is read with the
strings of its operands, and these differ at the text that runs over.
-/

namespace TableBrowser.Sql

open TableBrowser.Filter

variable {left right predicate : Predicate}

/-! ## What a clause depends on -/

/-- A condition as it is written, from what it says. -/
def meaningText (dialect : Dialect) (meaning : Meaning) : Text :=
  meaning.column ++ " " ++ meaning.op.keyword ++ " " ++
    comparandText dialect meaning.op meaning.operand

theorem groupText_congr (dialect : Dialect) {left right : Group}
    (heq : left.conditions.map (·.meaning) = right.conditions.map (·.meaning)) :
    groupText dialect left = groupText dialect right := by
  have hparts (group : Group) : group.conditions.map (conditionText dialect) =
      (group.conditions.map (·.meaning)).map (meaningText dialect) := by
    rw [List.map_map]
    rfl
  rw [groupText, groupText, hparts left, hparts right, heq]

/-- A clause depends on what the conditions of the groups say. -/
theorem predicateText_congr (dialect : Dialect) (heq : left.meanings = right.meanings) :
    predicateText dialect left = predicateText dialect right := by
  have hfactors : (groupText dialect).FactorsThrough
      fun group => group.conditions.map (·.meaning) :=
    fun _ _ => groupText_congr dialect
  obtain ⟨meaningsText, hgroupText⟩ := (Function.factorsThrough_iff _).mp hfactors
  rw [predicateText, predicateText, hgroupText, ← List.map_map, ← List.map_map]
  exact congrArg (fun meanings => List.intercalate " OR ".toList (meanings.map meaningsText)) heq

/-! ## The strings of a clause -/

def Lexeme.string? : Lexeme → Option Text
  | .string value => some value
  | _ => none

/-- The strings that the operand of a condition is written with. -/
def meaningStrings (dialect : Dialect) (meaning : Meaning) : List Text :=
  rowPicks Lexeme.string? (comparandRow dialect meaning.op meaning.operand)

/-- The strings a clause is read with are those of its operands. -/
theorem strings_predicateText (dialect : Dialect)
    (htyped : ∀ group ∈ predicate.groups, group.IsTyped) :
    (lexemes (predicateText dialect predicate)).filterMap (·.value.string?) =
      predicate.links.flatMap fun link => meaningStrings dialect link.meaning := by
  have hlinks := congrArg (·.flatMap (meaningStrings dialect)) predicate.map_meaning_links
  simp only [List.flatMap_map] at hlinks
  rw [hlinks, Predicate.conditions, List.flatMap_assoc, ← rowText_groupsRow,
    filterMap_lexemes_rowText _ (separated_groupsRow dialect htyped delimits_nil),
    rowPicks_groupsRow (fun _ => rfl) (fun _ => rfl)]
  rfl

theorem pattern_inj {op : Operator} {value other : Text}
    (heq : (op.pattern? value).getD value = (op.pattern? other).getD other) : value = other := by
  cases op with
  | contains => exact List.append_cancel_left (List.append_cancel_right heq)
  | startsWith => exact List.append_cancel_right heq
  | endsWith => exact List.append_cancel_left heq
  | equal | notEqual | greater | greaterEqual | less | lessEqual => exact heq

theorem strings_ne_of_textRunsOver (dialect : Dialect) {left right : List Link}
    (hover : TextRunsOver left right) :
    (left.flatMap fun link => meaningStrings dialect link.meaning) ≠
      right.flatMap fun link => meaningStrings dialect link.meaning := by
  induction hover with
  | here =>
      intro heq
      have hshort := pattern_inj (List.cons.inj heq).1
      exact absurd (List.self_eq_append_right.mp hshort) (List.cons_ne_nil _ _)
  | later link hrest ih => exact fun heq => ih (List.append_cancel_left heq)

/-- A filter that runs over a condition of another one has another clause. -/
theorem predicateText_ne_of_textRunsOver (dialect : Dialect)
    (hleft : ∀ group ∈ left.groups, group.IsTyped)
    (hright : ∀ group ∈ right.groups, group.IsTyped)
    (hover : TextRunsOver left.links right.links) :
    predicateText dialect left ≠ predicateText dialect right := by
  intro heq
  apply strings_ne_of_textRunsOver dialect hover
  rw [← strings_predicateText dialect hleft, heq, strings_predicateText dialect hright]

/-- Behind one preview there is one clause exactly if neither filter runs over a condition of
the other. -/
theorem predicateText_eq_iff (dialect : Dialect) (hleftNe : left.groups ≠ [])
    (hleft : ∀ group ∈ left.groups, group.IsTyped) (hrightNe : right.groups ≠ [])
    (hright : ∀ group ∈ right.groups, group.IsTyped) (heq : left.preview = right.preview) :
    predicateText dialect left = predicateText dialect right ↔
      ¬ TextRunsOver left.links right.links ∧ ¬ TextRunsOver right.links left.links := by
  constructor
  · intro hclause
    exact ⟨fun hover => predicateText_ne_of_textRunsOver dialect hleft hright hover hclause,
      fun hover => predicateText_ne_of_textRunsOver dialect hright hleft hover hclause.symm⟩
  · rintro ⟨hoverRight, hoverLeft⟩
    rcases links_eq_or_textRunsOver hleftNe hleft hrightNe hright heq with hlinks | hover | hover
    · exact predicateText_congr dialect (meanings_eq_of_links_eq hleft hright hlinks)
    · exact absurd hover hoverRight
    · exact absurd hover hoverLeft

/-- Two sources shown with one preview compile to one clause exactly if neither runs over a
condition of the other, and exactly if they say the same, group by group.  Without quotation
marks in the texts they always do. -/
theorem previews_decide_clauses (dialect : Dialect) (columns : List Column)
    (leftSource rightSource : Text) {leftCompiled rightCompiled : Compiled}
    (hleft : compile dialect columns leftSource = .ok leftCompiled)
    (hright : compile dialect columns rightSource = .ok rightCompiled)
    (hpreview : leftCompiled.preview = rightCompiled.preview) :
    ∃ left right, Predicate.read columns leftSource = .ok left ∧
      Predicate.read columns rightSource = .ok right ∧
      (leftCompiled.clause = rightCompiled.clause ↔
        ¬ TextRunsOver left.links right.links ∧ ¬ TextRunsOver right.links left.links) ∧
      (leftCompiled.clause = rightCompiled.clause ↔ left.meanings = right.meanings) ∧
      (left.IsQuoteFree → right.IsQuoteFree → leftCompiled.clause = rightCompiled.clause) := by
  obtain ⟨left, hleftRead, rfl⟩ := exists_read_of_compile hleft
  obtain ⟨right, hrightRead, rfl⟩ := exists_read_of_compile hright
  obtain ⟨hleftNe, hleftTyped⟩ := Predicate.isTyped_of_read hleftRead
  obtain ⟨hrightNe, hrightTyped⟩ := Predicate.isTyped_of_read hrightRead
  have hclause := predicateText_eq_iff dialect hleftNe hleftTyped hrightNe hrightTyped hpreview
  refine ⟨left, right, hleftRead, hrightRead, hclause, ⟨fun heq => ?_, ?_⟩, ?_⟩
  · obtain ⟨hoverRight, hoverLeft⟩ := hclause.mp heq
    have hlinks := links_eq_or_textRunsOver hleftNe hleftTyped hrightNe hrightTyped hpreview
    exact meanings_eq_of_links_eq hleftTyped hrightTyped
      (hlinks.resolve_right (not_or.mpr ⟨hoverRight, hoverLeft⟩))
  · exact predicateText_congr dialect
  · intro hleftFree hrightFree
    exact hclause.mpr ⟨hrightFree.not_textRunsOver _, hleftFree.not_textRunsOver _⟩

/-- Two layouts of one filter, with quotation marks in its text. -/
theorem previews_decide_clauses_layouts :
    ∃ compiled : Compiled, ∃ left right : Predicate,
      compiled.preview = "WHERE name equals \"say \"hi\"\" OR n greater than today".toList ∧
        compile .sqlite [] "name=say \"hi\"|n>@today" = .ok compiled ∧
        compile .sqlite [] "? name = say \"hi\" ||n > @today&" = .ok compiled ∧
        Predicate.read [] "name=say \"hi\"|n>@today" = .ok left ∧
        Predicate.read [] "? name = say \"hi\" ||n > @today&" = .ok right ∧
        left.meanings = right.meanings ∧ ¬ TextRunsOver left.links right.links ∧
        ¬ TextRunsOver right.links left.links := by
  let compiled : Compiled := ⟨"name = 'say \"hi\"' OR n > date('now')",
    "WHERE name equals \"say \"hi\"\" OR n greater than today"⟩
  have htyped : compile .sqlite [] "name=say \"hi\"|n>@today" = .ok compiled := rfl
  have hlaid : compile .sqlite [] "? name = say \"hi\" ||n > @today&" = .ok compiled := rfl
  obtain ⟨left, right, hleft, hright, hclause, hmeanings, -⟩ :=
    previews_decide_clauses .sqlite [] _ _ htyped hlaid rfl
  obtain ⟨hoverRight, hoverLeft⟩ := hclause.mp rfl
  exact ⟨compiled, left, right, rfl, htyped, hlaid, hleft, hright, hmeanings.mp rfl, hoverRight,
    hoverLeft⟩

/-- A text that is shown as if a condition stood behind it. -/
theorem preview_shows_text_as_condition :
    compile .sqlite [] "name=x\" AND b equals \"y" =
        .ok ⟨"name = 'x\" AND b equals \"y'", "WHERE name equals \"x\" AND b equals \"y\""⟩ ∧
      compile .sqlite [] "name=x&b=y" =
        .ok ⟨"(name = 'x' AND b = 'y')", "WHERE name equals \"x\" AND b equals \"y\""⟩ ∧
      "name = 'x\" AND b equals \"y'".toList ≠ "(name = 'x' AND b = 'y')".toList :=
  ⟨rfl, rfl, by decide⟩

end TableBrowser.Sql
