import TableBrowser.Proofs.Filter.BareParts
import TableBrowser.Proofs.Filter.Positions

/-!
# The grammar of conditions

A condition is a word, white space, an operator and a value with white space around it, where
the word and the operator are as long as the text allows.  The grammar says this of a text
without reading it.  A text is read as a condition exactly if what is left of it after trimming
has this form, and then as the parts that the grammar names; every other text fails as a whole.
-/

namespace TableBrowser

namespace Text

/-- What is left of a text when the white space at its ends comes off. -/
def TrimsTo (t core : Text) : Prop :=
  IsTrimmed core ∧ ∃ before behind, AllBlank before ∧ AllBlank behind ∧
    t = before ++ (core ++ behind)

theorem trimsTo_iff {t core : Text} : TrimsTo t core ↔ t.trim = core := by
  constructor
  · rintro ⟨htrimmed, before, behind, hbefore, hbehind, rfl⟩
    calc
      (before ++ (core ++ behind)).trim = (core ++ behind).trim := trim_blanks_append hbefore _
      _ = core.trim := trim_append_blanks hbehind core
      _ = core := trim_eq_self_iff.mpr htrimmed
  · rintro rfl
    obtain ⟨behind, hbehind, happend⟩ := exists_trimEnd_append t.trimStart
    refine ⟨isTrimmed_trim t, t.takeWhile isBlank, behind, allBlank_takeWhile t, hbehind, ?_⟩
    rw [trim, happend, takeWhile_append_trimStart]

/-- No word at the start of a text goes beyond the longest one. -/
theorem isPrefix_of_stopsRun {class? : Char → Bool} {run behind longer : Text}
    (hstop : StopsRun class? behind) (hrun : ∀ c ∈ run, class? c = true)
    (hlonger : ∀ c ∈ longer, class? c = true) (hbegins : longer <+: run ++ behind) :
    longer <+: run := by
  obtain ⟨more, hmore⟩ := hbegins
  have htaken := congrArg (List.takeWhile class?) hmore
  rw [takeWhile_append_of_stopsRun hrun hstop, List.takeWhile_append_of_pos hlonger] at htaken
  exact ⟨_, htaken⟩

end Text

namespace Filter

open TableBrowser.Text (AllBlank IsTrimmed IsWord TrimsTo trimsTo_iff)

/-! ## The grammar -/

/-- What is left of a text when it is trimmed and one question mark in front comes off, with
the white space behind it. -/
inductive StripsTo (t body : Text) : Prop
  | unmarked (htrims : TrimsTo t body) (hmark : body.head? ≠ some '?')
  | marked (rest : Text) (htrims : TrimsTo t ('?' :: rest)) (hrest : TrimsTo rest body)

/-- The text is the column, white space, the operator and the value with white space around
it.  No longer word and no longer operator could be taken. -/
structure SpellsAround (body column gap : Text) (op : Operator) (rest value : Text) : Prop where
  body_eq : body = column ++ (gap ++ (op.symbol ++ rest))
  column_word : IsWord column
  column_longest : ∀ longer, IsWord longer → longer <+: body → longer <+: column
  gap_blank : AllBlank gap
  op_longest : ∀ longer : Operator, longer.symbol <+: op.symbol ++ rest →
    longer.symbol <+: op.symbol
  value_trimmed : TrimsTo rest value
  value_ne_nil : value ≠ []

/-- The text is a condition of these three parts. -/
def Spells (body column : Text) (op : Operator) (value : Text) : Prop :=
  ∃ gap rest, SpellsAround body column gap op rest value

/-! ## Trimming -/

theorem isUnmarked_of_head? {t : Text} (htrimmed : IsTrimmed t) (hmark : t.head? ≠ some '?') :
    IsUnmarked t := by
  rw [IsUnmarked, Text.trimStart_eq_self htrimmed.starts]
  exact hmark

/-- The text that is read as a condition is the one that the grammar speaks of. -/
theorem stripsTo_iff {t body : Text} : StripsTo t body ↔ bareText t = body := by
  constructor
  · intro hstrips
    cases hstrips with
    | unmarked htrims hmark =>
        calc
          bareText t = bareText t.trim := (bareText_trim t).symm
          _ = bareText body := congrArg bareText (trimsTo_iff.mp htrims)
          _ = body.trim := bareText_of_isUnmarked (isUnmarked_of_head? htrims.1 hmark)
          _ = body := Text.trim_eq_self_iff.mpr htrims.1
    | marked rest htrims hrest =>
        calc
          bareText t = bareText t.trim := (bareText_trim t).symm
          _ = bareText ('?' :: rest) := congrArg bareText (trimsTo_iff.mp htrims)
          _ = body := trimsTo_iff.mp hrest
  · rintro rfl
    by_cases hmark : t.trim.head? = some '?'
    · obtain ⟨rest, hrest⟩ := List.head?_eq_some_iff.mp hmark
      have hbare : bareText t = Text.trim rest := by rw [← bareText_trim, hrest, bareText_mark]
      exact .marked rest (trimsTo_iff.mpr hrest) (trimsTo_iff.mpr hbare.symm)
    · have hbare : bareText t = t.trim := by
        rw [← bareText_trim, bareText_of_isUnmarked
          (isUnmarked_of_head? (Text.isTrimmed_trim t) hmark),
          Text.trim_eq_self_iff.mpr (Text.isTrimmed_trim t)]
      rw [hbare]
      exact .unmarked (trimsTo_iff.mpr rfl) hmark

/-! ## Operators -/

namespace Operator

theorem length_symbol_pos (op : Operator) : 0 < op.symbol.length := by
  cases op <;> decide

/-- A symbol at the start of a text is not longer than the operator that is read there. -/
theorem symbol_isPrefix_of_endsBefore {op longer : Operator} {behind : Text}
    (hends : op.EndsBefore behind) (hbegins : longer.symbol <+: op.symbol ++ behind) :
    longer.symbol <+: op.symbol := by
  have hread := (leading?_append op behind).mpr hends
  obtain ⟨more, hmore⟩ := hbegins
  rw [← hmore] at hread
  by_cases hlonger : longer.EndsBefore more
  · cases ((leading?_append longer more).mpr hlonger).symm.trans hread
    exact List.prefix_rfl
  · -- Only the two operators of one character go on with an equals sign.
    have hop : longer = .greater ∨ longer = .less := by
      by_contra hother
      exact hlonger fun hop => absurd hop hother
    apply List.prefix_of_prefix_length_le ⟨more, hmore⟩ (List.prefix_append _ _)
    have hone : longer.symbol.length = 1 := by
      rcases hop with rfl | rfl <;> rfl
    rw [hone]
    exact op.length_symbol_pos

/-- If no longer operator could be taken, the operator is not read as a longer one. -/
theorem endsBefore_of_longest {op : Operator} {behind : Text}
    (hlongest : ∀ longer : Operator, longer.symbol <+: op.symbol ++ behind →
      longer.symbol <+: op.symbol) : op.EndsBefore behind := by
  rintro hop hhead
  obtain ⟨more, rfl⟩ := List.head?_eq_some_iff.mp hhead
  rcases hop with rfl | rfl
  · exact absurd (hlongest .greaterEqual ⟨more, rfl⟩) (by decide)
  · exact absurd (hlongest .lessEqual ⟨more, rfl⟩) (by decide)

end Operator

/-! ## The parts that are read -/

/-- A text that ends with other characters than white space has none behind its value. -/
theorem eq_nil_of_isTrimmed {before behind : Text} (htrimmed : IsTrimmed (before ++ behind))
    (hblank : AllBlank behind) : behind = [] := by
  by_contra hne
  obtain ⟨c, more, hreverse⟩ := List.exists_cons_of_ne_nil (List.reverse_ne_nil_iff.mpr hne)
  have hsolid : Text.isBlank c = false :=
    htrimmed.ends c (by rw [List.reverse_append, hreverse]; exact Option.mem_some_self c)
  have hspace : Text.isBlank c = true := hblank.reverse c (by rw [hreverse]; simp)
  rw [hsolid] at hspace
  cases hspace

/-- The grammar names the parts that a reader finds. -/
theorem spells_iff {body column value : Text} {op : Operator} (htrimmed : IsTrimmed body) :
    Spells body column op value ↔
      ∃ written : ConditionText, written.IsProper ∧ body = written.text ∧
        written.column = column ∧ written.op = op ∧ written.value = value := by
  constructor
  · rintro ⟨gap, rest, hspells⟩
    obtain ⟨hvalue, space, behind, hspace, hbehind, hrest⟩ := hspells.value_trimmed
    have hbody : body = (column ++ (gap ++ (op.symbol ++ (space ++ value)))) ++ behind := by
      rw [hspells.body_eq, hrest]
      simp only [List.append_assoc]
    have hnone : behind = [] := eq_nil_of_isTrimmed (hbody ▸ htrimmed) hbehind
    rw [hnone, List.append_nil] at hbody hrest
    refine ⟨⟨column, gap, op, space, value⟩, ?_, hbody, rfl, rfl, rfl⟩
    exact
      { column_word := hspells.column_word
        gap_blank := hspells.gap_blank
        space_blank := hspace
        value_ne_nil := hspells.value_ne_nil
        value_trimmed := hvalue
        op_ends := hrest ▸ Operator.endsBefore_of_longest hspells.op_longest }
  · rintro ⟨written, hproper, rfl, rfl, rfl, rfl⟩
    refine ⟨written.gap, written.space ++ written.value, ?_⟩
    exact
      { body_eq := rfl
        column_word := hproper.column_word
        column_longest := fun longer hlonger hbegins =>
          Text.isPrefix_of_stopsRun (hproper.stopsRun_gap _) hproper.column_word.chars
            hlonger.chars hbegins
        gap_blank := hproper.gap_blank
        op_longest := fun longer hbegins =>
          Operator.symbol_isPrefix_of_endsBefore hproper.op_ends hbegins
        value_trimmed := ⟨hproper.value_trimmed, written.space, [], hproper.space_blank,
          Text.allBlank_nil, by rw [List.append_nil]⟩
        value_ne_nil := hproper.value_ne_nil }

/-- The bytes of a span hold this part of a text, which begins and ends between characters. -/
def Placed.Shows (placed : Placed) (span : Span) (part : Text) : Prop :=
  ∃ start, (Placed.mk part start).Within placed ∧ span = (Placed.mk part start).span

namespace ConditionParts

variable {placed : Placed} {parts : ConditionParts} {failure : Failure}

/-- A text is read as three parts exactly if what is left of it is a condition of them. -/
theorem exists_read_iff (placed : Placed) (column : Text) (op : Operator) (value : Text) :
    (∃ parts, read placed = .ok parts ∧ parts.column.value = column ∧ parts.op.value = op ∧
        parts.value.value = value) ↔
      Spells placed.strip.text column op value := by
  rw [spells_iff placed.isTrimmed_strip]
  constructor
  · rintro ⟨parts, hread, rfl, rfl, rfl⟩
    obtain ⟨written, hproper, htext, rfl⟩ := exists_isProper_of_read hread
    exact ⟨written, hproper, htext, rfl, rfl, rfl⟩
  · rintro ⟨written, hproper, htext, rfl, rfl, rfl⟩
    exact ⟨_, read_of_isProper hproper htext, rfl, rfl, rfl⟩

theorem not_spells_of_error (hread : read placed = .error failure) (column : Text)
    (op : Operator) (value : Text) : ¬ Spells placed.strip.text column op value := by
  intro hspells
  obtain ⟨parts, hok, -⟩ := (exists_read_iff placed column op value).mpr hspells
  cases hok.symm.trans hread

/-- A text that is no condition cannot be read. -/
theorem exists_error_of_not_spells
    (hnone : ∀ column op value, ¬ Spells placed.strip.text column op value) :
    ∃ failure, read placed = .error failure := by
  cases hread : read placed with
  | error failure => exact ⟨failure, rfl⟩
  | ok parts =>
      have hspells := (exists_read_iff placed _ _ _).mp ⟨parts, hread, rfl, rfl, rfl⟩
      exact absurd hspells (hnone _ _ _)

theorem not_spells_nil (column : Text) (op : Operator) (value : Text) :
    ¬ Spells [] column op value := by
  rintro ⟨gap, rest, hspells⟩
  exact hspells.column_word.ne_nil (List.append_eq_nil_iff.mp hspells.body_eq.symm).1

/-- A text fails as empty exactly if nothing is left of it. -/
theorem exists_empty_iff (placed : Placed) :
    (∃ failure, read placed = .error failure ∧ failure.cause = .emptyInput) ↔
      placed.strip.text = [] := by
  constructor
  · rintro ⟨failure, hread, hcause⟩
    rw [cause_of_read hread] at hcause
    by_contra hsolid
    rw [if_neg hsolid] at hcause
    cases hcause
  · intro hempty
    obtain ⟨failure, hread⟩ := exists_error_of_not_spells (hempty ▸ not_spells_nil)
    exact ⟨failure, hread, by rw [cause_of_read hread, if_pos hempty]⟩

/-- A text fails as invalid exactly if something is left of it that is no condition. -/
theorem exists_invalid_iff (placed : Placed) (body : Text) :
    (∃ failure, read placed = .error failure ∧ failure.cause = .invalidCondition body) ↔
      placed.strip.text = body ∧ body ≠ [] ∧ ∀ column op value, ¬ Spells body column op value := by
  constructor
  · rintro ⟨failure, hread, hcause⟩
    rw [cause_of_read hread] at hcause
    split at hcause
    · cases hcause
    · next hsolid =>
        cases hcause
        exact ⟨rfl, hsolid, not_spells_of_error hread⟩
  · rintro ⟨rfl, hsolid, hnone⟩
    obtain ⟨failure, hread⟩ := exists_error_of_not_spells hnone
    exact ⟨failure, hread, by rw [cause_of_read hread, if_neg hsolid]⟩

/-! ## Where the parts stand -/

/-- The parts stand in the text where their spans say. -/
structure StandIn (parts : ConditionParts) (placed : Placed) (body : Text) : Prop where
  column_shown : placed.Shows parts.column.span parts.column.value
  op_shown : placed.Shows parts.op.span parts.op.value.symbol
  value_shown : placed.Shows parts.value.span parts.value.value
  body_shown : placed.Shows parts.span body

theorem strip_shown (placed : Placed) : placed.Shows placed.strip.span placed.strip.text :=
  ⟨_, placed.strip_within, rfl⟩

theorem standIn_of_read (hread : read placed = .ok parts) :
    parts.StandIn placed placed.strip.text := by
  obtain ⟨written, -, htext, rfl⟩ := exists_isProper_of_read hread
  have hwithin : (Placed.mk written.text placed.strip.offset).Within placed := by
    rw [← htext]
    exact placed.strip_within
  exact
    { column_shown := ⟨_, (written.column_within _).trans hwithin, rfl⟩
      op_shown := ⟨_, (written.op_within _).trans hwithin, rfl⟩
      value_shown := ⟨_, (written.value_within _).trans hwithin, rfl⟩
      body_shown := by
        rw [htext]
        exact ⟨_, hwithin, rfl⟩ }

/-- The range that a failure points at is what is left of the text. -/
theorem failure_shown (hread : read placed = .error failure) :
    placed.Shows failure.span placed.strip.text := by
  have hshown := strip_shown placed
  rw [failure_eq_of_read hread]
  split
  · next hempty =>
      rw [Placed.span, hempty] at hshown
      rw [hempty]
      exact hshown
  · exact hshown

/-- A text is read as a column, an operator and a value exactly if what is left of it after
trimming, one question mark in front taken off, is a condition of these three parts.  It fails
as empty exactly if nothing is left, and as invalid, with what is left, exactly if this is no
condition.  The parts that are read, and the range that a failure points at, stand in the text
where their spans say, so that no character is cut. -/
theorem read_follows_grammar (placed : Placed) :
    (∀ column op value,
      (∃ parts, read placed = .ok parts ∧ parts.column.value = column ∧ parts.op.value = op ∧
          parts.value.value = value) ↔
        ∃ body, StripsTo placed.text body ∧ Spells body column op value) ∧
      ((∃ failure, read placed = .error failure ∧ failure.cause = .emptyInput) ↔
        StripsTo placed.text []) ∧
      (∀ body,
        (∃ failure, read placed = .error failure ∧ failure.cause = .invalidCondition body) ↔
          StripsTo placed.text body ∧ body ≠ [] ∧
            ∀ column op value, ¬ Spells body column op value) ∧
      ∃ body, StripsTo placed.text body ∧
        match read placed with
        | .ok parts => parts.StandIn placed body
        | .error failure => placed.Shows failure.span body := by
  have hstrips : ∀ body, StripsTo placed.text body ↔ placed.strip.text = body := by
    intro body
    rw [stripsTo_iff, Placed.strip_text]
  refine ⟨fun column op value => ?_, ?_, fun body => ?_, placed.strip.text,
    (hstrips _).mpr rfl, ?_⟩
  · rw [exists_read_iff]
    constructor
    · exact fun hspells => ⟨_, (hstrips _).mpr rfl, hspells⟩
    · rintro ⟨body, hbody, hspells⟩
      rwa [(hstrips body).mp hbody]
  · rw [exists_empty_iff, hstrips]
  · rw [exists_invalid_iff, hstrips]
  · cases hread : read placed with
    | ok parts => exact standIn_of_read hread
    | error failure => exact failure_shown hread

/-- The operator is the longest that fits, and what is behind it belongs to the value. -/
example : (read ⟨" ?total >== 5 ", 0⟩).toOption.map
    (fun parts => (parts.column.value, parts.op.value, parts.value.value)) =
      some ("total".toList, .greaterEqual, "= 5".toList) := by
  decide +kernel

end ConditionParts

end Filter

end TableBrowser
