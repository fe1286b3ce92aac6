import TableBrowser.Proofs.Filter.Reading
import TableBrowser.Proofs.Text.Trimming

/-!
# The text of a condition

The text that is read as a condition is a column, an operator and a value with white
space between them, and each part of the condition stands where it was read.  So a
condition is read exactly if what is left of its text after trimming can be written in
this way, and the parts of the text give all parts of the condition.
-/

namespace TableBrowser.Filter

open TableBrowser.Text (AllBlank IsTrimmed IsWord StopsRun)

/-! ## Characters -/

theorem toNat_of_isWordChar {c : Char} (hc : Text.isWordChar c = true) :
    0x30 ≤ c.toNat ∧ c.toNat < 0x80 := by
  simp only [Text.isWordChar, Text.isLetter, Text.isDigit, Bool.or_eq_true, Bool.and_eq_true,
    decide_eq_true_eq, beq_iff_eq, Char.le_def, UInt32.le_iff_toNat_le] at hc
  rcases hc with ((⟨hlow, hhigh⟩ | ⟨hlow, hhigh⟩) | ⟨hlow, hhigh⟩) | rfl
  · exact ⟨Nat.le_trans (by decide) hlow, Nat.lt_of_le_of_lt hhigh (by decide)⟩
  · exact ⟨Nat.le_trans (by decide) hlow, Nat.lt_of_le_of_lt hhigh (by decide)⟩
  · exact ⟨hlow, Nat.lt_of_le_of_lt hhigh (by decide)⟩
  · decide

theorem isBlank_of_isWordChar {c : Char} (hc : Text.isWordChar c = true) :
    Text.isBlank c = false := by
  obtain ⟨hlow, hhigh⟩ := toNat_of_isWordChar hc
  simp only [Text.isBlank, Bool.or_eq_false_iff, Bool.and_eq_false_iff, decide_eq_false_iff_not,
    beq_eq_false_iff_ne]
  omega

theorem isWordChar_of_isBlank {c : Char} (hc : Text.isBlank c = true) :
    Text.isWordChar c = false := by
  refine Bool.eq_false_iff.mpr fun hword => ?_
  rw [isBlank_of_isWordChar hword] at hc
  cases hc

/-! ## Trimmed text and its place -/

/-- What is left of a text without white space around it, one question mark in front and
the white space behind that mark. -/
def bareText (t : Text) : Text :=
  match t.trimStart with
  | '?' :: rest => Text.trim rest
  | started => started.trimEnd

namespace Placed

theorem strip_text (placed : Placed) : placed.strip.text = bareText placed.text := by
  simp only [strip, bareText, trimStart]
  split
  · next heq =>
      have htext := congrArg Placed.text heq
      dsimp only at htext
      rw [htext]
      rfl
  · next hplain =>
      split
      · next rest htext => exact absurd (by rw [htext]) (hplain rest _)
      · rfl

/-- The text of `part` stands in the text of `whole`, at the same bytes. -/
def Within (part whole : Placed) : Prop :=
  ∃ before behind, whole.text = before ++ (part.text ++ behind) ∧
    part.offset = whole.offset + before.byteSize

variable {part middle whole : Placed}

theorem Within.refl (placed : Placed) : placed.Within placed :=
  ⟨[], [], by simp, rfl⟩

theorem Within.trans (hpart : part.Within middle) (hmiddle : middle.Within whole) :
    part.Within whole := by
  obtain ⟨before, behind, htext, hoffset⟩ := hpart
  obtain ⟨outer, inner, houter, hmiddleOffset⟩ := hmiddle
  refine ⟨outer ++ before, behind ++ inner, ?_, ?_⟩
  · rw [houter, htext]
    simp
  · rw [hoffset, hmiddleOffset, Text.byteSize_append, Nat.add_assoc]

theorem Within.start_le (hwithin : part.Within whole) : whole.span.start ≤ part.span.start := by
  obtain ⟨before, behind, -, hoffset⟩ := hwithin
  simp only [span, hoffset]
  omega

theorem Within.stop_le (hwithin : part.Within whole) : part.span.stop ≤ whole.span.stop := by
  obtain ⟨before, behind, htext, hoffset⟩ := hwithin
  simp only [span, hoffset, htext, Text.byteSize_append]
  omega

/-- Text that stands in a source is what its span cuts out. -/
theorem Within.slice? {source : Text} (hwithin : part.Within ⟨source, 0⟩) :
    source.slice? part.span = some part.text := by
  obtain ⟨before, behind, htext, hoffset⟩ := hwithin
  have hsource : source = before ++ (part.text ++ behind) := htext
  have hstart : part.offset = before.byteSize := by simpa using hoffset
  rw [hsource, span, hstart]
  exact Text.slice?_append before part.text behind

theorem trimStart_within (placed : Placed) : placed.trimStart.Within placed := by
  refine ⟨placed.text.takeWhile Text.isBlank, [], ?_, rfl⟩
  rw [List.append_nil]
  exact (Text.takeWhile_append_trimStart placed.text).symm

theorem trimEnd_within (placed : Placed) :
    (Placed.mk placed.text.trimEnd placed.offset).Within placed := by
  obtain ⟨space, -, happend⟩ := Text.exists_trimEnd_append placed.text
  exact ⟨[], space, happend.symm, rfl⟩

theorem strip_within (placed : Placed) : placed.strip.Within placed := by
  simp only [strip]
  split
  · next rest offset heq =>
      have hrest : (Placed.mk rest (offset + 1)).Within placed.trimStart := by
        rw [heq]
        exact ⟨['?'], [], by simp, rfl⟩
      have htrim : (Placed.mk rest (offset + 1)).trim.Within ⟨rest, offset + 1⟩ :=
        (trimEnd_within _).trans (trimStart_within _)
      exact (htrim.trans hrest).trans (trimStart_within placed)
  · exact (trimEnd_within _).trans (trimStart_within placed)

/-- Trimming leaves a text that begins with another character, and no question mark, as it
is. -/
theorem strip_eq_self {t : Text} (offset : Nat) (htrimmed : IsTrimmed t)
    (hmark : t.head? ≠ some '?') : strip ⟨t, offset⟩ = ⟨t, offset⟩ := by
  have hstart : trimStart ⟨t, offset⟩ = ⟨t, offset⟩ := by
    simp only [trimStart, Text.trimStart_eq_self htrimmed.starts,
      Text.leadingBlanks_eq_zero htrimmed.starts, Nat.add_zero]
  simp only [strip, hstart]
  split
  · next rest _ heq =>
      cases heq
      simp at hmark
  · rw [Text.trimEnd_eq_self htrimmed.ends]

theorem isTrimmed_strip (placed : Placed) : IsTrimmed placed.strip.text := by
  rw [strip_text, bareText]
  split
  · exact Text.isTrimmed_trim _
  · exact Text.isTrimmed_trimEnd (Text.stopsRun_dropWhile _ _)

end Placed

/-! ## Operators -/

namespace Operator

/-- The operator and the text behind it are not read as a longer operator. -/
def EndsBefore (op : Operator) (behind : Text) : Prop :=
  (op = .greater ∨ op = .less) → behind.head? ≠ some '='

theorem eq_append_of_leading? {t rest : Text} {op : Operator}
    (hleading : leading? t = some (op, rest)) : t = op.symbol ++ rest := by
  unfold leading? at hleading
  split at hleading <;> cases hleading <;> rfl

theorem leading?_append (op : Operator) (behind : Text) :
    leading? (op.symbol ++ behind) = some (op, behind) ↔ op.EndsBefore behind := by
  cases op <;> cases behind with
  | nil => simp [symbol, leading?, EndsBefore]
  | cons c rest =>
      by_cases hc : c = '='
      · subst hc
        simp [symbol, leading?, EndsBefore]
      · simp [symbol, leading?, EndsBefore, hc]

/-- An operator that does not end is read with the equals sign behind it. -/
theorem leading?_of_not_endsBefore {op : Operator} {behind : Text}
    (hlonger : ¬ op.EndsBefore behind) :
    ∃ longer rest, leading? (op.symbol ++ behind) = some (longer, rest) ∧ longer ≠ op := by
  simp only [EndsBefore, not_forall, not_not] at hlonger
  obtain ⟨hop, hhead⟩ := hlonger
  obtain ⟨rest, rfl⟩ := List.head?_eq_some_iff.mp hhead
  rcases hop with rfl | rfl
  · exact ⟨.greaterEqual, rest, rfl, by decide⟩
  · exact ⟨.lessEqual, rest, rfl, by decide⟩

theorem symbol_head (op : Operator) :
    ∃ c rest, op.symbol = c :: rest ∧ Text.isBlank c = false ∧ Text.isWordChar c = false := by
  cases op <;> exact ⟨_, _, rfl, by decide, by decide⟩

end Operator

/-! ## The parts of a condition -/

/-- A column, an operator and a value, with the white space between them. -/
structure ConditionText where
  column : Text
  gap : Text
  op : Operator
  space : Text
  value : Text

namespace ConditionText

def text (written : ConditionText) : Text :=
  written.column ++ (written.gap ++ (written.op.symbol ++ (written.space ++ written.value)))

/-- The parts can be told apart, the operator and the text behind it excepted. -/
structure IsSpaced (written : ConditionText) : Prop where
  column_word : IsWord written.column
  gap_blank : AllBlank written.gap
  space_blank : AllBlank written.space
  value_ne_nil : written.value ≠ []
  value_trimmed : IsTrimmed written.value

/-- The parts are those that a reader finds in the text. -/
structure IsProper (written : ConditionText) : Prop extends written.IsSpaced where
  op_ends : written.op.EndsBefore (written.space ++ written.value)

def columnSpan (written : ConditionText) (offset : Nat) : Span :=
  ⟨offset, offset + written.column.byteSize⟩

def opSpan (written : ConditionText) (offset : Nat) : Span :=
  let start := offset + written.column.byteSize + written.gap.byteSize
  ⟨start, start + written.op.symbol.byteSize⟩

def valueSpan (written : ConditionText) (offset : Nat) : Span :=
  let start := (written.opSpan offset).stop + written.space.byteSize
  ⟨start, start + written.value.byteSize⟩

/-- The parts of a text that begins at a byte offset. -/
def partsAt (written : ConditionText) (offset : Nat) : ConditionParts :=
  ⟨⟨written.column, written.columnSpan offset⟩, ⟨written.op, written.opSpan offset⟩,
    ⟨written.value, written.valueSpan offset⟩, (Placed.mk written.text offset).span⟩

/-- The condition of a text that begins at a byte offset, with what its value stands for. -/
def conditionAt (written : ConditionText) (offset : Nat) (operand : Operand) : Condition :=
  ⟨⟨written.column, written.columnSpan offset⟩, ⟨written.op, written.opSpan offset⟩,
    ⟨operand, written.valueSpan offset⟩, (Placed.mk written.text offset).span⟩

variable {written : ConditionText}

/-- The operator stops the column and the white space behind it. -/
theorem stopsRun_symbol (written : ConditionText) (behind : Text) :
    StopsRun Text.isBlank (written.op.symbol ++ behind) := by
  obtain ⟨c, rest, hsymbol, hblank, -⟩ := written.op.symbol_head
  intro d hd
  rw [hsymbol, List.cons_append, List.head?_cons] at hd
  cases hd
  exact hblank

theorem IsSpaced.stopsRun_gap (hspaced : written.IsSpaced) (behind : Text) :
    StopsRun Text.isWordChar (written.gap ++ (written.op.symbol ++ behind)) := by
  cases hgap : written.gap with
  | nil =>
      obtain ⟨c, rest, hsymbol, -, hword⟩ := written.op.symbol_head
      intro d hd
      rw [List.nil_append, hsymbol, List.cons_append, List.head?_cons] at hd
      cases hd
      exact hword
  | cons c rest =>
      have hblank : Text.isBlank c = true := hspaced.gap_blank c (by simp [hgap])
      intro d hd
      rw [List.cons_append, List.head?_cons] at hd
      cases hd
      exact isWordChar_of_isBlank hblank

theorem IsSpaced.stopsRun_value (hspaced : written.IsSpaced) :
    StopsRun Text.isBlank written.value :=
  hspaced.value_trimmed.starts

theorem IsSpaced.exists_cons (hspaced : written.IsSpaced) :
    ∃ c rest, written.text = c :: rest ∧ Text.isWordChar c = true := by
  obtain ⟨c, rest, hcolumn⟩ := List.exists_cons_of_ne_nil hspaced.column_word.ne_nil
  refine ⟨c, _, by rw [text, hcolumn, List.cons_append], ?_⟩
  exact hspaced.column_word.chars c (by simp [hcolumn])

theorem IsSpaced.head?_ne (hspaced : written.IsSpaced) : written.text.head? ≠ some '?' := by
  obtain ⟨c, rest, htext, hc⟩ := hspaced.exists_cons
  rw [htext]
  rintro ⟨⟩
  revert hc
  decide

/-- The whole text begins with its column and ends with its value. -/
theorem IsSpaced.isTrimmed_text (hspaced : written.IsSpaced) : IsTrimmed written.text := by
  constructor
  · obtain ⟨c, rest, htext, hc⟩ := hspaced.exists_cons
    intro d hd
    rw [htext, List.head?_cons] at hd
    cases hd
    exact isBlank_of_isWordChar hc
  · have hends := hspaced.value_trimmed.ends
    have hne : written.value.reverse ≠ [] := by simpa using hspaced.value_ne_nil
    obtain ⟨c, rest, hvalue⟩ := List.exists_cons_of_ne_nil hne
    have hc : Text.isBlank c = false := hends c (by simp [hvalue])
    intro d hd
    simp only [text, List.reverse_append, List.append_assoc, hvalue, List.cons_append,
      List.head?_cons] at hd
    cases hd
    exact hc

/-- Two ways to tell a text apart agree on its column and on what begins with its operator. -/
theorem IsSpaced.op_text_eq {other : ConditionText} (hspaced : written.IsSpaced)
    (hother : other.IsSpaced) (htext : written.text = other.text) :
    written.op.symbol ++ (written.space ++ written.value) =
      other.op.symbol ++ (other.space ++ other.value) := by
  have hbehind := congrArg (List.dropWhile Text.isWordChar) htext
  rw [text, text, Text.dropWhile_append_of_stopsRun hspaced.column_word.chars
    (hspaced.stopsRun_gap _), Text.dropWhile_append_of_stopsRun hother.column_word.chars
    (hother.stopsRun_gap _)] at hbehind
  have hop := congrArg (List.dropWhile Text.isBlank) hbehind
  rwa [Text.dropWhile_append_of_stopsRun hspaced.gap_blank (written.stopsRun_symbol _),
    Text.dropWhile_append_of_stopsRun hother.gap_blank (other.stopsRun_symbol _)] at hop

end ConditionText

namespace ConditionParts

variable {placed : Placed} {parts : ConditionParts}

theorem read_of_isProper {written : ConditionText} (hproper : written.IsProper)
    (htext : placed.strip.text = written.text) :
    read placed = .ok (written.partsAt placed.strip.offset) := by
  have hne : written.text ≠ [] := by
    obtain ⟨c, rest, hcons, -⟩ := hproper.exists_cons
    simp [hcons]
  have hcolumn : written.text.takeWhile Text.isWordChar = written.column :=
    Text.takeWhile_append_of_stopsRun hproper.column_word.chars (hproper.stopsRun_gap _)
  have hbehind : written.text.dropWhile Text.isWordChar =
      written.gap ++ (written.op.symbol ++ (written.space ++ written.value)) :=
    Text.dropWhile_append_of_stopsRun hproper.column_word.chars (hproper.stopsRun_gap _)
  have hgap := Text.leadingBlanks_blanks_append hproper.gap_blank
    (written.stopsRun_symbol (written.space ++ written.value))
  have hop : (written.gap ++ (written.op.symbol ++ (written.space ++ written.value))).trimStart =
      written.op.symbol ++ (written.space ++ written.value) :=
    Text.dropWhile_append_of_stopsRun hproper.gap_blank (written.stopsRun_symbol _)
  have hleading := (written.op.leading?_append (written.space ++ written.value)).mpr
    hproper.op_ends
  have hspace := Text.leadingBlanks_blanks_append hproper.space_blank hproper.stopsRun_value
  have hvalue : Text.trimStart (written.space ++ written.value) = written.value :=
    Text.dropWhile_append_of_stopsRun hproper.space_blank hproper.stopsRun_value
  have htrim := Text.trimEnd_eq_self hproper.value_trimmed.ends
  simp only [read, htext, if_neg hne, hcolumn, if_neg hproper.column_word.ne_nil, hbehind,
    Placed.trimStart, hop, hgap, hleading, Placed.trim, hvalue, hspace, htrim,
    if_neg hproper.value_ne_nil]
  simp only [ConditionText.partsAt, ConditionText.columnSpan, ConditionText.opSpan,
    ConditionText.valueSpan, Placed.span, htext]

/-- White space in front of the end of a trimmed text is all that trimming that end takes. -/
theorem trim_of_isTrimmed {before rest : Text} (htrimmed : IsTrimmed (before ++ rest))
    (hne : rest.trim ≠ []) : rest.takeWhile Text.isBlank ++ rest.trim = rest := by
  have hstart := Text.takeWhile_append_trimStart rest
  have hends : StopsRun Text.isBlank rest.trimStart.reverse := by
    have hreverse : rest.trimStart.reverse ≠ [] := by
      intro hnil
      rw [List.reverse_eq_nil_iff] at hnil
      exact hne (by rw [Text.trim, hnil]; rfl)
    obtain ⟨c, more, hcons⟩ := List.exists_cons_of_ne_nil hreverse
    intro d hd
    refine htrimmed.ends d ?_
    rw [← hstart, List.reverse_append, List.reverse_append, hcons]
    rw [hcons, List.head?_cons] at hd
    simpa using hd
  rw [Text.trim, Text.trimEnd_eq_self hends, hstart]

theorem leading_of_read (hread : read placed = .ok parts) :
    placed.strip.text.takeWhile Text.isWordChar ≠ [] ∧
      ∃ op rest, Operator.leading? (Text.trimStart (placed.strip.text.dropWhile Text.isWordChar)) =
        some (op, rest) ∧ rest.trim ≠ [] := by
  simp only [read] at hread
  split at hread
  · cases hread
  · split at hread
    · cases hread
    · next hcolumn =>
        split at hread
        · cases hread
        · next op rest hleading =>
            split at hread
            · cases hread
            · next hvalue => exact ⟨hcolumn, op, rest, hleading, hvalue⟩

theorem exists_isProper_of_read (hread : read placed = .ok parts) :
    ∃ written : ConditionText, written.IsProper ∧ placed.strip.text = written.text ∧
      parts = written.partsAt placed.strip.offset := by
  obtain ⟨hcolumn, op, rest, hleading, hvalue⟩ := leading_of_read hread
  have hbehind := Operator.eq_append_of_leading? hleading
  have hbody : placed.strip.text = (placed.strip.text.takeWhile Text.isWordChar ++
      ((placed.strip.text.dropWhile Text.isWordChar).takeWhile Text.isBlank ++ op.symbol)) ++
        rest := by
    rw [List.append_assoc, List.append_assoc, ← hbehind, Text.takeWhile_append_trimStart,
      List.takeWhile_append_dropWhile]
  have htrimmed := placed.isTrimmed_strip
  rw [hbody] at htrimmed
  have hrest := trim_of_isTrimmed htrimmed hvalue
  let written : ConditionText :=
    ⟨placed.strip.text.takeWhile Text.isWordChar,
      (placed.strip.text.dropWhile Text.isWordChar).takeWhile Text.isBlank, op,
      rest.takeWhile Text.isBlank, rest.trim⟩
  have htext : placed.strip.text = written.text := by
    simp only [written, ConditionText.text, hrest]
    simpa only [List.append_assoc] using hbody
  have hends : op.EndsBefore (written.space ++ written.value) := by
    rw [← Operator.leading?_append]
    simp only [written, hrest, ← hbehind]
    exact hleading
  have hproper : written.IsProper :=
    { column_word := ⟨hcolumn, List.all_eq_true.mp List.all_takeWhile⟩
      gap_blank := Text.allBlank_takeWhile _
      space_blank := Text.allBlank_takeWhile rest
      value_ne_nil := hvalue
      value_trimmed := Text.isTrimmed_trim rest
      op_ends := hends }
  have hagain := read_of_isProper hproper htext
  rw [hread] at hagain
  exact ⟨written, hproper, htext, Except.ok.inj hagain⟩

/-- A text that cannot be read is empty, or it is blamed as a whole, what is trimmed away
apart. -/
theorem failure_eq_of_read {failure : Failure} (hread : read placed = .error failure) :
    failure =
      if placed.strip.text = [] then .of .emptyInput ⟨placed.strip.offset, placed.strip.offset⟩
      else .of (.invalidCondition placed.strip.text) placed.strip.span := by
  simp only [read] at hread
  split at hread
  · next hempty =>
      rw [if_pos hempty]
      exact (Except.error.inj hread).symm
  · next hsolid =>
      rw [if_neg hsolid]
      split at hread
      · exact (Except.error.inj hread).symm
      · split at hread
        · exact (Except.error.inj hread).symm
        · split at hread
          · exact (Except.error.inj hread).symm
          · cases hread

theorem failure_of_read {failure : Failure} (hread : read placed = .error failure) :
    failure = .of .emptyInput ⟨placed.strip.offset, placed.strip.offset⟩ ∨
      failure = .of (.invalidCondition placed.strip.text) placed.strip.span := by
  have hfailure := failure_eq_of_read hread
  split at hfailure
  · exact .inl hfailure
  · exact .inr hfailure

theorem cause_of_read {failure : Failure} (hread : read placed = .error failure) :
    failure.cause =
      if placed.strip.text = [] then .emptyInput else .invalidCondition placed.strip.text := by
  rw [failure_eq_of_read hread]
  split <;> rfl

end ConditionParts

/-! ## What a value stands for -/

/-- What a value stands for behind a column and an operator: dates go with comparisons
only, and a value behind a pattern test is text. -/
def operandOf? (columns : List Column) (column : Text) (op : Operator) (value : Text) :
    Option Operand :=
  match RelativeDate.ofToken? value with
  | some date => if op.isPattern then none else some (.date date)
  | none =>
    if op.isPattern then some (.text value)
    else some (.classify (Column.typeOf? columns column) value)

/-- Only a pattern test of a date stands for nothing. -/
theorem operandOf?_eq_none_iff {columns : List Column} {column value : Text} {op : Operator} :
    operandOf? columns column op value = none ↔
      op.isPattern = true ∧ (RelativeDate.ofToken? value).isSome = true := by
  unfold operandOf?
  cases RelativeDate.ofToken? value <;> cases op.isPattern <;> simp

namespace ConditionParts

theorem operand_eq (columns : List Column) (parts : ConditionParts) :
    parts.operand columns =
      match operandOf? columns parts.column.value parts.op.value parts.value.value with
      | some operand => .ok operand
      | none => .error (.of (.patternOnDate parts.op.value.symbol) parts.op.span) := by
  unfold operand operandOf?
  cases RelativeDate.ofToken? parts.value.value <;> cases parts.op.value.isPattern <;> rfl

end ConditionParts

namespace Condition

variable {columns : List Column} {placed : Placed} {condition : Condition}

theorem readAt_of_error {failure : Failure} (hparts : ConditionParts.read placed = .error failure) :
    readAt columns placed = .error failure := by
  rw [readAt, hparts]
  rfl

/-- Where the parts can be told apart, only the value can be at fault. -/
theorem readAt_of_ok {parts : ConditionParts} (hparts : ConditionParts.read placed = .ok parts) :
    readAt columns placed =
      match operandOf? columns parts.column.value parts.op.value parts.value.value with
      | some operand =>
        .ok ⟨parts.column, parts.op, ⟨operand, parts.value.span⟩, parts.span⟩
      | none => .error (.of (.patternOnDate parts.op.value.symbol) parts.op.span) := by
  simp only [readAt, hparts, bind, Except.bind, ConditionParts.operand_eq]
  cases operandOf? columns parts.column.value parts.op.value parts.value.value <;> rfl

/-- A condition is read exactly if its text consists of a column, an operator and a value
that goes with the operator; it then has these parts where they stand. -/
theorem readAt_eq_ok_iff :
    readAt columns placed = .ok condition ↔
      ∃ (written : ConditionText) (operand : Operand),
        written.IsProper ∧ placed.strip.text = written.text ∧
          operandOf? columns written.column written.op written.value = some operand ∧
          condition = written.conditionAt placed.strip.offset operand := by
  constructor
  · intro hread
    obtain ⟨parts, operand, hparts, hoperand, rfl⟩ := readAt_eq_ok hread
    obtain ⟨written, hproper, htext, rfl⟩ := ConditionParts.exists_isProper_of_read hparts
    rw [ConditionParts.operand_eq] at hoperand
    refine ⟨written, operand, hproper, htext, ?_, rfl⟩
    split at hoperand
    · next found hfound =>
        cases hoperand
        exact hfound
    · cases hoperand
  · rintro ⟨written, operand, hproper, htext, hoperand, rfl⟩
    rw [readAt_of_ok (ConditionParts.read_of_isProper hproper htext)]
    simp only [ConditionText.partsAt, hoperand]
    rfl

/-- A condition that cannot be read is blamed as a whole, or its operator is if that does
not go with a date. -/
theorem failure_of_readAt {failure : Failure} (hread : readAt columns placed = .error failure) :
    failure = .of .emptyInput ⟨placed.strip.offset, placed.strip.offset⟩ ∨
      failure = .of (.invalidCondition placed.strip.text) placed.strip.span ∨
      ∃ written : ConditionText, placed.strip.text = written.text ∧
        operandOf? columns written.column written.op written.value = none ∧
        failure = .of (.patternOnDate written.op.symbol) (written.opSpan placed.strip.offset) := by
  cases hparts : ConditionParts.read placed with
  | error other =>
      rw [readAt_of_error hparts, Except.error.injEq] at hread
      subst hread
      rcases ConditionParts.failure_of_read hparts with hempty | hinvalid
      · exact .inl hempty
      · exact .inr (.inl hinvalid)
  | ok parts =>
      obtain ⟨written, -, htext, rfl⟩ := ConditionParts.exists_isProper_of_read hparts
      rw [readAt_of_ok hparts] at hread
      split at hread
      · cases hread
      · next hnone =>
          cases hread
          exact .inr (.inr ⟨written, htext, hnone, rfl⟩)

end Condition

end TableBrowser.Filter
