import TableBrowser.Proofs.Filter.DateTokens
import TableBrowser.Proofs.Filter.Pieces

/-!
# The classes of values

A value is told apart by its form.  The text of a relative date is a date, and goes with
comparisons only.  Behind a pattern test every other value is text.  In a comparison a numeral is
a number, kept as it was typed, a UUID stands for its bytes if the type of the column mentions
bytes, and all the rest is text.  The forms are said here without reading a value, and one of the
classes fits every value of every condition.
-/

namespace TableBrowser

open TableBrowser.Text (isDigit lower lowerChar sameLetters sameLetters_iff)

namespace Text

/-! ## Numerals -/

/-- A non-empty row of digits. -/
def IsDigits (t : Text) : Prop :=
  t ≠ [] ∧ ∀ c ∈ t, isDigit c = true

/-- Digits, and behind them possibly a point with digits of its own. -/
def IsUnsignedNumeral (t : Text) : Prop :=
  ∃ whole rest, t = whole ++ rest ∧ IsDigits whole ∧
    (rest = [] ∨ ∃ fraction, rest = '.' :: fraction ∧ IsDigits fraction)

/-- A minus sign may stand before the digits. -/
def IsNumeral (t : Text) : Prop :=
  ∃ sign unsigned, t = sign ++ unsigned ∧ (sign = [] ∨ sign = ['-']) ∧ IsUnsignedNumeral unsigned

theorem isDigits_iff (t : Text) : Filter.Operand.isDigits t = true ↔ IsDigits t := by
  rw [Filter.Operand.isDigits, Bool.and_eq_true, Bool.not_eq_true', List.isEmpty_eq_false_iff,
    List.all_eq_true, IsDigits]

theorem IsDigits.ne_of_mem {t : Text} (hdigits : IsDigits t) {c d : Char} (hc : c ∈ t)
    (hd : isDigit d = false) : c ≠ d := by
  rintro rfl
  rw [hdigits.2 c hc] at hd
  cases hd

theorem isUnsigned_iff (t : Text) : Sql.isUnsigned t = true ↔ IsUnsignedNumeral t := by
  constructor
  · intro hunsigned
    unfold Sql.isUnsigned at hunsigned
    split at hunsigned
    · next whole fraction hsplit =>
        obtain ⟨hwhole, hfraction⟩ := Bool.and_eq_true_iff.mp hunsigned
        exact ⟨whole, '.' :: fraction, eq_of_splitOnce? hsplit, (isDigits_iff whole).mp hwhole,
          .inr ⟨fraction, rfl, (isDigits_iff fraction).mp hfraction⟩⟩
    · exact ⟨t, [], (List.append_nil t).symm, (isDigits_iff t).mp hunsigned, .inl rfl⟩
  · rintro ⟨whole, rest, rfl, hwhole, rfl | ⟨fraction, rfl, hfraction⟩⟩
    · have hfree : '.' ∉ whole := fun hmem => hwhole.ne_of_mem hmem rfl rfl
      rw [List.append_nil, Sql.isUnsigned, splitOnce?_of_not_mem hfree]
      exact (isDigits_iff whole).mpr hwhole
    · have hbefore : ∀ c ∈ whole, c ≠ '.' := fun c hc => hwhole.ne_of_mem hc rfl
      rw [Sql.isUnsigned, splitOnce?_append fraction hbefore]
      exact Bool.and_eq_true_iff.mpr
        ⟨(isDigits_iff whole).mpr hwhole, (isDigits_iff fraction).mpr hfraction⟩

theorem IsUnsignedNumeral.head?_ne {t : Text} (hunsigned : IsUnsignedNumeral t) (rest : Text) :
    t ≠ '-' :: rest := by
  obtain ⟨whole, behind, rfl, hwhole, -⟩ := hunsigned
  obtain ⟨c, more, rfl⟩ := List.exists_cons_of_ne_nil hwhole.1
  intro heq
  exact hwhole.ne_of_mem List.mem_cons_self rfl (List.cons.inj heq).1

/-- The numbers that are told apart are the numerals. -/
theorem isNumeric_iff (t : Text) : Filter.Operand.isNumeric t = true ↔ IsNumeral t := by
  constructor
  · intro hnumeric
    obtain ⟨unsigned, hunsigned, ⟨rfl, -⟩ | ⟨rfl, -⟩⟩ := Sql.numberRow_of_isNumeric hnumeric
    · exact ⟨['-'], unsigned, rfl, .inr rfl, (isUnsigned_iff unsigned).mp hunsigned⟩
    · exact ⟨[], t, rfl, .inl rfl, (isUnsigned_iff t).mp hunsigned⟩
  · rintro ⟨sign, unsigned, rfl, rfl | rfl, hunsigned⟩
    · have hread := (isUnsigned_iff unsigned).mpr hunsigned
      unfold Filter.Operand.isNumeric
      split
      · next rest hsign => exact absurd hsign (hunsigned.head?_ne rest)
      · exact hread
    · exact (isUnsigned_iff unsigned).mpr hunsigned

/-! ## Hexadecimal digits -/

/-- A digit, or one of the first six letters in either case. -/
def IsHexDigit (c : Char) : Prop :=
  isDigit c = true ∨ ('a' ≤ c ∧ c ≤ 'f') ∨ ('A' ≤ c ∧ c ≤ 'F')

theorem isSome_hexValue?_iff (c : Char) : (hexValue? c).isSome = true ↔ IsHexDigit c := by
  unfold hexValue? IsHexDigit
  split
  · next hdigit => exact iff_of_true rfl (.inl hdigit)
  · next hdigit =>
      split
      · next hsmall => exact iff_of_true rfl (.inr (.inl hsmall))
      · next hsmall =>
          split
          · next hcapital => exact iff_of_true rfl (.inr (.inr hcapital))
          · next hcapital =>
              refine iff_of_false Bool.false_ne_true ?_
              rintro (hc | hc | hc)
              · exact hdigit hc
              · exact hsmall hc
              · exact hcapital hc

/-- Pairs of digits are bytes. -/
theorem exists_bytesOfHex? {digits : Text} {n : Nat} (hlength : digits.length = 2 * n)
    (hdigits : ∀ c ∈ digits, IsHexDigit c) :
    ∃ bytes, bytesOfHex? digits = some bytes ∧ bytes.length = n := by
  induction digits using bytesOfHex?.induct generalizing n with
  | case1 =>
      have hzero : n = 0 := by simpa using hlength
      exact ⟨[], rfl, hzero.symm⟩
  | case2 c =>
      rw [List.length_singleton] at hlength
      omega
  | case3 high low rest ih =>
      obtain ⟨hhigh, hlow, hrest⟩ :
          IsHexDigit high ∧ IsHexDigit low ∧ ∀ c ∈ rest, IsHexDigit c := by
        simpa using hdigits
      obtain ⟨h, hh⟩ := Option.isSome_iff_exists.mp ((isSome_hexValue?_iff high).mpr hhigh)
      obtain ⟨l, hl⟩ := Option.isSome_iff_exists.mp ((isSome_hexValue?_iff low).mpr hlow)
      obtain ⟨m, rfl⟩ : ∃ m, n = m + 1 := ⟨n - 1, by simp at hlength; omega⟩
      obtain ⟨bytes, hbytes, hcount⟩ := ih (n := m) (by simp at hlength; omega) hrest
      refine ⟨UInt8.ofNat (16 * h + l) :: bytes, ?_, by rw [List.length_cons, hcount]⟩
      rw [bytesOfHex?, hh, hl, hbytes]
      rfl

theorem isHexDigit_of_bytesOfHex? {digits : Text} {bytes : List UInt8}
    (hread : bytesOfHex? digits = some bytes) : ∀ c ∈ digits, IsHexDigit c := by
  intro c hc
  have hlower : lowerChar c ∈ hexOfBytes bytes := by
    rw [← bytesOfHex?_eq_some_iff.mp hread]
    exact List.mem_map_of_mem hc
  rw [← isSome_hexValue?_iff, ← hexValue?_lowerChar]
  exact isSome_hexValue?_of_mem hlower

end Text

open TableBrowser.Text (IsDigits IsHexDigit IsNumeral isNumeric_iff)

/-! ## UUIDs -/

namespace Filter

namespace Uuid

/-- Groups of hexadecimal digits of the given sizes. -/
def AreGroups (sizes : List Nat) (groups : List Text) : Prop :=
  List.Forall₂ (fun size group => group.length = size ∧ ∀ c ∈ group, IsHexDigit c) sizes groups

/-- Hexadecimal digits in groups of eight, four, four, four and twelve, with hyphens between. -/
def IsWritten (t : Text) : Prop :=
  ∃ groups, AreGroups [8, 4, 4, 4, 12] groups ∧ t = List.intercalate ['-'] groups

theorem AreGroups.hyphenate_flatten {sizes : List Nat} {groups : List Text}
    (hgroups : AreGroups sizes groups) :
    hyphenate sizes groups.flatten = List.intercalate ['-'] groups ∧
      groups.flatten.length = width sizes := by
  induction hgroups with
  | nil => exact ⟨rfl, rfl⟩
  | @cons size group sizes groups hgroup hrest ih =>
      obtain ⟨htext, hlength⟩ := ih
      have hwidth : (group :: groups).flatten.length = width (size :: sizes) := by
        rw [List.flatten_cons, List.length_append, hgroup.1, hlength, width]
      refine ⟨?_, hwidth⟩
      cases hrest with
      | nil =>
          rw [List.flatten_singleton, hyphenate, ← hgroup.1, List.take_length]
          simp
      | @cons next other sizes groups hother hmore =>
          rw [hyphenate, List.flatten_cons, List.take_left' hgroup.1, List.drop_left' hgroup.1,
            htext, List.intercalate_cons_cons]
          simp

theorem exists_areGroups {sizes : List Nat} {digits : Text} (hlength : digits.length = width sizes)
    (hdigits : ∀ c ∈ digits, IsHexDigit c) :
    ∃ groups, AreGroups sizes groups ∧ groups.flatten = digits := by
  induction sizes generalizing digits with
  | nil => exact ⟨[], .nil, (List.length_eq_zero_iff.mp hlength).symm⟩
  | cons size sizes ih =>
      rw [width] at hlength
      have hrest : (digits.drop size).length = width sizes := by
        rw [List.length_drop]
        omega
      obtain ⟨groups, hgroups, hflatten⟩ :=
        ih hrest fun c hc => hdigits c (List.mem_of_mem_drop hc)
      refine ⟨digits.take size :: groups, .cons ⟨?_, ?_⟩ hgroups, ?_⟩
      · rw [List.length_take]
        omega
      · exact fun c hc => hdigits c (List.mem_of_mem_take hc)
      · rw [List.flatten_cons, hflatten, List.take_append_drop]

/-- A text of this form, and no other, is the text of some UUID. -/
theorem isWritten_iff (t : Text) :
    IsWritten t ↔ ∃ uuid : Uuid, sameLetters t uuid.toText = true := by
  constructor
  · rintro ⟨groups, hgroups, rfl⟩
    obtain ⟨htext, hlength⟩ := hgroups.hyphenate_flatten
    have hdigits : ∀ c ∈ groups.flatten, IsHexDigit c := by
      intro c hc
      obtain ⟨group, hgroup, hmem⟩ := List.mem_flatten.mp hc
      obtain ⟨size, -, hsize⟩ := exists_left_of_forall₂ hgroups hgroup
      exact hsize.2 c hmem
    obtain ⟨bytes, hbytes, hsixteen⟩ := Text.exists_bytesOfHex? (n := 16) hlength hdigits
    refine ⟨⟨bytes, hsixteen⟩, ofText?_eq_some_iff.mp ?_⟩
    rw [← htext, ofText?, layout, joinGroups?_hyphenate hlength, Option.bind_some, hbytes,
      Option.bind_some, ofBytes?, dif_pos hsixteen]
  · rintro ⟨uuid, hsame⟩
    rw [sameLetters_iff, lower_toText] at hsame
    obtain ⟨typed, hjoined, hlower⟩ := exists_joinGroups?_of_lower hsame
    have hlength : typed.length = width layout := by
      rw [← uuid.length_digits, ← hlower]
      exact (List.length_map lowerChar).symm
    have hdigits := Text.isHexDigit_of_bytesOfHex? (Text.bytesOfHex?_eq_some_iff.mpr hlower)
    obtain ⟨groups, hgroups, rfl⟩ := exists_areGroups hlength hdigits
    refine ⟨groups, hgroups, ?_⟩
    rw [eq_hyphenate_of_joinGroups? hjoined, hgroups.hyphenate_flatten.1]

end Uuid

end Filter

/-! ## Types of columns -/

namespace Column

/-- The first of some columns with a property. -/
def IsFirst (has : Column → Prop) (columns : List Column) (column : Column) : Prop :=
  has column ∧ ∃ before behind, columns = before ++ column :: behind ∧
    ∀ other ∈ before, ¬ has other

/-- The type that a name finds: that of the column of exactly this name or, where there is none,
of the first column whose name differs in letter case only. -/
inductive FindsType (columns : List Column) (name : Text) : Text → Prop
  | exactly {column : Column} (hfirst : IsFirst (·.name = name) columns column) :
      FindsType columns name column.type
  | inAnyCase {column : Column} (hnone : ∀ other ∈ columns, other.name ≠ name)
      (hfirst : IsFirst (sameLetters ·.name name = true) columns column) :
      FindsType columns name column.type

theorem find?_eq_some_iff {has : Column → Prop} {test : Column → Bool}
    (htest : ∀ column, test column = true ↔ has column) {columns : List Column}
    {column : Column} : columns.find? test = some column ↔ IsFirst has columns column := by
  simp only [List.find?_eq_some_iff_append, IsFirst, ← htest, Bool.not_eq_true',
    Bool.not_eq_true]

theorem typeOf?_eq_some_iff {columns : List Column} {name type : Text} :
    typeOf? columns name = some type ↔ FindsType columns name type := by
  have hexactly {column : Column} : columns.find? (·.name == name) = some column ↔
      IsFirst (·.name = name) columns column :=
    find?_eq_some_iff fun _ => beq_iff_eq
  have hanyCase {column : Column} : columns.find? (sameLetters ·.name name) = some column ↔
      IsFirst (sameLetters ·.name name = true) columns column :=
    find?_eq_some_iff fun _ => Iff.rfl
  have hnone : columns.find? (·.name == name) = none ↔ ∀ other ∈ columns, other.name ≠ name := by
    simp only [List.find?_eq_none, beq_iff_eq, ne_eq]
  rw [typeOf?, Option.map_eq_some_iff]
  simp only [Option.or_eq_some_iff, hexactly, hanyCase, hnone]
  constructor
  · rintro ⟨column, hfirst | ⟨hother, hfirst⟩, rfl⟩
    · exact .exactly hfirst
    · exact .inAnyCase hother hfirst
  · intro hfinds
    cases hfinds with
    | exactly hfirst => exact ⟨_, .inl hfirst, rfl⟩
    | inAnyCase hother hfirst => exact ⟨_, .inr ⟨hother, hfirst⟩, rfl⟩

end Column

/-! ## Values -/

namespace Filter

/-- The value spells no date. -/
def IsUndated (value : Text) : Prop :=
  ∀ date : RelativeDate, ¬ date.IsSpelledBy value

/-- The value is written as a UUID, and the type of the column mentions bytes. -/
structure MeansBytes (columns : List Column) (column value : Text) : Prop where
  column_holds : ∃ type, Column.FindsType columns column type ∧ Column.MentionsBinary type
  written : Uuid.IsWritten value

theorem isUndated_iff (value : Text) :
    IsUndated value ↔ RelativeDate.ofToken? value = none := by
  rw [Option.eq_none_iff_forall_ne_some]
  exact forall_congr' fun date => not_congr RelativeDate.ofToken?_eq_some_iff.symm

namespace Operand

theorem classify_eq_number_iff {type? : Option Text} {value digits : Text} :
    classify type? value = .number digits ↔ IsNumeral value ∧ digits = value := by
  rw [← isNumeric_iff]
  constructor
  · intro hclass
    unfold classify at hclass
    split at hclass
    · next hnumeric =>
        cases hclass
        exact ⟨hnumeric, rfl⟩
    · split at hclass
      · split at hclass <;> cases hclass
      · cases hclass
  · rintro ⟨hnumeric, rfl⟩
    exact if_pos hnumeric

theorem classify_eq_bytes_iff {columns : List Column} {column value : Text} {uuid : Uuid} :
    classify (Column.typeOf? columns column) value = .binary uuid ↔
      MeansBytes columns column value ∧ sameLetters value uuid.toText = true := by
  simp only [classify_eq_binary_iff, Column.typeOf?_eq_some_iff]
  constructor
  · rintro ⟨hcolumn, hsame⟩
    exact ⟨⟨hcolumn, (Uuid.isWritten_iff value).mpr ⟨uuid, hsame⟩⟩, hsame⟩
  · rintro ⟨hbytes, hsame⟩
    exact ⟨hbytes.column_holds, hsame⟩

/-- What is neither a numeral nor the bytes of a UUID is a text. -/
theorem classify_eq_text {columns : List Column} {column value : Text}
    (hother : ¬ IsNumeral value) (hplain : ¬ MeansBytes columns column value) :
    classify (Column.typeOf? columns column) value = .text value := by
  rw [← isNumeric_iff] at hother
  rw [classify, if_neg hother]
  split
  · next hholds =>
      split
      · next uuid hread =>
          have hclass : classify (Column.typeOf? columns column) value = .binary uuid := by
            rw [classify, if_neg hother, if_pos hholds, hread]
          exact absurd (classify_eq_bytes_iff.mp hclass).1 hplain
      · rfl
  · rfl

end Operand

namespace ConditionParts

/-- What becomes of the value of a condition, by the form of the value, the operator and the type
of the column. -/
inductive Yields (columns : List Column) (parts : ConditionParts) : Except Failure Operand → Prop
  | date {date : RelativeDate} (hspelled : date.IsSpelledBy parts.value.value)
      (hop : parts.op.value.isPattern = false) : Yields columns parts (.ok (.date date))
  | refused {date : RelativeDate} (hspelled : date.IsSpelledBy parts.value.value)
      (hop : parts.op.value.isPattern = true) :
      Yields columns parts (.error (.of (.patternOnDate parts.op.value.symbol) parts.op.span))
  | pattern (hundated : IsUndated parts.value.value) (hop : parts.op.value.isPattern = true) :
      Yields columns parts (.ok (.text parts.value.value))
  | number (hundated : IsUndated parts.value.value) (hop : parts.op.value.isPattern = false)
      (hnumeral : IsNumeral parts.value.value) :
      Yields columns parts (.ok (.number parts.value.value))
  | bytes {uuid : Uuid} (hundated : IsUndated parts.value.value)
      (hop : parts.op.value.isPattern = false) (hother : ¬ IsNumeral parts.value.value)
      (hbytes : MeansBytes columns parts.column.value parts.value.value)
      (hsame : sameLetters parts.value.value uuid.toText = true) :
      Yields columns parts (.ok (.binary uuid))
  | text (hundated : IsUndated parts.value.value) (hop : parts.op.value.isPattern = false)
      (hother : ¬ IsNumeral parts.value.value)
      (hplain : ¬ MeansBytes columns parts.column.value parts.value.value) :
      Yields columns parts (.ok (.text parts.value.value))

variable {columns : List Column} {parts : ConditionParts} {outcome : Except Failure Operand}

theorem Yields.operand_eq (hyields : parts.Yields columns outcome) :
    parts.operand columns = outcome := by
  unfold operand
  cases hyields with
  | date hspelled hop => simp [RelativeDate.ofToken?_eq_some_iff.mpr hspelled, hop]
  | refused hspelled hop => simp [RelativeDate.ofToken?_eq_some_iff.mpr hspelled, hop]
  | pattern hundated hop => simp [(isUndated_iff _).mp hundated, hop]
  | number hundated hop hnumeral =>
      simp [(isUndated_iff _).mp hundated, hop, Operand.classify_eq_number_iff.mpr ⟨hnumeral, rfl⟩]
  | bytes hundated hop _ hbytes hsame =>
      simp [(isUndated_iff _).mp hundated, hop, Operand.classify_eq_bytes_iff.mpr ⟨hbytes, hsame⟩]
  | text hundated hop hother hplain =>
      simp [(isUndated_iff _).mp hundated, hop, Operand.classify_eq_text hother hplain]

theorem yields_operand (columns : List Column) (parts : ConditionParts) :
    parts.Yields columns (parts.operand columns) := by
  unfold operand
  split
  · next date hread =>
      have hspelled := RelativeDate.ofToken?_eq_some_iff.mp hread
      split
      · next hop => exact .refused hspelled hop
      · next hop => exact .date hspelled (Bool.eq_false_iff.mpr hop)
  · next hread =>
      have hundated := (isUndated_iff _).mpr hread
      split
      · next hop => exact .pattern hundated hop
      · next hpattern =>
          have hop := Bool.eq_false_iff.mpr hpattern
          by_cases hnumeral : IsNumeral parts.value.value
          · rw [Operand.classify_eq_number_iff.mpr ⟨hnumeral, rfl⟩]
            exact .number hundated hop hnumeral
          by_cases hbytes : MeansBytes columns parts.column.value parts.value.value
          · obtain ⟨uuid, hsame⟩ := (Uuid.isWritten_iff _).mp hbytes.written
            rw [Operand.classify_eq_bytes_iff.mpr ⟨hbytes, hsame⟩]
            exact .bytes hundated hop hnumeral hbytes hsame
          · rw [Operand.classify_eq_text hnumeral hbytes]
            exact .text hundated hop hnumeral hbytes

theorem yields_iff : parts.Yields columns outcome ↔ parts.operand columns = outcome := by
  constructor
  · exact Yields.operand_eq
  · rintro rfl
    exact yields_operand columns parts

/-- The condition of these parts with its operand. -/
def withOperand (parts : ConditionParts) (operand : Operand) : Condition :=
  ⟨parts.column, parts.op, ⟨operand, parts.value.span⟩, parts.span⟩

theorem readAt_eq {placed : Placed} (hparts : read placed = .ok parts) :
    Condition.readAt columns placed = (parts.operand columns).map parts.withOperand := by
  simp only [Condition.readAt, hparts, bind, Except.bind]
  cases parts.operand columns <;> rfl

theorem map_withOperand_inj {other : Except Failure Operand}
    (heq : outcome.map parts.withOperand = other.map parts.withOperand) : outcome = other := by
  cases outcome <;> cases other <;> cases heq <;> rfl

/-- Of the outcomes for a value exactly one fits its form, its operator and the type of its
column, and the condition is read with this outcome.  Numbers are written as they were typed. -/
theorem value_decides_operand {placed : Placed} (hparts : read placed = .ok parts)
    (columns : List Column) :
    (∃! outcome, parts.Yields columns outcome) ∧
      (∀ outcome, parts.Yields columns outcome ↔
        Condition.readAt columns placed = outcome.map parts.withOperand) ∧
      ∀ (condition : Condition) (digits : Text), Condition.readAt columns placed = .ok condition →
        condition.operand.value = .number digits →
          digits = parts.value.value ∧ ∀ dialect, Sql.conditionText dialect condition =
            parts.column.value ++ " " ++ parts.op.value.keyword ++ " " ++ parts.value.value := by
  refine ⟨⟨_, yields_operand columns parts, fun other hother => hother.operand_eq.symm⟩, ?_, ?_⟩
  · intro outcome
    rw [yields_iff, readAt_eq hparts]
    exact ⟨congrArg _, map_withOperand_inj⟩
  · intro condition digits hread hnumber
    rw [readAt_eq hparts] at hread
    have hyields := yields_operand columns parts
    cases hoperand : parts.operand columns with
    | error failure =>
        rw [hoperand] at hread
        cases hread
    | ok operand =>
        rw [hoperand] at hread hyields
        cases hread
        obtain rfl : operand = .number digits := hnumber
        cases hyields
        exact ⟨rfl, fun _ => rfl⟩

/-- Capital letters keep neither a UUID nor the name of its column from being found. -/
theorem value_decides_operand_capitals :
    ∃ parts uuid, read ⟨" ?owner = 550E8400-E29B-41d4-A716-446655440000", 0⟩ = .ok parts ∧
      parts.Yields [⟨"id", "TEXT"⟩, ⟨"OWNER", "VarBinary(16)"⟩] (.ok (.binary uuid)) := by
  have hparts : read ⟨" ?owner = 550E8400-E29B-41d4-A716-446655440000", 0⟩ =
      .ok ⟨⟨"owner", ⟨2, 7⟩⟩, ⟨.equal, ⟨8, 9⟩⟩,
        ⟨"550E8400-E29B-41d4-A716-446655440000", ⟨10, 46⟩⟩, ⟨2, 46⟩⟩ := by decide +kernel
  refine ⟨_,
    ⟨[0x55, 0x0E, 0x84, 0, 0xE2, 0x9B, 0x41, 0xD4, 0xA7, 0x16, 0x44, 0x66, 0x55, 0x44, 0, 0], rfl⟩,
    hparts, ?_⟩
  rw [(value_decides_operand hparts _).2.1]
  decide +kernel

/-- A point without digits behind it makes a text of a number. -/
example : Operand.classify none "-12.50" = .number "-12.50" ∧
    Operand.classify none "-12." = .text "-12." ∧ Operand.classify none "1e5" = .text "1e5" := by
  decide

end ConditionParts

end Filter

end TableBrowser
