import TableBrowser.Proofs.Filter.Reading
import TableBrowser.Proofs.Sql.MomentRow
import TableBrowser.Sql.Clause

/-!
# Conditions as rows of lexemes

A condition is written as a row of lexemes: its column, its operator and the
lexemes of its operand.  The row is read back as one comparison with the same
column, operator and operand, and reading stops behind the operand, so that what
an operand contains is never taken for anything else.
-/

namespace TableBrowser.Sql

open TableBrowser.Filter TableBrowser.Text

/-- What an operand is compared as: a text as itself, or as the pattern of a
pattern test. -/
def Comparand.ofOperand (dialect : Dialect) (op : Operator) : Operand → Comparand
  | .number digits => .number digits
  | .text value => .string ((op.pattern? value).getD value)
  | .binary uuid => .bytes uuid.digits
  | .date date => .moment (.ofDate dialect date)

/-! ## Rows of conditions -/

def binaryRow : Dialect → Text → List Piece
  | .mySql, digits => callRow "UNHEX" [.solid (.string digits)]
  | .sqlite, digits => [.solid (.bytes digits)]

/-- A number without a sign. -/
def unsignedLexeme (t : Text) : Lexeme :=
  match splitOnce? '.' t with
  | some (whole, fraction) => .decimal whole fraction
  | none => .word t

def numberRow : Text → List Piece
  | '-' :: rest => [.solid (.symbol ['-']), .solid (unsignedLexeme rest)]
  | t => [.solid (unsignedLexeme t)]

def comparandRow (dialect : Dialect) (op : Operator) : Operand → List Piece
  | .number digits => numberRow digits
  | .text value => [.solid (.string ((op.pattern? value).getD value))]
  | .binary uuid => binaryRow dialect uuid.digits
  | .date date => dateRow dialect date

def operatorLexeme : Operator → Lexeme
  | .contains | .startsWith | .endsWith => .word "LIKE"
  | plain => .symbol plain.symbol

def conditionRow (dialect : Dialect) (condition : Condition) : List Piece :=
  .solid (.word condition.column.value) :: .blank ::
    .solid (operatorLexeme condition.op.value) :: .blank ::
      comparandRow dialect condition.op.value condition.operand.value

/-! ## Rows are written as conditions are -/

theorem quote_not_mem_digits (uuid : Uuid) : '\'' ∉ uuid.digits := by
  have hdigit : ∀ n < 16, hexDigit n ≠ '\'' := by decide
  intro hmem
  obtain ⟨byte, -, hchar⟩ := List.mem_flatMap.mp hmem
  have hbyte : byte.toNat < 256 := byte.toNat_lt
  simp only [List.mem_cons, List.not_mem_nil, or_false] at hchar
  rcases hchar with hchar | hchar
  · exact hdigit _ (by omega) hchar.symm
  · exact hdigit _ (by omega) hchar.symm

theorem rowText_binaryRow (dialect : Dialect) (uuid : Uuid) :
    rowText (binaryRow dialect uuid.digits) = dialect.binaryLiteral uuid.digits := by
  have hquoted := quoted_of_not_mem (quote_not_mem_digits uuid)
  cases dialect with
  | mySql =>
      have htext : Dialect.mySql.binaryLiteral uuid.digits =
          "UNHEX('" ++ uuid.digits ++ "')" := rfl
      simp [htext, binaryRow, hquoted]
  | sqlite =>
      have htext : Dialect.sqlite.binaryLiteral uuid.digits =
          "X'" ++ uuid.digits ++ "'" := rfl
      simp [htext, binaryRow, hquoted]

theorem toText_unsignedLexeme (t : Text) : (unsignedLexeme t).toText = t := by
  unfold unsignedLexeme
  split
  · next whole fraction hsplit => exact (eq_of_splitOnce? hsplit).symm
  · rfl

theorem rowText_numberRow (digits : Text) : rowText (numberRow digits) = digits := by
  unfold numberRow
  split
  · simp [toText_unsignedLexeme]
  · simp [toText_unsignedLexeme]

theorem rowText_comparandRow (dialect : Dialect) (op : Operator) (operand : Operand) :
    rowText (comparandRow dialect op operand) = comparandText dialect op operand := by
  cases operand with
  | number digits => exact rowText_numberRow digits
  | text value => simp [comparandRow, comparandText, quotedString]
  | binary uuid => exact rowText_binaryRow dialect uuid
  | date date => exact rowText_dateRow dialect date

theorem toText_operatorLexeme (op : Operator) : (operatorLexeme op).toText = op.keyword := by
  cases op <;> rfl

/-- The row of a condition is the text of the condition. -/
theorem rowText_conditionRow (dialect : Dialect) (condition : Condition) :
    rowText (conditionRow dialect condition) = conditionText dialect condition := by
  simp [conditionRow, conditionText, toText_operatorLexeme, rowText_comparandRow]

/-! ## The lexemes of a condition stay apart -/

theorem digits_of_isDigits {t : Text} (hdigits : Operand.isDigits t = true) :
    t ≠ [] ∧ ∀ c ∈ t, isDigit c = true := by
  simp only [Operand.isDigits, Bool.and_eq_true, Bool.not_eq_true', List.isEmpty_eq_false_iff,
    List.all_eq_true] at hdigits
  exact hdigits

/-- Digits with an optional fraction. -/
def isUnsigned (t : Text) : Bool :=
  match splitOnce? '.' t with
  | some (whole, fraction) => Operand.isDigits whole && Operand.isDigits fraction
  | none => Operand.isDigits t

/-- A number has an optional sign before its digits. -/
theorem numberRow_of_isNumeric {t : Text} (hnumeric : Operand.isNumeric t = true) :
    ∃ unsigned, isUnsigned unsigned = true ∧
      (t = '-' :: unsigned ∧
          numberRow t = [.solid (.symbol ['-']), .solid (unsignedLexeme unsigned)] ∨
        t = unsigned ∧ numberRow t = [.solid (unsignedLexeme unsigned)]) := by
  unfold Operand.isNumeric at hnumeric
  split at hnumeric
  · next rest => exact ⟨rest, hnumeric, .inl ⟨rfl, rfl⟩⟩
  · next hsign =>
      refine ⟨t, hnumeric, .inr ⟨rfl, ?_⟩⟩
      unfold numberRow
      split
      · next rest => exact absurd rfl (hsign rest)
      · rfl

/-- A number is written with digits, points and signs. -/
theorem mem_of_isNumeric {t : Text} (hnumeric : Operand.isNumeric t = true) {c : Char}
    (hc : c ∈ t) : isDigit c = true ∨ c = '.' ∨ c = '-' := by
  have hall {part : Text} (hpart : Operand.isDigits part = true) (hc : c ∈ part) :
      isDigit c = true :=
    (digits_of_isDigits hpart).2 c hc
  have hunsigned {unsigned : Text} (hunsigned : isUnsigned unsigned = true)
      (hc : c ∈ unsigned) : isDigit c = true ∨ c = '.' := by
    unfold isUnsigned at hunsigned
    split at hunsigned
    · next whole fraction hsplit =>
        rw [eq_of_splitOnce? hsplit, List.mem_append, List.mem_cons] at hc
        obtain ⟨hwhole, hfraction⟩ := Bool.and_eq_true_iff.mp hunsigned
        rcases hc with hc | rfl | hc
        · exact .inl (hall hwhole hc)
        · exact .inr rfl
        · exact .inl (hall hfraction hc)
    · exact .inl (hall hunsigned hc)
  obtain ⟨unsigned, hcut, ⟨rfl, -⟩ | ⟨rfl, -⟩⟩ := numberRow_of_isNumeric hnumeric
  · rcases List.mem_cons.mp hc with rfl | hc
    · exact .inr (.inr rfl)
    · exact (hunsigned hcut hc).imp_right .inl
  · exact (hunsigned hcut hc).imp_right .inl

/-- A number without a sign is one lexeme, and that lexeme is read as the number. -/
theorem numeral?_unsignedLexeme {t : Text} (hunsigned : isUnsigned t = true) :
    numeral? (unsignedLexeme t) = some t ∧
      ∀ behind, Delimits behind → (unsignedLexeme t).EndsBefore behind := by
  unfold isUnsigned at hunsigned
  unfold unsignedLexeme
  split at hunsigned
  · next whole fraction hsplit =>
      rw [Bool.and_eq_true] at hunsigned
      obtain ⟨hwholeNe, hwhole⟩ := digits_of_isDigits hunsigned.1
      obtain ⟨hfractionNe, hfraction⟩ := digits_of_isDigits hunsigned.2
      refine ⟨by rw [eq_of_splitOnce? hsplit]; rfl, fun behind hbehind => ?_⟩
      exact Lexeme.decimal_endsBefore hwholeNe hwhole hfractionNe hfraction hbehind
  · next hsplit =>
      obtain ⟨hne, hdigits⟩ := digits_of_isDigits hunsigned
      refine ⟨by simp [numeral?, List.all_eq_true.mpr hdigits], fun behind hbehind => ?_⟩
      exact Lexeme.word_endsBefore ⟨hne, fun c hc => isWordChar_of_isDigit (hdigits c hc)⟩ hbehind

theorem separated_comparandRow (dialect : Dialect) (op : Operator) {operand : Operand}
    (hnumber : ∀ digits, operand = .number digits → Operand.isNumeric digits = true)
    {behind : Text} (hbehind : Delimits behind) :
    Separated (comparandRow dialect op operand) behind := by
  cases operand with
  | number digits =>
      obtain ⟨unsigned, hunsigned, hrow⟩ := numberRow_of_isNumeric (hnumber digits rfl)
      have hends := (numeral?_unsignedLexeme hunsigned).2 behind hbehind
      rcases hrow with ⟨-, hrow⟩ | ⟨-, hrow⟩
      · rw [comparandRow, hrow]
        exact ⟨Lexeme.symbol_endsBefore (by decide) _, by simpa using hends, trivial⟩
      · rw [comparandRow, hrow]
        exact ⟨by simpa using hends, trivial⟩
  | text value => exact ⟨Lexeme.string_endsBefore _ (by simpa using hbehind), trivial⟩
  | binary uuid =>
      cases dialect with
      | mySql =>
          refine separated_callRow (by decide) ⟨?_, trivial⟩
          exact Lexeme.string_endsBefore _ (by simp)
      | sqlite => exact ⟨Lexeme.bytes_endsBefore _ (by simpa using hbehind), trivial⟩
  | date date => exact separated_dateRow dialect date behind

theorem operatorLexeme_endsBefore (op : Operator) (behind : Text) :
    (operatorLexeme op).EndsBefore (' ' :: behind) := by
  cases op with
  | contains | startsWith | endsWith =>
      exact Lexeme.word_endsBefore (by decide) (by simp)
  | equal | notEqual | greater | greaterEqual | less | lessEqual =>
      exact ⟨_, _, rfl, rfl, rfl⟩

theorem separated_conditionRow (dialect : Dialect) {condition : Condition}
    (htyped : condition.IsTyped) {behind : Text} (hbehind : Delimits behind) :
    Separated (conditionRow dialect condition) behind := by
  refine ⟨?_, ?_, ?_⟩
  · exact Lexeme.word_endsBefore htyped.column_word (by simp)
  · exact operatorLexeme_endsBefore _ _
  · exact separated_comparandRow dialect _ htyped.number_numeric hbehind

/-! ## Reading a condition back -/

theorem comparand?_unhex {function opening base closing : Span} {behind : Lexemes}
    (digits : Text) :
    comparand? .mySql
        (⟨.word "UNHEX", function⟩ :: ⟨.symbol ['('], opening⟩ :: ⟨.string digits, base⟩ ::
          ⟨.symbol [')'], closing⟩ :: behind) =
      some (⟨.bytes digits, function.cover closing⟩, behind) := rfl

theorem comparand?_unsignedLexeme {t : Text} (hunsigned : isUnsigned t = true)
    (dialect : Dialect) (span : Span) (behind : Lexemes) :
    comparand? dialect (⟨unsignedLexeme t, span⟩ :: behind) =
      some (⟨.number t, span⟩, behind) := by
  have hnumeral := (numeral?_unsignedLexeme hunsigned).1
  unfold unsignedLexeme at hnumeral ⊢
  split at hnumeral
  · simp [comparand?, hnumeral]
  · simp [comparand?, hnumeral]

theorem comparand?_numberRow {digits : Text} (hnumeric : Operand.isNumeric digits = true)
    (dialect : Dialect) (offset : Nat) (behind : Lexemes) :
    comparand? dialect (placed offset (numberRow digits) ++ behind) =
      some (⟨.number digits, ⟨offset, offset + digits.byteSize⟩⟩, behind) := by
  obtain ⟨unsigned, hunsigned, hrow⟩ := numberRow_of_isNumeric hnumeric
  have hsize : (unsignedLexeme unsigned).byteSize = unsigned.byteSize := by
    rw [← Lexeme.byteSize_toText, toText_unsignedLexeme]
  rcases hrow with ⟨rfl, hrow⟩ | ⟨rfl, hrow⟩
  · have hsign : ('-' : Char).utf8Size = 1 := rfl
    rw [hrow]
    simp only [placed, List.cons_append, List.nil_append, comparand?,
      (numeral?_unsignedLexeme hunsigned).1, Option.map_some, Span.cover,
      Lexeme.byteSize_symbol, byteSize_cons, byteSize_nil, hsign, hsize, Option.some.injEq,
      Prod.mk.injEq, Located.mk.injEq, Span.mk.injEq, and_true, true_and]
    omega
  · rw [hrow, placed, placed, hsize]
    exact comparand?_unsignedLexeme hunsigned dialect _ behind

/-- The row of an operand is read back as what the operand is compared as, at the
bytes the operand was written to. -/
theorem comparand?_comparandRow (dialect : Dialect) (op : Operator) {operand : Operand}
    (hnumber : ∀ digits, operand = .number digits → Operand.isNumeric digits = true)
    (offset : Nat) (behind : Lexemes) :
    comparand? dialect (placed offset (comparandRow dialect op operand) ++ behind) =
      some (⟨.ofOperand dialect op operand,
        ⟨offset, offset + (comparandText dialect op operand).byteSize⟩⟩, behind) := by
  rw [← rowText_comparandRow]
  cases operand with
  | number digits =>
      rw [comparandRow, rowText_numberRow]
      exact comparand?_numberRow (hnumber digits rfl) dialect offset behind
  | text value =>
      rw [comparandRow, rowText_solid, rowText_nil, List.append_nil, Lexeme.byteSize_toText]
      rfl
  | binary uuid =>
      cases dialect with
      | mySql =>
          obtain ⟨opening, closing, hplaced, hcover⟩ :=
            placed_callRow offset "UNHEX" [.solid (.string uuid.digits)]
          rw [comparandRow, binaryRow, hplaced, ← hcover]
          exact comparand?_unhex uuid.digits
      | sqlite =>
          rw [comparandRow, binaryRow, rowText_solid, rowText_nil, List.append_nil,
            Lexeme.byteSize_toText]
          rfl
  | date date => exact comparand?_dateRow dialect date offset behind

theorem comparator?_operatorLexeme (op : Operator) :
    comparator? (operatorLexeme op) = some (.ofOperator op) := by
  cases op <;> rfl

/-- The comparison that a condition is read back as when it was written from a byte
offset on. -/
def Comparison.ofCondition (dialect : Dialect) (offset : Nat) (condition : Condition) :
    Comparison :=
  let operatorStart := offset + condition.column.value.byteSize + 1
  let operatorStop := operatorStart + condition.op.value.keyword.byteSize
  let comparand := comparandText dialect condition.op.value condition.operand.value
  ⟨⟨condition.column.value, ⟨offset, offset + condition.column.value.byteSize⟩⟩,
    ⟨.ofOperator condition.op.value, ⟨operatorStart, operatorStop⟩⟩,
    ⟨.ofOperand dialect condition.op.value condition.operand.value,
      ⟨operatorStop + 1, operatorStop + 1 + comparand.byteSize⟩⟩⟩

theorem comparison?_conditionRow (dialect : Dialect) {condition : Condition}
    (htyped : condition.IsTyped) (offset : Nat) (behind : Lexemes) :
    comparison? dialect (placed offset (conditionRow dialect condition) ++ behind) =
      some (.ofCondition dialect offset condition, behind) := by
  have hkeyword : (operatorLexeme condition.op.value).byteSize =
      condition.op.value.keyword.byteSize := by
    rw [← Lexeme.byteSize_toText, toText_operatorLexeme]
  have hcomparand := comparand?_comparandRow dialect condition.op.value htyped.number_numeric
    (offset + condition.column.value.byteSize + 1 + condition.op.value.keyword.byteSize + 1)
    behind
  simp only [conditionRow, placed, List.cons_append, comparison?, Lexeme.byteSize_word,
    hkeyword, comparator?_operatorLexeme, hcomparand, bind, Option.bind]
  rfl

end TableBrowser.Sql
