import TableBrowser.Proofs.Sql.LexemeRow
import TableBrowser.Sql.Comparison

/-!
# Relative dates as rows of lexemes

A relative date is written as a call of a date function, and the calls of the two
dialects are read back as the moment that the date stands for.
-/

namespace TableBrowser.Sql

open TableBrowser.Filter TableBrowser.Text

/-- The moment that a relative date stands for.  Where there is no unit of a week
it is seven days for each week. -/
def Moment.ofDate : Dialect → RelativeDate → Moment
  | _, .now => ⟨false, none⟩
  | _, .today => ⟨true, none⟩
  | _, .yesterday => ⟨true, some (1, .day)⟩
  | .sqlite, .ago amount .week => ⟨false, some (7 * amount.toNat, .day)⟩
  | _, .ago amount unit => ⟨false, some (amount.toNat, unit)⟩

/-! ## Rows of calls -/

/-- A call of a function. -/
def callRow (function : Text) (arguments : List Piece) : List Piece :=
  .solid (.word function) :: .solid (.symbol ['(']) :: arguments ++ [.solid (.symbol [')'])]

/-- The second argument of `DATE_SUB`. -/
def intervalRow (digits unit : Text) : List Piece :=
  [.solid (.symbol [',']), .blank, .solid (.word "INTERVAL"), .blank,
    .solid (.word digits), .blank, .solid (.word unit)]

/-- The arguments of a date function with a modifier. -/
def modifiedRow (change : Text) : List Piece :=
  [.solid (.string "now"), .solid (.symbol [',']), .blank, .solid (.string change)]

def dateRow : Dialect → RelativeDate → List Piece
  | .mySql, .now => callRow "NOW" []
  | .mySql, .today => callRow "CURDATE" []
  | .mySql, .yesterday => callRow "DATE_SUB" (callRow "CURDATE" [] ++ intervalRow "1" "DAY")
  | .mySql, .ago amount unit =>
    callRow "DATE_SUB"
      (callRow "NOW" [] ++ intervalRow (ofNat amount.toNat) (intervalKeyword unit))
  | .sqlite, .now => callRow "datetime" [.solid (.string "now")]
  | .sqlite, .today => callRow "date" [.solid (.string "now")]
  | .sqlite, .yesterday => callRow "date" (modifiedRow "-1 day")
  | .sqlite, .ago amount unit =>
    let (count, name) := modifierUnits amount.toNat unit
    callRow "datetime" (modifiedRow ('-' :: ofNat count ++ ' ' :: name))

/-! ## Calls as text -/

theorem quote_not_mem_ofNat (n : Nat) : '\'' ∉ ofNat n := by
  intro hmem
  have hdigit := isDigit_of_mem_ofNat n _ hmem
  revert hdigit
  decide

theorem quote_not_mem_modifier (amount : Nat) (unit : DateUnit) :
    '\'' ∉ '-' :: ofNat (modifierUnits amount unit).1 ++
      ' ' :: (modifierUnits amount unit).2 := by
  have hname : '\'' ∉ (modifierUnits amount unit).2 := by
    cases unit <;> simp [modifierUnits]
  simp [quote_not_mem_ofNat, hname]

@[simp]
theorem rowText_callRow (function : Text) (arguments : List Piece) :
    rowText (callRow function arguments) =
      function ++ '(' :: (rowText arguments ++ [')']) := by
  simp [callRow]

@[simp]
theorem rowText_intervalRow (digits unit : Text) :
    rowText (intervalRow digits unit) = ", INTERVAL " ++ digits ++ " " ++ unit := by
  simp [intervalRow]

theorem rowText_modifiedRow {change : Text} (hquote : '\'' ∉ change) :
    rowText (modifiedRow change) = "'now', '" ++ change ++ "'" := by
  have hnow : quoted '\'' ("now" : Text) = "'now'" := rfl
  rw [modifiedRow, rowText_solid, Lexeme.toText_string, hnow]
  simp [quoted_of_not_mem hquote]

theorem relativeDate_mySql_ago (amount : UInt32) (unit : DateUnit) :
    Dialect.mySql.relativeDate (.ago amount unit) =
      "DATE_SUB(NOW(), INTERVAL " ++ ofNat amount.toNat ++ " " ++ intervalKeyword unit ++ ")" :=
  rfl

theorem relativeDate_sqlite_ago (amount : UInt32) (unit : DateUnit) :
    Dialect.sqlite.relativeDate (.ago amount unit) =
      "datetime('now', '-" ++ ofNat (modifierUnits amount.toNat unit).1 ++ " " ++
        (modifierUnits amount.toNat unit).2 ++ "')" :=
  rfl

theorem rowText_dateRow (dialect : Dialect) (date : RelativeDate) :
    rowText (dateRow dialect date) = dialect.relativeDate date := by
  cases dialect with
  | mySql =>
      cases date with
      | now => rfl
      | today => rfl
      | yesterday => rfl
      | ago amount unit => simp [dateRow, relativeDate_mySql_ago]
  | sqlite =>
      cases date with
      | now => rfl
      | today => rfl
      | yesterday => rfl
      | ago amount unit =>
          rw [relativeDate_sqlite_ago, dateRow, rowText_callRow,
            rowText_modifiedRow (quote_not_mem_modifier amount.toNat unit)]
          simp

/-! ## The lexemes of a call stay apart -/

theorem separated_callRow {function : Text} {arguments : List Piece} {behind : Text}
    (hfunction : IsWord function)
    (harguments : Separated arguments (')' :: behind)) :
    Separated (callRow function arguments) behind := by
  have hopen : ∀ after, (Lexeme.symbol ['(']).EndsBefore after :=
    Lexeme.symbol_endsBefore (by decide)
  have hclose : ∀ after, (Lexeme.symbol [')']).EndsBefore after :=
    Lexeme.symbol_endsBefore (by decide)
  rw [callRow, List.cons_append, List.cons_append, separated_solid, separated_solid,
    separated_append]
  refine ⟨Lexeme.word_endsBefore hfunction (by simp), hopen _, by simpa using harguments, ?_⟩
  exact ⟨hclose _, trivial⟩

theorem separated_intervalRow {digits unit behind : Text} (hdigits : IsWord digits)
    (hunit : IsWord unit) (hbehind : Delimits behind) :
    Separated (intervalRow digits unit) behind := by
  refine ⟨Lexeme.symbol_endsBefore (by decide) _, ?_, ?_, ?_, trivial⟩
  · exact Lexeme.word_endsBefore (by decide) (by simp)
  · exact Lexeme.word_endsBefore hdigits (by simp)
  · exact Lexeme.word_endsBefore hunit (by simpa using hbehind)

theorem separated_modifiedRow (change : Text) {behind : Text} (hbehind : Delimits behind) :
    Separated (modifiedRow change) behind := by
  refine ⟨Lexeme.string_endsBefore _ (by simp), Lexeme.symbol_endsBefore (by decide) _, ?_,
    trivial⟩
  exact Lexeme.string_endsBefore change (by simpa using hbehind)

theorem separated_dateRow (dialect : Dialect) (date : RelativeDate) (behind : Text) :
    Separated (dateRow dialect date) behind := by
  have hclose : ∀ after, Delimits (')' :: after) := by simp
  cases dialect with
  | mySql =>
      have hinner : ∀ (base digits unit : Text), IsWord base → IsWord digits → IsWord unit →
          Separated (callRow "DATE_SUB" (callRow base [] ++ intervalRow digits unit))
            behind := by
        intro base digits unit hbase hdigits hunit
        apply separated_callRow (by decide)
        rw [separated_append]
        exact ⟨separated_callRow hbase trivial,
          separated_intervalRow hdigits hunit (hclose behind)⟩
      cases date with
      | now => exact separated_callRow (by decide) trivial
      | today => exact separated_callRow (by decide) trivial
      | yesterday => exact hinner _ _ _ (by decide) (by decide) (by decide)
      | ago amount unit =>
          have hunit : IsWord (intervalKeyword unit) := by cases unit <;> decide
          exact hinner _ _ _ (by decide) (isWord_ofNat _) hunit
  | sqlite =>
      cases date with
      | now =>
          refine separated_callRow (by decide) ⟨?_, trivial⟩
          exact Lexeme.string_endsBefore _ (hclose behind)
      | today =>
          refine separated_callRow (by decide) ⟨?_, trivial⟩
          exact Lexeme.string_endsBefore _ (hclose behind)
      | yesterday =>
          exact separated_callRow (by decide)
            (separated_modifiedRow _ (hclose behind))
      | ago amount unit =>
          exact separated_callRow (by decide)
            (separated_modifiedRow _ (hclose behind))

/-! ## Reading a call back -/

/-- A moment as the right side of a comparison. -/
def momentComparand (found : Located Moment × Lexemes) : Located Comparand × Lexemes :=
  (⟨.moment found.1.value, found.1.span⟩, found.2)

section Calls

variable {function opening base inner change comma interval amount unit closing : Span}
variable {behind : Lexemes}

/-- A call without arguments, in the dialect in which the moment is one. -/
theorem comparand?_mySqlCall {name : Text} {dateOnly : Bool}
    (hname : name = "NOW" ∧ dateOnly = false ∨ name = "CURDATE" ∧ dateOnly = true) :
    comparand? .mySql
        (⟨.word name, function⟩ :: ⟨.symbol ['('], opening⟩ ::
          ⟨.symbol [')'], closing⟩ :: behind) =
      some (⟨.moment ⟨dateOnly, none⟩, function.cover closing⟩, behind) := by
  rcases hname with ⟨rfl, rfl⟩ | ⟨rfl, rfl⟩ <;> rfl

theorem comparand?_dateSub {name digits unitName : Text} {dateOnly : Bool} {count : Nat}
    {dateUnit : DateUnit} (hname : momentFunction? .mySql (.word name) = some dateOnly)
    (hdigits : toNat? digits = some count)
    (hunit : intervalUnit? (.word unitName) = some dateUnit) :
    comparand? .mySql
        (⟨.word "DATE_SUB", function⟩ :: ⟨.symbol ['('], opening⟩ :: ⟨.word name, base⟩ ::
          ⟨.symbol ['('], inner⟩ :: ⟨.symbol [')'], change⟩ :: ⟨.symbol [','], comma⟩ ::
          ⟨.word "INTERVAL", interval⟩ :: ⟨.word digits, amount⟩ :: ⟨.word unitName, unit⟩ ::
          ⟨.symbol [')'], closing⟩ :: behind) =
      some (⟨.moment ⟨dateOnly, some (count, dateUnit)⟩, function.cover closing⟩,
        behind) := by
  have hmoment : moment? .mySql
        (⟨.word "DATE_SUB", function⟩ :: ⟨.symbol ['('], opening⟩ :: ⟨.word name, base⟩ ::
          ⟨.symbol ['('], inner⟩ :: ⟨.symbol [')'], change⟩ :: ⟨.symbol [','], comma⟩ ::
          ⟨.word "INTERVAL", interval⟩ :: ⟨.word digits, amount⟩ :: ⟨.word unitName, unit⟩ ::
          ⟨.symbol [')'], closing⟩ :: behind) =
      (momentFunction? .mySql (.word name)).bind fun dateOnly =>
        (toNat? digits).bind fun count =>
          (intervalUnit? (.word unitName)).bind fun dateUnit =>
            some (⟨⟨dateOnly, some (count, dateUnit)⟩, function.cover closing⟩, behind) := rfl
  rw [hname, hdigits, hunit] at hmoment
  exact congrArg (Option.map momentComparand) hmoment

theorem comparand?_sqliteCall {name : Text} {dateOnly : Bool}
    (hname : name = "datetime" ∧ dateOnly = false ∨ name = "date" ∧ dateOnly = true) :
    comparand? .sqlite
        (⟨.word name, function⟩ :: ⟨.symbol ['('], opening⟩ :: ⟨.string "now", base⟩ ::
          ⟨.symbol [')'], closing⟩ :: behind) =
      some (⟨.moment ⟨dateOnly, none⟩, function.cover closing⟩, behind) := by
  rcases hname with ⟨rfl, rfl⟩ | ⟨rfl, rfl⟩ <;> rfl

theorem comparand?_modified {name modifier : Text} {dateOnly : Bool} {back : Nat × DateUnit}
    (hname : name = "datetime" ∧ dateOnly = false ∨ name = "date" ∧ dateOnly = true)
    (hmodifier : modifier? modifier = some back) :
    comparand? .sqlite
        (⟨.word name, function⟩ :: ⟨.symbol ['('], opening⟩ :: ⟨.string "now", base⟩ ::
          ⟨.symbol [','], comma⟩ :: ⟨.string modifier, change⟩ ::
          ⟨.symbol [')'], closing⟩ :: behind) =
      some (⟨.moment ⟨dateOnly, some back⟩, function.cover closing⟩, behind) := by
  have hmoment : moment? .sqlite
        (⟨.word name, function⟩ :: ⟨.symbol ['('], opening⟩ :: ⟨.string "now", base⟩ ::
          ⟨.symbol [','], comma⟩ :: ⟨.string modifier, change⟩ ::
          ⟨.symbol [')'], closing⟩ :: behind) =
      (modifier? modifier).map fun back =>
        (⟨⟨dateOnly, some back⟩, function.cover closing⟩, behind) := by
    rcases hname with ⟨rfl, rfl⟩ | ⟨rfl, rfl⟩ <;> rfl
  rw [hmodifier] at hmoment
  rcases hname with ⟨rfl, rfl⟩ | ⟨rfl, rfl⟩ <;>
    exact congrArg (Option.map momentComparand) hmoment

end Calls

/-- The lexemes of a call cover the bytes the call was written to. -/
theorem placed_callRow (offset : Nat) (function : Text) (arguments : List Piece) :
    ∃ opening closing,
      placed offset (callRow function arguments) =
        ⟨.word function, ⟨offset, offset + function.byteSize⟩⟩ :: ⟨.symbol ['('], opening⟩ ::
          (placed (offset + function.byteSize + 1) arguments ++ [⟨.symbol [')'], closing⟩]) ∧
      Span.cover ⟨offset, offset + function.byteSize⟩ closing =
        ⟨offset, offset + (rowText (callRow function arguments)).byteSize⟩ := by
  have hmark : ('(' : Char).utf8Size = 1 ∧ (')' : Char).utf8Size = 1 := ⟨rfl, rfl⟩
  have hstop : (rowText (callRow function arguments)).byteSize =
      function.byteSize + 1 + (rowText arguments).byteSize + 1 := by
    rw [rowText_callRow, byteSize_append, byteSize_cons, byteSize_append, byteSize_cons,
      byteSize_nil, hmark.1, hmark.2]
    omega
  let start := offset + function.byteSize + 1 + (rowText arguments).byteSize
  refine ⟨⟨offset + function.byteSize, offset + function.byteSize + 1⟩, ⟨start, start + 1⟩,
    ?_, ?_⟩
  · rw [callRow, List.cons_append, List.cons_append, placed, placed, placed_append]
    rfl
  · rw [hstop, Span.cover, Span.mk.injEq]
    dsimp only [start]
    omega

theorem modifierUnit?_modifierUnits (amount : Nat) (unit : DateUnit) :
    modifierUnit? (modifierUnits amount unit).2 =
      some (if unit = .week then .day else unit) := by
  cases unit <;> rfl

theorem modifier?_modifierUnits (amount : Nat) (unit : DateUnit) :
    modifier? ('-' :: ofNat (modifierUnits amount unit).1 ++
        ' ' :: (modifierUnits amount unit).2) =
      some ((modifierUnits amount unit).1, if unit = .week then .day else unit) := by
  have hblank : ∀ c ∈ ofNat (modifierUnits amount unit).1, c ≠ ' ' := by
    intro c hc heq
    have hdigit := isDigit_of_mem_ofNat _ c hc
    rw [heq] at hdigit
    revert hdigit
    decide
  rw [List.cons_append, modifier?, splitOnce?_append _ hblank]
  simp [toNat?_ofNat, modifierUnit?_modifierUnits]

theorem comparand?_dateRow (dialect : Dialect) (date : RelativeDate) (offset : Nat)
    (behind : Lexemes) :
    comparand? dialect (placed offset (dateRow dialect date) ++ behind) =
      some (⟨.moment (.ofDate dialect date),
        ⟨offset, offset + (rowText (dateRow dialect date)).byteSize⟩⟩, behind) := by
  cases dialect with
  | mySql =>
      cases date with
      | now =>
          obtain ⟨opening, closing, hplaced, hcover⟩ := placed_callRow offset "NOW" []
          rw [dateRow, hplaced, ← hcover]
          exact comparand?_mySqlCall (.inl ⟨rfl, rfl⟩)
      | today =>
          obtain ⟨opening, closing, hplaced, hcover⟩ := placed_callRow offset "CURDATE" []
          rw [dateRow, hplaced, ← hcover]
          exact comparand?_mySqlCall (.inr ⟨rfl, rfl⟩)
      | yesterday =>
          obtain ⟨opening, closing, hplaced, hcover⟩ :=
            placed_callRow offset "DATE_SUB" (callRow "CURDATE" [] ++ intervalRow "1" "DAY")
          rw [dateRow, hplaced, ← hcover]
          exact comparand?_dateSub rfl rfl rfl
      | ago amount unit =>
          obtain ⟨opening, closing, hplaced, hcover⟩ :=
            placed_callRow offset "DATE_SUB"
              (callRow "NOW" [] ++ intervalRow (ofNat amount.toNat) (intervalKeyword unit))
          have hunit : intervalUnit? (.word (intervalKeyword unit)) = some unit := by
            cases unit <;> rfl
          have hmoment : Moment.ofDate .mySql (.ago amount unit) =
              ⟨false, some (amount.toNat, unit)⟩ := by cases unit <;> rfl
          rw [dateRow, hplaced, ← hcover, hmoment]
          exact comparand?_dateSub rfl (toNat?_ofNat _) hunit
  | sqlite =>
      cases date with
      | now =>
          obtain ⟨opening, closing, hplaced, hcover⟩ :=
            placed_callRow offset "datetime" [.solid (.string "now")]
          rw [dateRow, hplaced, ← hcover]
          exact comparand?_sqliteCall (.inl ⟨rfl, rfl⟩)
      | today =>
          obtain ⟨opening, closing, hplaced, hcover⟩ :=
            placed_callRow offset "date" [.solid (.string "now")]
          rw [dateRow, hplaced, ← hcover]
          exact comparand?_sqliteCall (.inr ⟨rfl, rfl⟩)
      | yesterday =>
          obtain ⟨opening, closing, hplaced, hcover⟩ :=
            placed_callRow offset "date" (modifiedRow "-1 day")
          rw [dateRow, hplaced, ← hcover]
          exact comparand?_modified (.inr ⟨rfl, rfl⟩) rfl
      | ago amount unit =>
          obtain ⟨opening, closing, hplaced, hcover⟩ :=
            placed_callRow offset "datetime" (modifiedRow
              ('-' :: ofNat (modifierUnits amount.toNat unit).1 ++
                ' ' :: (modifierUnits amount.toNat unit).2))
          have hmoment : Moment.ofDate .sqlite (.ago amount unit) =
              ⟨false, some ((modifierUnits amount.toNat unit).1,
                if unit = .week then .day else unit)⟩ := by
            cases unit <;> simp [Moment.ofDate, modifierUnits, Nat.mul_comm]
          rw [dateRow, hplaced, ← hcover, hmoment]
          exact comparand?_modified (.inl ⟨rfl, rfl⟩)
            (modifier?_modifierUnits _ unit)

end TableBrowser.Sql
