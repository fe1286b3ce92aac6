import TableBrowser.Proofs.Text.Readback
import TableBrowser.Sql.Lexeme

/-!
# Rows of lexemes

A row of lexemes is written as text with a blank where one is put between two of
them.  When every lexeme of the row ends where the next one begins, cutting the
text gives the row back, each lexeme at the bytes it was written to.
-/

namespace TableBrowser.Sql

open TableBrowser.Text

/-! ## Characters -/

theorem isSqlSpace_of_isWordChar {c : Char} (hc : isWordChar c = true) :
    isSqlSpace c = false := by
  refine Bool.eq_false_iff.mpr fun hspace => ?_
  simp only [isSqlSpace, Bool.or_eq_true, beq_iff_eq] at hspace
  rcases hspace with (((rfl | rfl) | rfl) | rfl) | hfeed
  · revert hc; decide
  · revert hc; decide
  · revert hc; decide
  · revert hc; decide
  · rw [show c = Char.ofNat 12 from by rw [← hfeed, Char.ofNat_toNat]] at hc
    revert hc; decide

/-! ## Quoted text -/

theorem doubled_of_not_mem {mark : Char} {t : Text} (hmark : mark ∉ t) :
    doubled mark t = t := by
  induction t with
  | nil => rfl
  | cons c rest ih =>
      rw [List.mem_cons, not_or] at hmark
      have hc : c ≠ mark := fun heq => hmark.1 heq.symm
      rw [doubled, List.flatMap_cons, if_neg hc, ← doubled, ih hmark.2]
      rfl

theorem quoted_of_not_mem {mark : Char} {t : Text} (hmark : mark ∉ t) :
    quoted mark t = mark :: (t ++ [mark]) := by
  rw [quoted, doubled_of_not_mem hmark, List.cons_append]

theorem unquoteFrom_cons_of_ne {mark c : Char} (hc : c ≠ mark) (rest : Text) :
    unquoteFrom mark (c :: rest) =
      (unquoteFrom mark rest).map fun (t, after) => (c :: t, after) := by
  cases rest <;> simp [unquoteFrom, hc]

/-- What is quoted is read back whole, and reading stops at the closing mark. -/
theorem unquoteFrom_doubled {mark : Char} (t : Text) {behind : Text}
    (hbehind : behind.head? ≠ some mark) :
    unquoteFrom mark (doubled mark t ++ mark :: behind) = some (t, behind) := by
  induction t with
  | nil =>
      cases behind with
      | nil => simp [doubled, unquoteFrom]
      | cons d rest =>
          have hd : d ≠ mark := by simpa using hbehind
          simp [doubled, unquoteFrom, hd]
  | cons c rest ih =>
      by_cases hc : c = mark
      · subst hc
        have hcons : doubled c (c :: rest) = c :: c :: doubled c rest := by simp [doubled]
        rw [hcons, List.cons_append, List.cons_append]
        simp [unquoteFrom, ih]
      · have hcons : doubled mark (c :: rest) = c :: doubled mark rest := by
          simp [doubled, hc]
        rw [hcons, List.cons_append, unquoteFrom_cons_of_ne hc, ih]
        rfl

/-! ## Single lexemes -/

/-- The text is at its end or begins with a character that belongs to no word,
number or quoted text before it. -/
def Delimits (behind : Text) : Prop :=
  ∀ c ∈ behind.head?, c ∈ [' ', '(', ')', ',']

@[simp]
theorem delimits_nil : Delimits [] := by simp [Delimits]

@[simp]
theorem delimits_cons (c : Char) (rest : Text) :
    Delimits (c :: rest) ↔ c ∈ [' ', '(', ')', ','] := by simp [Delimits]

theorem Delimits.stopsRun {behind : Text} (hbehind : Delimits behind) :
    StopsRun isWordChar behind := by
  intro c hc
  have hmem := hbehind c hc
  simp only [List.mem_cons, List.not_mem_nil, or_false] at hmem
  rcases hmem with rfl | rfl | rfl | rfl <;> rfl

theorem Delimits.head?_ne {behind : Text} (hbehind : Delimits behind) {c : Char}
    (hc : c ∉ [' ', '(', ')', ',']) : behind.head? ≠ some c :=
  fun hhead => hc (hbehind c hhead)

namespace Lexeme

/-- The characters a lexeme is written with. -/
def toText : Lexeme → Text
  | .word t | .symbol t | .unclosed t => t
  | .decimal whole fraction => whole ++ '.' :: fraction
  | .string value => quoted '\'' value
  | .bytes digits => 'X' :: quoted '\'' digits
  | .name value => quoted '"' value

@[simp]
theorem toText_word (t : Text) : (word t).toText = t := rfl

@[simp]
theorem toText_symbol (t : Text) : (symbol t).toText = t := rfl

@[simp]
theorem toText_string (value : Text) : (string value).toText = quoted '\'' value := rfl

@[simp]
theorem toText_name (value : Text) : (name value).toText = quoted '"' value := rfl

@[simp]
theorem toText_bytes (digits : Text) :
    (bytes digits).toText = 'X' :: quoted '\'' digits := rfl

@[simp]
theorem byteSize_word (t : Text) : (word t).byteSize = t.byteSize := rfl

@[simp]
theorem byteSize_symbol (t : Text) : (symbol t).byteSize = t.byteSize := rfl

theorem byteSize_toText (lexeme : Lexeme) : lexeme.toText.byteSize = lexeme.byteSize := by
  cases lexeme with
  | decimal whole fraction =>
      simp only [toText, byteSize, byteSize_append, byteSize_cons]
      rw [show ('.' : Char).utf8Size = 1 from rfl, Nat.add_assoc]
  | bytes digits => rfl
  | word t => rfl
  | string value => rfl
  | name value => rfl
  | symbol t => rfl
  | unclosed t => rfl

/-- A lexeme that is written before some text is cut off there. -/
def EndsBefore (lexeme : Lexeme) (behind : Text) : Prop :=
  ∃ c rest, lexeme.toText = c :: rest ∧ isSqlSpace c = false ∧
    lexemeAt c (rest ++ behind) = (lexeme, behind)

theorem word_endsBefore {t behind : Text} (hword : IsWord t) (hbehind : Delimits behind) :
    (word t).EndsBefore behind := by
  obtain ⟨c, rest, rfl⟩ := List.exists_cons_of_ne_nil hword.ne_nil
  have hc : isWordChar c = true := hword.chars c (by simp)
  refine ⟨c, rest, rfl, isSqlSpace_of_isWordChar hc, ?_⟩
  have htake := takeWhile_append_of_stopsRun hword.chars hbehind.stopsRun
  have hdrop := dropWhile_append_of_stopsRun hword.chars hbehind.stopsRun
  rw [List.cons_append] at htake hdrop
  simp only [lexemeAt, if_pos hc, wordAt, htake, hdrop]
  cases behind with
  | nil => rfl
  | cons d after =>
      have hpoint : d ≠ '.' := by simpa using hbehind.head?_ne (c := '.') (by decide)
      have hmark : d ≠ '\'' := by simpa using hbehind.head?_ne (c := '\'') (by decide)
      split
      · next heq => exact absurd (List.cons.inj heq).1 hpoint
      · next heq => exact absurd (List.cons.inj heq).1 hmark
      · rfl

theorem decimal_endsBefore {whole fraction behind : Text} (hwhole : whole ≠ [])
    (hwholeDigits : ∀ c ∈ whole, isDigit c = true) (hfraction : fraction ≠ [])
    (hfractionDigits : ∀ c ∈ fraction, isDigit c = true) (hbehind : Delimits behind) :
    (decimal whole fraction).EndsBefore behind := by
  obtain ⟨c, rest, rfl⟩ := List.exists_cons_of_ne_nil hwhole
  have hword : ∀ d ∈ c :: rest, isWordChar d = true :=
    fun d hd => isWordChar_of_isDigit (hwholeDigits d hd)
  have hfractionWord : ∀ d ∈ fraction, isWordChar d = true :=
    fun d hd => isWordChar_of_isDigit (hfractionDigits d hd)
  have hpoint : StopsRun isWordChar ('.' :: (fraction ++ behind)) := by
    intro d hd
    cases hd
    decide
  have htake := takeWhile_append_of_stopsRun hword hpoint
  have hdrop := dropWhile_append_of_stopsRun hword hpoint
  rw [List.cons_append] at htake hdrop
  have hc : isWordChar c = true := hword c (by simp)
  refine ⟨c, rest ++ '.' :: fraction, rfl, isSqlSpace_of_isWordChar hc, ?_⟩
  have hall : (c :: rest).all isDigit = true := List.all_eq_true.mpr hwholeDigits
  have hfractionAll : fraction.all isDigit = true := List.all_eq_true.mpr hfractionDigits
  simp only [lexemeAt, if_pos hc, wordAt, List.append_assoc, List.cons_append, htake, hdrop,
    takeWhile_append_of_stopsRun hfractionWord hbehind.stopsRun,
    dropWhile_append_of_stopsRun hfractionWord hbehind.stopsRun, hall, hfractionAll]
  simp [hfraction]

theorem string_endsBefore (value : Text) {behind : Text} (hbehind : Delimits behind) :
    (string value).EndsBefore behind := by
  refine ⟨'\'', doubled '\'' value ++ ['\''], rfl, rfl, ?_⟩
  have hquote := unquoteFrom_doubled value (hbehind.head?_ne (c := '\'') (by decide))
  rw [List.append_assoc, List.singleton_append]
  simp [lexemeAt, isWordChar, isLetter, isDigit, quotedAt, hquote]

theorem name_endsBefore (value : Text) {behind : Text} (hbehind : Delimits behind) :
    (name value).EndsBefore behind := by
  refine ⟨'"', doubled '"' value ++ ['"'], rfl, rfl, ?_⟩
  have hquote := unquoteFrom_doubled value (hbehind.head?_ne (c := '"') (by decide))
  rw [List.append_assoc, List.singleton_append]
  simp [lexemeAt, isWordChar, isLetter, isDigit, quotedAt, hquote]

theorem bytes_endsBefore (digits : Text) {behind : Text} (hbehind : Delimits behind) :
    (bytes digits).EndsBefore behind := by
  refine ⟨'X', quoted '\'' digits, rfl, rfl, ?_⟩
  have hquote := unquoteFrom_doubled digits (hbehind.head?_ne (c := '\'') (by decide))
  rw [quoted, List.cons_append, List.cons_append, List.append_assoc, List.singleton_append]
  simp [lexemeAt, wordAt, isWordChar, isLetter, isDigit, quotedAt, hquote]

/-- A character that begins no longer lexeme is a symbol before any text. -/
theorem symbol_endsBefore {c : Char} (hc : c ∈ ['(', ')', ',', '-', '*', '?', '='])
    (behind : Text) : (symbol [c]).EndsBefore behind := by
  simp only [List.mem_cons, List.not_mem_nil, or_false] at hc
  refine ⟨c, [], rfl, ?_, ?_⟩ <;>
    rcases hc with rfl | rfl | rfl | rfl | rfl | rfl | rfl <;> rfl

end Lexeme

/-! ## Rows -/

/-- A part of a row: a lexeme, or the blank between two of them. -/
inductive Piece
  | blank
  | solid (lexeme : Lexeme)

def Piece.toText : Piece → Text
  | .blank => [' ']
  | .solid lexeme => lexeme.toText

/-- A row as it is written. -/
def rowText (row : List Piece) : Text :=
  row.flatMap Piece.toText

/-- The lexemes of a row that is written from a byte offset on. -/
def placed (offset : Nat) : List Piece → List (Located Lexeme)
  | [] => []
  | .blank :: rest => placed (offset + 1) rest
  | .solid lexeme :: rest =>
    ⟨lexeme, ⟨offset, offset + lexeme.byteSize⟩⟩ :: placed (offset + lexeme.byteSize) rest

/-- Every lexeme of a row ends before what is written behind it. -/
def Separated : List Piece → Text → Prop
  | [], _ => True
  | .blank :: rest, behind => Separated rest behind
  | .solid lexeme :: rest, behind =>
    lexeme.EndsBefore (rowText rest ++ behind) ∧ Separated rest behind

@[simp]
theorem rowText_nil : rowText [] = [] := rfl

@[simp]
theorem rowText_blank (row : List Piece) : rowText (.blank :: row) = ' ' :: rowText row := rfl

@[simp]
theorem rowText_solid (lexeme : Lexeme) (row : List Piece) :
    rowText (.solid lexeme :: row) = lexeme.toText ++ rowText row := rfl

@[simp]
theorem rowText_append (left right : List Piece) :
    rowText (left ++ right) = rowText left ++ rowText right :=
  List.flatMap_append

theorem rowText_flatMap {α : Type} (row : α → List Piece) (items : List α) :
    rowText (items.flatMap row) = items.flatMap fun item => rowText (row item) :=
  List.flatMap_assoc

@[simp]
theorem separated_nil (behind : Text) : Separated [] behind := trivial

@[simp]
theorem separated_solid (lexeme : Lexeme) (row : List Piece) (behind : Text) :
    Separated (.solid lexeme :: row) behind ↔
      lexeme.EndsBefore (rowText row ++ behind) ∧ Separated row behind := Iff.rfl

theorem separated_append (left right : List Piece) (behind : Text) :
    Separated (left ++ right) behind ↔
      Separated left (rowText right ++ behind) ∧ Separated right behind := by
  induction left with
  | nil => simp
  | cons piece rest ih =>
      cases piece with
      | blank => exact ih
      | solid lexeme =>
          rw [List.cons_append, separated_solid, separated_solid, ih, rowText_append,
            List.append_assoc, and_assoc]

/-- The lexemes of a row without their places. -/
def rowLexemes (row : List Piece) : List Lexeme :=
  row.filterMap fun
    | .blank => none
    | .solid lexeme => some lexeme

@[simp]
theorem rowLexemes_solid (lexeme : Lexeme) (row : List Piece) :
    rowLexemes (.solid lexeme :: row) = lexeme :: rowLexemes row := rfl

@[simp]
theorem rowLexemes_blank (row : List Piece) : rowLexemes (.blank :: row) = rowLexemes row := rfl

@[simp]
theorem rowLexemes_append (left right : List Piece) :
    rowLexemes (left ++ right) = rowLexemes left ++ rowLexemes right :=
  List.filterMap_append

theorem map_value_placed (row : List Piece) (offset : Nat) :
    (placed offset row).map (·.value) = rowLexemes row := by
  induction row generalizing offset with
  | nil => rfl
  | cons piece rest ih =>
      cases piece with
      | blank => exact ih (offset + 1)
      | solid lexeme => exact congrArg (lexeme :: ·) (ih _)

/-- What is picked from the lexemes of a row, in their order. -/
def rowPicks {α : Type} (pick? : Lexeme → Option α) (row : List Piece) : List α :=
  (rowLexemes row).filterMap pick?

section

variable {α : Type} {pick? : Lexeme → Option α}

@[simp]
theorem rowPicks_append (left right : List Piece) :
    rowPicks pick? (left ++ right) = rowPicks pick? left ++ rowPicks pick? right := by
  rw [rowPicks, rowLexemes_append, List.filterMap_append, rowPicks, rowPicks]

@[simp]
theorem rowPicks_blank (row : List Piece) :
    rowPicks pick? (.blank :: row) = rowPicks pick? row := rfl

theorem rowPicks_solid {lexeme : Lexeme} (hlexeme : pick? lexeme = none) (row : List Piece) :
    rowPicks pick? (.solid lexeme :: row) = rowPicks pick? row := by
  rw [rowPicks, rowLexemes_solid, List.filterMap_cons_none hlexeme, rowPicks]

end

theorem placed_append (offset : Nat) (left right : List Piece) :
    placed offset (left ++ right) =
      placed offset left ++ placed (offset + (rowText left).byteSize) right := by
  induction left generalizing offset with
  | nil => simp [placed]
  | cons piece rest ih =>
      cases piece with
      | blank =>
          rw [List.cons_append, placed, placed, ih, rowText_blank, byteSize_cons,
            show (' ' : Char).utf8Size = 1 from rfl, Nat.add_assoc]
      | solid lexeme =>
          rw [List.cons_append, placed, placed, ih, rowText_solid, byteSize_append,
            Lexeme.byteSize_toText, Nat.add_assoc, List.cons_append]

/-! ## Cutting a row -/

theorem lexemesFrom_blank (fuel offset : Nat) (t : Text) :
    lexemesFrom fuel offset (' ' :: t) = lexemesFrom fuel (offset + 1) t := by
  cases fuel with
  | zero => rfl
  | succ fuel =>
      have hspace : isSqlSpace ' ' = true := rfl
      simp only [lexemesFrom, List.takeWhile_cons, List.dropWhile_cons, hspace, if_true,
        byteSize_cons]
      rw [show (' ' : Char).utf8Size = 1 from rfl, Nat.add_assoc]

theorem lexemesFrom_lexeme {lexeme : Lexeme} {behind : Text}
    (hends : lexeme.EndsBefore behind) (fuel offset : Nat) :
    lexemesFrom (fuel + 1) offset (lexeme.toText ++ behind) =
      ⟨lexeme, ⟨offset, offset + lexeme.byteSize⟩⟩ ::
        lexemesFrom fuel (offset + lexeme.byteSize) behind := by
  obtain ⟨c, rest, htext, hspace, hcut⟩ := hends
  rw [htext, List.cons_append]
  simp [lexemesFrom, hspace, hcut]

theorem lexemesFrom_row (row : List Piece) {behind : Text} (hseparated : Separated row behind)
    (fuel offset : Nat) :
    lexemesFrom ((placed offset row).length + fuel) offset (rowText row ++ behind) =
      placed offset row ++ lexemesFrom fuel (offset + (rowText row).byteSize) behind := by
  induction row generalizing offset with
  | nil => simp [placed]
  | cons piece rest ih =>
      cases piece with
      | blank =>
          rw [rowText_blank, List.cons_append, lexemesFrom_blank, placed, ih hseparated,
            byteSize_cons, show (' ' : Char).utf8Size = 1 from rfl, Nat.add_assoc]
      | solid lexeme =>
          rw [separated_solid] at hseparated
          rw [placed, List.length_cons, Nat.add_right_comm, rowText_solid, List.append_assoc,
            lexemesFrom_lexeme hseparated.1, ih hseparated.2, byteSize_append,
            Lexeme.byteSize_toText, Nat.add_assoc, List.cons_append]

theorem length_placed_le (row : List Piece) {behind : Text} (hseparated : Separated row behind)
    (offset : Nat) : (placed offset row).length ≤ (rowText row).length := by
  induction row generalizing offset with
  | nil => simp [placed]
  | cons piece rest ih =>
      cases piece with
      | blank =>
          rw [placed, rowText_blank, List.length_cons]
          exact Nat.le_succ_of_le (ih hseparated (offset + 1))
      | solid lexeme =>
          obtain ⟨⟨c, text, htext, -, -⟩, hrest⟩ := hseparated
          have hle := ih hrest (offset + lexeme.byteSize)
          simp only [placed, rowText_solid, htext, List.length_cons, List.length_append]
          omega

/-- A row in which every lexeme ends before the next one is cut into its lexemes. -/
theorem lexemes_rowText {row : List Piece} (hseparated : Separated row []) :
    lexemes (rowText row) = placed 0 row := by
  have hle := length_placed_le row hseparated 0
  have hcut := lexemesFrom_row row hseparated
    ((rowText row).length + 1 - (placed 0 row).length) 0
  rw [List.append_nil, Nat.add_sub_cancel' (by omega)] at hcut
  rw [lexemes, hcut]
  cases (rowText row).length + 1 - (placed 0 row).length <;> simp [lexemesFrom]

theorem filterMap_lexemes_rowText {α : Type} (pick? : Lexeme → Option α) {row : List Piece}
    (hseparated : Separated row []) :
    (lexemes (rowText row)).filterMap (fun lexeme => pick? lexeme.value) = rowPicks pick? row := by
  rw [lexemes_rowText hseparated, rowPicks, ← map_value_placed row 0, List.filterMap_map]
  rfl

end TableBrowser.Sql
