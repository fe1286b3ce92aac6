import TableBrowser.Proofs.Database.CellOrder
import TableBrowser.Proofs.Database.Kept
import TableBrowser.Proofs.Filter.PlainFilter
import TableBrowser.Proofs.Filter.Positions
import TableBrowser.Proofs.Filter.UuidText
import TableBrowser.Proofs.Sql.ClauseReadback

/-!
# Bytes asked for as they are shown

A page shows bytes by their digits.  Sixteen bytes are asked for by these digits with
hyphens put in: the clause then has the digits as a page shows them, in a constant that is
these bytes again, so an equality selects the rows that have them.
-/

namespace TableBrowser.Database

open TableBrowser.Filter TableBrowser.Sql
open TableBrowser.Text (AllBlank IsWord sameLetters)

/-! ## Comparing with bytes -/

/-- Next to bytes no cell is converted to bytes, and the bytes are left as they are. -/
theorem reconcile_blob (affinity : Affinity) (cell : Cell) (bytes : List UInt8) :
    ∃ left, Affinity.reconcile affinity .none cell (.blob bytes) = (left, .blob bytes) ∧
      (left.kindRank = 3 → left = cell) := by
  unfold Affinity.reconcile
  split
  · refine ⟨Affinity.numberIfText cell, rfl, fun hkind => ?_⟩
    cases cell with
    | text value =>
        rw [Affinity.numberIfText] at hkind ⊢
        cases hread : numberOfText? value with
        | none => rfl
        | some number =>
            have hnumber := isNumber_of_numberOfText? hread
            rw [hread, Option.getD_some] at hkind
            cases number with
            | integer | real => cases hkind
            | null | text | blob => cases hnumber
    | null | integer | real | blob => rfl
  · split
    · cases cell with
      | null | integer | real | text | blob => exact ⟨_, rfl, fun _ => rfl⟩
    · exact ⟨cell, rfl, fun _ => rfl⟩

/-- Whatever the type of a column, its cell equals bytes exactly if it is these bytes. -/
theorem compareCells_equal_blob_iff {affinity : Affinity} {cell : Cell} {bytes : List UInt8} :
    compareCells .equal affinity cell (.blob bytes) = some true ↔ cell = .blob bytes := by
  constructor
  · intro htrue
    obtain ⟨left, hpair, hleft⟩ := reconcile_blob affinity cell bytes
    simp only [compareCells, hpair] at htrue
    split at htrue
    · cases htrue
    rw [Option.some.injEq, satisfies, Cell.order_isEq_iff] at htrue
    have hblob : left = .blob bytes := Cell.eq_of_key_eq (Nat.le_succ 2) htrue
    rw [← hleft (by rw [hblob]; rfl), hblob]
  · rintro rfl
    have hpair : Affinity.reconcile affinity .none (.blob bytes) (.blob bytes) =
        (.blob bytes, .blob bytes) := by
      cases affinity <;> rfl
    have hequal := (Cell.order_isEq_iff (.blob bytes) (.blob bytes)).mpr rfl
    simp [compareCells, hpair, satisfies, hequal]

/-! ## Asking for bytes -/

/-- A condition asks for bytes: it compares a column that is declared to hold bytes with what
a page shows for them, with hyphens put in and in any letter case. -/
structure AsksFor (columns : List Column) (written : ConditionText) (bytes : List UInt8) :
    Prop where
  column_word : IsWord written.column
  gap_blank : AllBlank written.gap
  space_blank : AllBlank written.space
  compares : written.op.isPattern = false
  holds_bytes : ∃ type, Column.typeOf? columns written.column = some type ∧
    Column.MentionsBinary type
  length_bytes : bytes.length = 16
  value_shown : ∃ shown, (Cell.blob bytes).toJson = .string shown ∧
    sameLetters written.value (Uuid.hyphenate Uuid.layout shown) = true

namespace AsksFor

variable {columns : List Column} {written : ConditionText} {bytes : List UInt8}

/-- The bytes as a UUID. -/
def uuid (hasks : AsksFor columns written bytes) : Uuid :=
  ⟨bytes, hasks.length_bytes⟩

theorem sameLetters_toText (hasks : AsksFor columns written bytes) :
    sameLetters written.value hasks.uuid.toText = true := by
  obtain ⟨shown, hshown, hsame⟩ := hasks.value_shown
  cases hshown
  exact hsame

theorem operandOf?_eq (hasks : AsksFor columns written bytes) :
    operandOf? columns written.column written.op written.value = some (.binary hasks.uuid) :=
  operandOf?_eq_binary_iff.mpr ⟨hasks.compares, hasks.holds_bytes, hasks.sameLetters_toText⟩

theorem isProper (hasks : AsksFor columns written bytes) : written.IsProper := by
  have hsame := hasks.sameLetters_toText
  obtain ⟨first, rest, hvalue, hfirst, -⟩ := Uuid.exists_hyphen hsame
  refine ⟨⟨hasks.column_word, hasks.gap_blank, hasks.space_blank, ?_,
    Uuid.isTrimmed_of_sameLetters hsame⟩, fun _ hequals => ?_⟩
  · rw [hvalue]
    exact List.cons_ne_nil first rest
  · -- The operator is followed by white space or by a digit.
    rw [hvalue] at hequals
    cases hspace : written.space with
    | nil =>
        rw [hspace, List.nil_append, List.head?_cons, Option.some.injEq] at hequals
        rw [hequals] at hfirst
        exact absurd hfirst (by decide)
    | cons c more =>
        rw [hspace, List.cons_append, List.head?_cons, Option.some.injEq] at hequals
        have hblank := hasks.space_blank c (by rw [hspace]; exact List.mem_cons_self)
        rw [hequals] at hblank
        exact absurd hblank (by decide)

theorem isPlain (hasks : AsksFor columns written bytes) : IsPlain written.text := by
  have hcolumn : IsPlain written.column :=
    isPlain_of_class (by decide) (by decide) hasks.column_word.chars
  have hop : IsPlain written.op.symbol := by
    cases written.op <;> decide
  have hvalue : IsPlain written.value :=
    isPlain_of_class (by decide) (by decide) fun c hc =>
      Uuid.isTextChar_of_mem hasks.sameLetters_toText hc
  exact hcolumn.append ((isPlain_of_allBlank hasks.gap_blank).append
    (hop.append ((isPlain_of_allBlank hasks.space_blank).append hvalue)))

/-- The condition that is read. -/
def condition (hasks : AsksFor columns written bytes) : Condition :=
  written.conditionAt 0 (.binary hasks.uuid)

theorem exists_read (hasks : AsksFor columns written bytes) :
    ∃ predicate, Predicate.read columns written.text = .ok predicate ∧
      predicate.IsSingle hasks.condition :=
  Predicate.exists_read_of_isProper hasks.isProper hasks.isPlain hasks.operandOf?_eq

theorem isTyped_condition (hasks : AsksFor columns written bytes) : hasks.condition.IsTyped := by
  obtain ⟨predicate, hread, hsingle⟩ := hasks.exists_read
  exact hsingle.isTyped_of_read hread

theorem compile_eq (hasks : AsksFor columns written bytes) (dialect : Dialect) :
    compile dialect columns written.text = .ok (hasks.condition.compiled dialect) := by
  obtain ⟨predicate, hread, hsingle⟩ := hasks.exists_read
  rw [compile, hread, ← hsingle.compiled_eq dialect]
  rfl

end AsksFor

/-! ## What asking for bytes compiles to -/

/-- A comparison of a column with a constant, and what a preview says of it. -/
def comparisonWith (written : ConditionText) (constant preview : Text) : Compiled :=
  ⟨written.column ++ " " ++ written.op.symbol ++ " " ++ constant,
    "WHERE " ++ (written.column ++ " " ++ written.op.phrase ++ " " ++ preview)⟩

theorem keyword_of_compares {op : Operator} (hop : op.isPattern = false) :
    op.keyword = op.symbol := by
  cases op with
  | equal | notEqual | greater | greaterEqual | less | lessEqual => rfl
  | contains | startsWith | endsWith => cases hop

/-- A clause compares a column with bytes, and nothing else: if it asks for equality, it is
true of the rows that have these bytes in the column. -/
def ComparesWith (dialect : Dialect) (clause : Text) (written : ConditionText)
    (bytes : List UInt8) : Prop :=
  ∃ comparison, Clause.ofText? dialect clause = some [[.leaf comparison]] ∧
    comparison.column.value = written.column ∧
    comparison.comparator.value = .ofOperator written.op ∧
    ∀ now, comparandCell now comparison.comparand.value = .blob bytes ∧
      (written.op = .equal → ∀ scope place affinity,
        Scope.reference? scope now written.column = some (.column place affinity) →
          ∀ entry, (Test.ofComparison now scope comparison).truth entry = some true ↔
            entry.cells[place]? = some (.blob bytes))

variable {columns : List Column} {written : ConditionText} {bytes : List UInt8}

theorem AsksFor.compiled_eq (hasks : AsksFor columns written bytes) (dialect : Dialect) :
    hasks.condition.compiled dialect =
      comparisonWith written (dialect.binaryLiteral (Text.hexOfBytes bytes))
        (Uuid.hyphenate Uuid.layout (Text.hexOfBytes bytes)) := by
  have hclause : conditionText dialect hasks.condition = written.column ++ " " ++
      written.op.keyword ++ " " ++ dialect.binaryLiteral (Text.hexOfBytes bytes) := rfl
  rw [keyword_of_compares hasks.compares] at hclause
  rw [Condition.compiled, hclause]
  rfl

theorem AsksFor.comparesWith (hasks : AsksFor columns written bytes) (dialect : Dialect) :
    ComparesWith dialect (hasks.condition.compiled dialect).clause written bytes := by
  refine ⟨_, ofText?_conditionText dialect hasks.isTyped_condition, rfl, rfl, fun now => ?_⟩
  have hcell : comparandCell now (.bytes (Text.hexOfBytes bytes)) = .blob bytes := by
    rw [comparandCell, Text.bytesOfHex?_hexOfBytes, Option.getD_some]
  refine ⟨hcell, fun hop scope place affinity hreference entry => ?_⟩
  have htest : Test.ofComparison now scope (.ofCondition dialect 0 hasks.condition) =
      ⟨scope.reference? now written.column, .ofOperator written.op,
        comparandCell now (.bytes (Text.hexOfBytes bytes))⟩ := rfl
  have htruth : Test.truth entry ⟨some (.column place affinity), .equal, .blob bytes⟩ =
      compareCells .equal affinity ((entry.cells[place]?).getD .null) (.blob bytes) := rfl
  rw [htest, hreference, hop, hcell, Comparator.ofOperator, htruth, compareCells_equal_blob_iff]
  cases entry.cells[place]? with
  | none => exact ⟨nofun, nofun⟩
  | some cell => exact Option.some_inj.symm

/-! ## What asks for bytes -/

/-- A condition with bytes on its right side was typed as a comparison of a column that is
declared to hold bytes, with what a page shows for them. -/
theorem typed_of_standsIn {source : Text} {condition : Condition} {uuid : Uuid}
    (hstands : condition.StandsIn columns source)
    (hbinary : condition.operand.value = .binary uuid) :
    condition.op.value.isPattern = false ∧
      (∃ type, Column.typeOf? columns condition.column.value = some type ∧
        Column.MentionsBinary type) ∧
      ∃ typed shown, source.slice? condition.operand.span = some typed ∧
        (Cell.blob uuid.bytes).toJson = .string shown ∧
        sameLetters typed (Uuid.hyphenate Uuid.layout shown) = true := by
  obtain ⟨typed, htyped, hoperand⟩ := hstands.operand_cut
  rw [hbinary, operandOf?_eq_binary_iff] at hoperand
  obtain ⟨hop, htype, hsame⟩ := hoperand
  exact ⟨hop, htype, typed, Text.hexOfBytes uuid.bytes, htyped, rfl, hsame⟩

/-- A clause tells what bytes it compares with. -/
theorem ComparesWith.bytes_eq {dialect : Dialect} {clause : Text} {other : ConditionText}
    {otherBytes : List UInt8} (hcompares : ComparesWith dialect clause written bytes)
    (hother : ComparesWith dialect clause other otherBytes) : bytes = otherBytes := by
  obtain ⟨comparison, hread, -, -, hcell⟩ := hcompares
  obtain ⟨comparison', hread', -, -, hcell'⟩ := hother
  cases hread.symm.trans hread'
  exact Cell.blob.inj ((hcell 0).1.symm.trans (hcell' 0).1)

theorem AsksFor.comparesWith_of_compile (hasks : AsksFor columns written bytes)
    {dialect : Dialect} {compiled : Compiled}
    (hcompiled : compile dialect columns written.text = .ok compiled) :
    ComparesWith dialect compiled.clause written bytes := by
  rw [hasks.compile_eq dialect, Except.ok.injEq] at hcompiled
  rw [← hcompiled]
  exact hasks.comparesWith dialect

/-- Sixteen bytes can be asked for as a page shows them: the clause has the digits that are
shown in a constant that is these bytes, and the preview has them in groups.  Only what is
typed like this stands for bytes, and clauses for different bytes are different. -/
theorem shown_bytes_round_trip (columns : List Column) :
    (∀ written bytes, AsksFor columns written bytes → ∃ shown,
      (Cell.blob bytes).toJson = .string shown ∧ Text.lower shown = shown ∧
        compile .sqlite columns written.text =
          .ok (comparisonWith written ("X'" ++ shown ++ "'")
            (Uuid.hyphenate Uuid.layout shown)) ∧
        compile .mySql columns written.text =
          .ok (comparisonWith written ("UNHEX('" ++ shown ++ "')")
            (Uuid.hyphenate Uuid.layout shown))) ∧
      (∀ dialect written bytes compiled, AsksFor columns written bytes →
        compile dialect columns written.text = .ok compiled →
          ComparesWith dialect compiled.clause written bytes) ∧
      (∀ source condition, Condition.read columns source = .ok condition ∨
          (∃ predicate, Predicate.read columns source = .ok predicate ∧
            condition ∈ predicate.conditions) →
        ∀ uuid, condition.operand.value = .binary uuid →
          condition.op.value.isPattern = false ∧
            (∃ type, Column.typeOf? columns condition.column.value = some type ∧
              Column.MentionsBinary type) ∧
            ∃ typed shown, source.slice? condition.operand.span = some typed ∧
              (Cell.blob uuid.bytes).toJson = .string shown ∧
              sameLetters typed (Uuid.hyphenate Uuid.layout shown) = true) ∧
      ∀ dialect otherColumns written bytes other otherBytes compiled otherCompiled,
        AsksFor columns written bytes → AsksFor otherColumns other otherBytes →
        compile dialect columns written.text = .ok compiled →
        compile dialect otherColumns other.text = .ok otherCompiled →
        compiled.clause = otherCompiled.clause → bytes = otherBytes := by
  refine ⟨fun written bytes hasks => ?_, fun _ _ _ _ hasks => hasks.comparesWith_of_compile,
    fun source condition hread uuid hbinary => ?_, ?_⟩
  · refine ⟨Text.hexOfBytes bytes, rfl, Text.lower_hexOfBytes bytes, ?_, ?_⟩
    · rw [hasks.compile_eq, hasks.compiled_eq]
      rfl
    · rw [hasks.compile_eq, hasks.compiled_eq]
      rfl
  · rcases hread with hread | ⟨predicate, hread, hmem⟩
    · exact typed_of_standsIn (Condition.standsIn_of_readAt hread (.refl _)) hbinary
    · exact typed_of_standsIn ((Predicate.standsIn_of_read hread).conditions_stand _ hmem) hbinary
  · intro dialect otherColumns written bytes other otherBytes compiled otherCompiled hasks hother
      hcompiled hotherCompiled hclause
    have hcompares := hasks.comparesWith_of_compile hcompiled
    rw [hclause] at hcompares
    exact hcompares.bytes_eq (hother.comparesWith_of_compile hotherCompiled)

/-- A condition with a UUID in both letter cases. -/
def mixedLetters : ConditionText :=
  ⟨"ID", " ", .equal, [], "0fA1b2C3-d4E5-F607-1829-3a4B5c6D7e8F"⟩

def mixedBytes : List UInt8 :=
  [0x0F, 0xA1, 0xB2, 0xC3, 0xD4, 0xE5, 0xF6, 0x07, 0x18, 0x29, 0x3A, 0x4B, 0x5C, 0x6D, 0x7E, 0x8F]

theorem asksFor_mixedBytes : AsksFor [⟨"id", "VarBinary(16)"⟩] mixedLetters mixedBytes where
  column_word := by decide
  gap_blank := by decide
  space_blank := by decide
  compares := rfl
  holds_bytes := ⟨"VarBinary(16)", rfl, (Column.holdsBinary_iff _).mp (by decide +kernel)⟩
  length_bytes := rfl
  value_shown := ⟨_, rfl, by decide +kernel⟩

/-- Letter case is free in the value, in the word and in the type. -/
theorem shown_bytes_round_trip_mixedLetters :
    compile .sqlite [⟨"id", "VarBinary(16)"⟩] mixedLetters.text =
        .ok ⟨"ID = X'0fa1b2c3d4e5f60718293a4b5c6d7e8f'",
          "WHERE ID equals 0fa1b2c3-d4e5-f607-1829-3a4b5c6d7e8f"⟩ ∧
      ComparesWith .sqlite "ID = X'0fa1b2c3d4e5f60718293a4b5c6d7e8f'" mixedLetters mixedBytes := by
  obtain ⟨hconstants, hcompares, -⟩ := shown_bytes_round_trip [⟨"id", "VarBinary(16)"⟩]
  obtain ⟨shown, hshown, -, hcompiled, -⟩ := hconstants mixedLetters mixedBytes asksFor_mixedBytes
  have hclause : comparisonWith mixedLetters ("X'" ++ Text.hexOfBytes mixedBytes ++ "'")
      (Uuid.hyphenate Uuid.layout (Text.hexOfBytes mixedBytes)) =
        ⟨"ID = X'0fa1b2c3d4e5f60718293a4b5c6d7e8f'",
          "WHERE ID equals 0fa1b2c3-d4e5-f607-1829-3a4b5c6d7e8f"⟩ := by
    decide +kernel
  cases hshown
  rw [hclause] at hcompiled
  have hbytes := hcompares .sqlite mixedLetters mixedBytes _ asksFor_mixedBytes hcompiled
  exact ⟨hcompiled, hbytes⟩

end TableBrowser.Database
