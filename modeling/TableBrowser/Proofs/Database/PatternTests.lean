import TableBrowser.Proofs.Database.Likeness
import TableBrowser.Proofs.Database.TextColumn

/-!
# Pattern tests of texts

A filter that asks what a column contains, starts with or ends with finds the texts with a
part in this place that is like its value.  The value may be a number or the text of a UUID,
it may have quotation marks, and its wildcards are wildcards.
-/

namespace TableBrowser

open TableBrowser.Database (Like LooksAt)
open TableBrowser.Filter TableBrowser.Sql TableBrowser.Paging
open TableBrowser.Text (IsWord)

/-! ## Conditions of a pattern test -/

def patternCondition (word : Text) (op : Filter.Operator) (value : Text) : ConditionText :=
  ⟨word, [], op, [], value⟩

variable {word value : Text} {op : Filter.Operator}

theorem isProper_patternCondition (hword : IsWord word) (hop : op.isPattern = true)
    (hvalue : IsCarriedValue value) : (patternCondition word op value).IsProper where
  column_word := hword
  gap_blank := Text.allBlank_nil
  space_blank := Text.allBlank_nil
  value_ne_nil := hvalue.ne_nil
  value_trimmed := Text.trim_eq_self_iff.mp hvalue.trimmed
  op_ends := by
    intro heq
    have heq : op = .greater ∨ op = .less := heq
    rcases heq with rfl | rfl
    · cases hop
    · cases hop

theorem isPlain_patternCondition (hword : IsWord word) (hvalue : IsCarriedValue value) :
    IsPlain (patternCondition word op value).text := by
  have hop : IsPlain op.symbol := by
    cases op <;> decide
  exact (isPlain_of_class (by decide) (by decide) hword.chars).append (hop.append hvalue.plain)

/-- What a pattern test looks for is text, whatever it looks like. -/
theorem operandOf?_of_isPattern (columns : List Column) (hop : op.isPattern = true)
    (hvalue : IsCarriedValue value) :
    operandOf? columns word op value = some (.text value) := by
  rw [operandOf?, hvalue.undated]
  exact if_pos hop

theorem isReadable_pattern (hvalue : IsReadable value) :
    IsReadable ((op.pattern? value).getD value) := by
  have hpercent : IsReadable "%".toList := by decide
  cases op with
  | contains => exact (hpercent.append hvalue).append hpercent
  | startsWith => exact hvalue.append hpercent
  | endsWith => exact hpercent.append hvalue
  | equal | notEqual | greater | greaterEqual | less | lessEqual => exact hvalue

def patternRead (word : Text) (op : Filter.Operator) (value : Text) : Condition :=
  (patternCondition word op value).conditionAt 0 (.text value)

theorem isReadable_patternRead (hword : IsWord word) (hvalue : IsReadable value) :
    IsReadable (conditionText .sqlite (patternRead word op value)) := by
  have hblank : IsReadable " ".toList := by decide
  have hkeyword : IsReadable op.keyword := by
    cases op <;> decide
  have hcolumn : IsReadable word := isReadable_of_class (by decide) hword.chars
  have hcomparand : IsReadable (quotedString ((op.pattern? value).getD value)) :=
    isReadable_quoted (by decide) (isReadable_pattern hvalue)
  exact (((hcolumn.append hblank).append hkeyword).append hblank).append hcomparand

/-- A pattern test is written as a comparison by likeness. -/
theorem ofCondition_patternRead (hop : op.isPattern = true) :
    Proposition.ofCondition (patternRead word op value) =
      ⟨word, .like, .string ((op.pattern? value).getD value)⟩ := by
  cases op with
  | contains | startsWith | endsWith => rfl
  | equal | notEqual | greater | greaterEqual | less | lessEqual => cases hop

/-! ## What is relied on of likeness -/

/-- What is documented of a comparison with a pattern: it is true of a row if the text in the
column that the word stands for is like the pattern. -/
def Contents.Likes {ε : Type} (contents : Contents ε) (word : Text) (place : Nat)
    (pattern : Text) (row : ε) : Prop :=
  ∀ t, (contents.cells row)[place]? = some (.text t) →
    (contents.truth ⟨word, .like, .string pattern⟩ row = some true ↔ Like pattern t)

/-! ## Fetching by a pattern test -/

/-- For all tables and views, words, pattern tests and values without a zero: the filter that
tests a column for the value compiles, and its clause is read to its end.  Where likeness is as
it is documented, the clause is true of a text in the column exactly if the text has a part that
is like the value: somewhere, at its start or at its end.  Without wildcards in the value, this
is a part with the letters of the value.  The pages are cut from a listing of the rows of which
the clause is true, and their statements are read to their end if no name has a zero. -/
theorem Connection.fetch_finds_like_parts {ε : Type} {connection : Connection} {table : Text}
    {contents : Int → Contents ε} (hshows : connection.Shows table contents)
    (hword : IsWord word) (hop : op.isPattern = true) (hvalue : IsCarriedValue value)
    (hreadable : IsReadable value) (columns : List Column) (request : PageRequest) :
    ∃ compiled clause,
      compile .sqlite columns (word ++ (op.symbol ++ value)) = .ok compiled ∧
        Clause.ofText? .sqlite (Database.readableText compiled.clause) = some clause ∧
        (∀ moment place row t,
          (contents moment).Likes word place ((op.pattern? value).getD value) row →
          ((contents moment).cells row)[place]? = some (.text t) →
          (clause.truth ((contents moment).truth · row) = some true ↔
            ∃ part, LooksAt op part t ∧ Like value part) ∧
          ('%' ∉ value → '_' ∉ value →
            (clause.truth ((contents moment).truth · row) = some true ↔
              ∃ part, LooksAt op part t ∧ Text.sameLetters value part = true))) ∧
        connection.Fetches table contents { request with clause? := some compiled.clause }
          (fun moment => (contents moment).selected (some clause)) ∧
        (IsReadable table → (∀ column, request.orderBy? = some column → IsReadable column) →
          AreReadable table { request with clause? := some compiled.clause }) := by
  obtain ⟨predicate, hread, hsingle⟩ :=
    Predicate.exists_read_of_isProper (isProper_patternCondition hword hop hvalue)
      (isPlain_patternCondition hword hvalue) (operandOf?_of_isPattern columns hop hvalue)
  have htyped : IsTypedFilter (some predicate) :=
    isTypedFilter_of_read fun _ heq => Option.some.inj heq ▸ ⟨_, _, hread⟩
  have hclause : (predicate.compiled .sqlite).clause =
      conditionText .sqlite (patternRead word op value) := hsingle.predicateText_eq .sqlite
  have hwritten : IsReadable (predicate.compiled .sqlite).clause :=
    hclause ▸ isReadable_patternRead hword hreadable
  have hproposition : Proposition.ofCondition (patternRead word op value) =
      ⟨word, .like, .string ((op.pattern? value).getD value)⟩ := ofCondition_patternRead hop
  let comparison := Comparison.ofCondition .sqlite 0 (patternRead word op value)
  have hsame : Proposition.ofComparison comparison = .ofCondition (patternRead word op value) :=
    rfl
  refine ⟨predicate.compiled .sqlite, [[.leaf comparison]], ?_, ?_,
    fun moment place row t hlikes ht => ?_,
    ?_, fun htable horder => areReadable_of_names htable hwritten horder⟩
  · exact congrArg (Except.map (·.compiled .sqlite)) hread
  · rw [readableText_eq_self hwritten, hclause]
    exact ofText?_conditionText .sqlite (hsingle.isTyped_of_read hread)
  · have hlike : Clause.truth ((contents moment).truth · row) [[.leaf comparison]] = some true ↔
        ∃ part, LooksAt op part t ∧ Like value part := by
      rw [Clause.truth_leaf, hsame, hproposition, hlikes t ht,
        Like.pattern_iff hop]
    refine ⟨hlike, fun hpercent hunderscore => hlike.trans ?_⟩
    simp only [Like.iff_sameLetters ⟨hpercent, hunderscore⟩]
  · simp only [Contents.selected_of_isSingle hsingle hsame]
    exact hshows.fetches htyped rfl

namespace Database

/-! ## Likeness in a database in memory -/

/-- A database in memory compares with a pattern as it is documented, where all characters count
as they are. -/
theorem Source.contents_likes {source : Source} {now : Int} {place : Nat} {affinity : Affinity}
    {pattern : Text}
    (hcolumn : (Scope.ofSource source).reference? now word = some (.column place affinity))
    (hpattern : IsLikedText pattern) {entry : Entry}
    (htext : ∀ t, entry.cells[place]? = some (.text t) → IsLikedText t) :
    (source.contents now).Likes word place pattern entry := by
  intro t ht
  have htruth : (source.contents now).truth ⟨word, .like, .string pattern⟩ entry =
      compareCells .like affinity ((entry.cells[place]?).getD .null) (.text pattern) := by
    show Test.truth entry ⟨(Scope.ofSource source).reference? now word, _, _⟩ = _
    rw [hcolumn]
    rfl
  have ht : entry.cells[place]? = some (.text t) := ht
  rw [htruth, ht, Option.getD_some, ← matchesPattern_codesOfText_iff hpattern (htext t ht)]
  exact Option.some_inj

/-- A value with a zero in it is not read to its end. -/
theorem zero_hides_part :
    IsWord "c" ∧ IsCarriedValue "a\x00b" ∧ Like "a\x00b" "a\x00b" ∧
      LooksAt .contains "a\x00b" "a\x00b" ∧
      ∃ compiled failure,
        compile .sqlite (textTable ["a\x00b"]).columns "c*a\x00b" = .ok compiled ∧
        Clause.ofText? .sqlite (readableText compiled.clause) = none ∧
        ((textsOnly ["a\x00b"]).connection.source ⟨atOnce 0, .done⟩).page "t"
          (requestOf compiled.clause none none) = .error failure := by
  obtain ⟨compiled, hcompile, hclause⟩ : ∃ compiled,
      compile .sqlite (textTable ["a\x00b"]).columns "c*a\x00b" = .ok compiled ∧
        compiled.clause = "c LIKE '%a\x00b%'".toList :=
    exists_ok (by decide +kernel)
  obtain ⟨failure, hfetch⟩ := exists_error
    (show (((textsOnly ["a\x00b"]).connection.source ⟨atOnce 0, .done⟩).page "t"
      (requestOf "c LIKE '%a\x00b%'" none none)).toOption.isNone = true by decide +kernel)
  refine ⟨by decide, by decide +kernel, ?_, List.infix_rfl, compiled, failure, hcompile, ?_,
    hclause ▸ hfetch⟩
  · exact (Like.iff_sameLetters (by decide)).mpr (Text.sameLetters_refl _)
  · have hnone : (Clause.ofText? .sqlite
        (readableText "c LIKE '%a\x00b%'".toList)).isNone = true := by
      decide +kernel
    rw [hclause]
    exact Option.isNone_iff_eq_none.mp hnone

end Database

open TableBrowser.Database in
/-- The text that is sought may have a quotation mark and wildcards. -/
theorem Connection.fetch_finds_like_parts_quote :
    ∃ compiled clause,
      compile .sqlite (textTable ["IT'S 5", "its 5"]).columns "c*'s _" = .ok compiled ∧
        Clause.ofText? .sqlite (readableText compiled.clause) = some clause ∧
        clause.truth ((Source.contents ⟨textTable ["IT'S 5", "its 5"], false⟩ 0).truth ·
          ⟨1, [.text "IT'S 5"]⟩) = some true ∧
        clause.truth ((Source.contents ⟨textTable ["IT'S 5", "its 5"], false⟩ 0).truth ·
          ⟨2, [.text "its 5"]⟩) ≠ some true := by
  have hcolumn : IsTextColumn (Source.columns ⟨textTable ["IT'S 5", "its 5"], false⟩) "c" 0 :=
    isTextColumn_textTable _
  have hname : IsName "c" := by decide +kernel
  have hvalue : IsCarriedValue "'s _" := by decide +kernel
  have hop : Filter.Operator.contains.isPattern = true := rfl
  have hlikes {t : Text} {number : Nat} (ht : IsLikedText t) :
      (Source.contents ⟨textTable ["IT'S 5", "its 5"], false⟩ 0).Likes "c" 0
        ((Filter.Operator.contains.pattern? "'s _").getD "'s _") ⟨number, [.text t]⟩ :=
    Source.contents_likes (reference?_of_isTextColumn hcolumn hname 0) (by decide +kernel)
      fun other hother => by cases hother; exact ht
  have hshows : (textsOnly ["IT'S 5", "its 5"]).connection.Shows "t"
      (Source.contents ⟨textTable ["IT'S 5", "its 5"], false⟩) := textsOnly_shows (by decide)
  have hword : IsWord "c" := by decide
  obtain ⟨compiled, clause, hcompile, hclause, htruth, -⟩ :=
    fetch_finds_like_parts hshows hword hop hvalue (by decide +kernel)
      (textTable ["IT'S 5", "its 5"]).columns (requestOf [] none none)
  have hfirst := (htruth 0 0 ⟨1, [.text "IT'S 5"]⟩ _ (hlikes (by decide +kernel)) rfl).1
  have hsecond := (htruth 0 0 ⟨2, [.text "its 5"]⟩ _ (hlikes (by decide +kernel)) rfl).1
  rw [← Like.pattern_iff hop, ← matchesPattern_codesOfText_iff (by decide +kernel)
    (by decide +kernel)] at hfirst hsecond
  exact ⟨compiled, clause, hcompile, hclause, hfirst.mpr (by decide +kernel),
    hsecond.not.mpr (by decide +kernel)⟩

end TableBrowser
