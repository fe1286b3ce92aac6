import TableBrowser.Proofs.Filter.Reading

/-!
# Strings for a reader that knows backslash escapes

Inside of a string MySQL reads a backslash together with the character behind it, next to
the doubled marks that all readers of SQL know.  A text is written with its marks doubled and
its backslashes as they are.  So it is read back if every backslash in it stands before a
wildcard character, where MySQL keeps the backslash, and no other text is.
-/

namespace TableBrowser.Sql

open TableBrowser.Filter

/-- What a character behind a backslash stands for.  The backslash stays before the wildcard
characters of patterns and else goes. -/
def escapeValue (c : Char) : Text :=
  if c = '0' then ['\x00']
  else if c = 'b' then ['\x08']
  else if c = 'n' then ['\n']
  else if c = 'r' then ['\r']
  else if c = 't' then ['\t']
  else if c = 'Z' then ['\x1a']
  else if c = '%' ∨ c = '_' then ['\\', c]
  else [c]

/-- Reads the text behind an opening mark; gives the value and the text behind the closing
mark. -/
def unescapeFrom : Text → Option (Text × Text)
  | [] => none
  | c :: rest =>
    if c = '\\' then
      match rest with
      | [] => none
      | d :: behind =>
        (unescapeFrom behind).map fun (t, after) => (escapeValue d ++ t, after)
    else if c = '\'' then
      match rest with
      | d :: behind =>
        if d = '\'' then (unescapeFrom behind).map fun (t, after) => ('\'' :: t, after)
        else some ([], rest)
      | [] => some ([], [])
    else (unescapeFrom rest).map fun (t, after) => (c :: t, after)

/-- Reads the string at the start of a text. -/
def escapedString? : Text → Option (Text × Text)
  | '\'' :: rest => unescapeFrom rest
  | _ => none

/-- Every backslash stands before a wildcard character. -/
def escapesWildcardsOnly : Text → Bool
  | [] => true
  | c :: rest =>
    if c = '\\' then
      match rest with
      | [] => false
      | d :: behind => (d = '%' || d = '_') && escapesWildcardsOnly behind
    else escapesWildcardsOnly rest

/-! ## The reader step by step -/

theorem unescapeFrom_backslash (d : Char) (behind : Text) :
    unescapeFrom ('\\' :: d :: behind) =
      (unescapeFrom behind).map fun (t, after) => (escapeValue d ++ t, after) := by
  rw [unescapeFrom, if_pos rfl]

theorem unescapeFrom_marks (behind : Text) :
    unescapeFrom ('\'' :: '\'' :: behind) =
      (unescapeFrom behind).map fun (t, after) => ('\'' :: t, after) := by
  rw [unescapeFrom, if_neg (by decide), if_pos rfl]
  rfl

theorem unescapeFrom_mark {behind : Text} (hbehind : behind.head? ≠ some '\'') :
    unescapeFrom ('\'' :: behind) = some ([], behind) := by
  cases behind with
  | nil => rfl
  | cons d rest =>
      have hd : d ≠ '\'' := fun hd => hbehind (by rw [hd]; rfl)
      rw [unescapeFrom, if_neg (by decide), if_pos rfl]
      simp only [if_neg hd]

theorem unescapeFrom_of_ne {c : Char} (hbackslash : c ≠ '\\') (hmark : c ≠ '\'')
    (rest : Text) :
    unescapeFrom (c :: rest) =
      (unescapeFrom rest).map fun (t, after) => (c :: t, after) := by
  rw [unescapeFrom.eq_def]
  simp only [if_neg hbackslash, if_neg hmark]

/-- A string takes at least its closing mark. -/
theorem length_lt_of_unescapeFrom {t value after : Text}
    (hread : unescapeFrom t = some (value, after)) : after.length < t.length := by
  induction t using unescapeFrom.induct generalizing value after with
  | case1 | case2 => cases hread
  | case3 d behind ih =>
      rw [unescapeFrom_backslash, Option.map_eq_some_iff] at hread
      obtain ⟨⟨inner, last⟩, hinner, heq⟩ := hread
      cases heq
      exact Nat.lt_of_lt_of_le (ih hinner) (by simp; omega)
  | case4 behind _ ih =>
      rw [unescapeFrom_marks, Option.map_eq_some_iff] at hread
      obtain ⟨⟨inner, last⟩, hinner, heq⟩ := hread
      cases heq
      exact Nat.lt_of_lt_of_le (ih hinner) (by simp; omega)
  | case5 d behind hd _ =>
      rw [unescapeFrom_mark (by simpa using hd)] at hread
      cases hread
      simp
  | case6 =>
      cases hread
      simp
  | case7 c rest hbackslash hmark ih =>
      rw [unescapeFrom_of_ne hbackslash hmark, Option.map_eq_some_iff] at hread
      obtain ⟨⟨inner, last⟩, hinner, heq⟩ := hread
      cases heq
      exact Nat.lt_of_lt_of_le (ih hinner) (by simp)

/-! ## Which texts are read back -/

theorem doubled_mark (mark : Char) (t : Text) :
    doubled mark (mark :: t) = mark :: mark :: doubled mark t := by
  simp [doubled]

theorem doubled_of_ne {mark c : Char} (hc : c ≠ mark) (t : Text) :
    doubled mark (c :: t) = c :: doubled mark t := by
  simp [doubled, hc]

theorem escapeValue_of_wildcard {d : Char} (hd : d = '%' ∨ d = '_') :
    escapeValue d = ['\\', d] := by
  rcases hd with rfl | rfl <;> rfl

theorem length_escapeValue {d : Char} (hd : ¬ (d = '%' ∨ d = '_')) :
    (escapeValue d).length = 1 := by
  simp only [escapeValue, if_neg hd, apply_ite List.length, List.length_singleton, ite_self]

theorem unescapeFrom_doubled {t behind : Text} (hescapes : escapesWildcardsOnly t = true)
    (hbehind : behind.head? ≠ some '\'') :
    unescapeFrom (doubled '\'' t ++ '\'' :: behind) = some (t, behind) := by
  induction t using escapesWildcardsOnly.induct with
  | case1 => exact unescapeFrom_mark hbehind
  | case2 => cases hescapes
  | case3 d rest ih =>
      simp only [escapesWildcardsOnly, if_true, Bool.and_eq_true, Bool.or_eq_true,
        decide_eq_true_eq] at hescapes
      obtain ⟨hd, hrest⟩ := hescapes
      have hmark : d ≠ '\'' := by rcases hd with rfl | rfl <;> decide
      rw [doubled_of_ne (by decide), doubled_of_ne hmark, List.cons_append, List.cons_append,
        unescapeFrom_backslash, ih hrest, escapeValue_of_wildcard hd]
      rfl
  | case4 c rest hbackslash ih =>
      rw [escapesWildcardsOnly.eq_def] at hescapes
      simp only [if_neg hbackslash] at hescapes
      by_cases hmark : c = '\''
      · subst hmark
        rw [doubled_mark, List.cons_append, List.cons_append, unescapeFrom_marks, ih hescapes]
        rfl
      · rw [doubled_of_ne hmark, List.cons_append, unescapeFrom_of_ne hbackslash hmark,
          ih hescapes]
        rfl

/-- Once a backslash has taken the first of two marks, the string does not end where it was
to end. -/
theorem after_ne_of_lone_mark {t behind value after : Text}
    (hread : unescapeFrom ('\'' :: (doubled '\'' t ++ '\'' :: behind)) = some (value, after)) :
    after ≠ behind := by
  induction t generalizing value after with
  | nil =>
      rw [doubled, List.flatMap_nil, List.nil_append, unescapeFrom_marks,
        Option.map_eq_some_iff] at hread
      obtain ⟨⟨inner, last⟩, hinner, heq⟩ := hread
      cases heq
      intro hsame
      exact Nat.lt_irrefl _ (hsame ▸ length_lt_of_unescapeFrom hinner)
  | cons c t ih =>
      by_cases hmark : c = '\''
      · subst hmark
        rw [doubled_mark, List.cons_append, List.cons_append, unescapeFrom_marks,
          Option.map_eq_some_iff] at hread
        obtain ⟨⟨inner, last⟩, hinner, heq⟩ := hread
        cases heq
        exact ih hinner
      · rw [doubled_of_ne hmark, List.cons_append,
          unescapeFrom_mark (by simpa using hmark)] at hread
        cases hread
        intro hsame
        have hlength := congrArg List.length hsame
        simp only [List.length_cons, List.length_append] at hlength
        omega

/-- A string that ends where it was to end is no longer than the text, and shorter if a
backslash was lost. -/
theorem length_le_of_unescapeFrom {t behind value : Text} (hbehind : behind.head? ≠ some '\'')
    (hread : unescapeFrom (doubled '\'' t ++ '\'' :: behind) = some (value, behind)) :
    value.length ≤ t.length ∧ (value = t → escapesWildcardsOnly t = true) := by
  induction t using escapesWildcardsOnly.induct generalizing value with
  | case1 =>
      rw [doubled, List.flatMap_nil, List.nil_append, unescapeFrom_mark hbehind] at hread
      cases hread
      exact ⟨Nat.le_refl 0, fun _ => rfl⟩
  | case2 =>
      rw [doubled_of_ne (by decide), List.cons_append, doubled, List.flatMap_nil,
        List.nil_append, unescapeFrom_backslash, Option.map_eq_some_iff] at hread
      obtain ⟨⟨inner, last⟩, hinner, heq⟩ := hread
      cases heq
      exact absurd (length_lt_of_unescapeFrom hinner) (Nat.lt_irrefl _)
  | case3 d rest ih =>
      by_cases hmark : d = '\''
      · subst hmark
        rw [doubled_of_ne (by decide), doubled_mark, List.cons_append, List.cons_append,
          List.cons_append, unescapeFrom_backslash, Option.map_eq_some_iff] at hread
        obtain ⟨⟨inner, last⟩, hinner, heq⟩ := hread
        cases heq
        exact absurd rfl (after_ne_of_lone_mark hinner)
      · rw [doubled_of_ne (by decide), doubled_of_ne hmark, List.cons_append,
          List.cons_append, unescapeFrom_backslash, Option.map_eq_some_iff] at hread
        obtain ⟨⟨inner, last⟩, hinner, heq⟩ := hread
        cases heq
        obtain ⟨hlength, hsame⟩ := ih hinner
        by_cases hd : d = '%' ∨ d = '_'
        · rw [escapeValue_of_wildcard hd]
          refine ⟨by simpa using hlength, fun hvalue => ?_⟩
          have hinnerSame : inner = rest := by simpa using hvalue
          simpa [escapesWildcardsOnly, hd] using hsame hinnerSame
        · have hvalue : (escapeValue d ++ inner).length < ('\\' :: d :: rest).length := by
            simp only [List.length_append, length_escapeValue hd, List.length_cons]
            omega
          exact ⟨Nat.le_of_lt hvalue, fun hsame => absurd (congrArg List.length hsame)
            (Nat.ne_of_lt hvalue)⟩
  | case4 c rest hbackslash ih =>
      have hinner : ∃ inner, unescapeFrom (doubled '\'' rest ++ '\'' :: behind) =
          some (inner, behind) ∧ value = c :: inner := by
        by_cases hmark : c = '\''
        · subst hmark
          rw [doubled_mark, List.cons_append, List.cons_append, unescapeFrom_marks,
            Option.map_eq_some_iff] at hread
          obtain ⟨⟨inner, last⟩, hinner, heq⟩ := hread
          cases heq
          exact ⟨inner, hinner, rfl⟩
        · rw [doubled_of_ne hmark, List.cons_append, unescapeFrom_of_ne hbackslash hmark,
            Option.map_eq_some_iff] at hread
          obtain ⟨⟨inner, last⟩, hinner, heq⟩ := hread
          cases heq
          exact ⟨inner, hinner, rfl⟩
      obtain ⟨inner, hinner, rfl⟩ := hinner
      obtain ⟨hlength, hsame⟩ := ih hinner
      refine ⟨by simpa using hlength, fun hvalue => ?_⟩
      have hinnerSame : inner = rest := by simpa using hvalue
      rw [escapesWildcardsOnly.eq_def]
      simpa [hbackslash] using hsame hinnerSame

/-- A written text is read back exactly if its backslashes stand before wildcard characters
only. -/
theorem escapedString?_quotedString_iff {t behind : Text}
    (hbehind : behind.head? ≠ some '\'') :
    escapedString? (quotedString t ++ behind) = some (t, behind) ↔
      escapesWildcardsOnly t = true := by
  have hstring : escapedString? (quotedString t ++ behind) =
      unescapeFrom (doubled '\'' t ++ '\'' :: behind) := by
    simp [quotedString, quoted, escapedString?]
  rw [hstring]
  exact ⟨fun hread => (length_le_of_unescapeFrom hbehind hread).2 rfl,
    fun hescapes => unescapeFrom_doubled hescapes hbehind⟩

/-! ## The strings of a clause -/

/-- A joined part stands before the end or before a separator. -/
theorem exists_of_mem_intercalate (separator : Text) {part : Text} {parts : List Text}
    (hpart : part ∈ parts) :
    ∃ before behind, List.intercalate separator parts = before ++ (part ++ behind) ∧
      (behind = [] ∨ separator <+: behind) := by
  induction parts with
  | nil => cases hpart
  | cons first rest ih =>
      cases rest with
      | nil =>
          rw [List.mem_singleton] at hpart
          exact ⟨[], [], by simp [hpart], .inl rfl⟩
      | cons next more =>
          rw [List.intercalate_cons_cons]
          rcases List.mem_cons.mp hpart with rfl | hrest
          · exact ⟨[], separator ++ List.intercalate separator (next :: more), by simp,
              .inr (List.prefix_append _ _)⟩
          · obtain ⟨before, behind, hjoined, hbehind⟩ := ih hrest
            exact ⟨first ++ separator ++ before, behind, by simp [hjoined], hbehind⟩

/-- No mark follows a joined part if none is in front of the separators. -/
theorem head?_append_ne {behind after : Text} {separator : Text}
    (hbehind : behind = [] ∨ separator <+: behind) (hseparator : separator.head? = some ' ')
    (hafter : after.head? ≠ some '\'') : (behind ++ after).head? ≠ some '\'' := by
  rcases hbehind with rfl | ⟨rest, rfl⟩
  · exact hafter
  · simp [List.head?_append, hseparator]

theorem exists_of_mem_group (dialect : Dialect) {group : Group} {condition : Condition}
    (hmem : condition ∈ group.conditions) :
    ∃ before behind, groupText dialect group =
        before ++ (conditionText dialect condition ++ behind) ∧
      behind.head? ≠ some '\'' := by
  have hpart : conditionText dialect condition ∈
      group.conditions.map (conditionText dialect) := List.mem_map_of_mem hmem
  rw [groupText]
  split
  · obtain ⟨before, behind, hjoined, hbehind⟩ :=
      exists_of_mem_intercalate " AND ".toList hpart
    refine ⟨'(' :: before, behind ++ [')'], ?_, head?_append_ne hbehind rfl (by decide)⟩
    rw [hjoined]
    simp only [List.cons_append, List.append_assoc]
  · next hone =>
      obtain ⟨only, honly⟩ : ∃ only, group.conditions.map (conditionText dialect) = [only] := by
        cases hparts : group.conditions.map (conditionText dialect) with
        | nil => simp [hparts] at hpart
        | cons first rest =>
            rw [hparts, List.length_cons] at hone
            rw [List.length_eq_zero_iff.mp (show rest.length = 0 by omega)]
            exact ⟨first, rfl⟩
      rw [honly, List.mem_singleton] at hpart
      exact ⟨[], [], by simp [honly, hpart], by decide⟩

theorem exists_of_mem_predicate (dialect : Dialect) {predicate : Predicate}
    {condition : Condition} (hmem : condition ∈ predicate.conditions) :
    ∃ before behind, predicateText dialect predicate =
        before ++ (conditionText dialect condition ++ behind) ∧
      behind.head? ≠ some '\'' := by
  obtain ⟨group, hgroup, hcondition⟩ := List.mem_flatMap.mp hmem
  obtain ⟨inside, after, htext, hafter⟩ := exists_of_mem_group dialect hcondition
  obtain ⟨before, behind, hjoined, hbehind⟩ :=
    exists_of_mem_intercalate " OR ".toList (List.mem_map_of_mem (f := groupText dialect) hgroup)
  refine ⟨before ++ inside, after ++ behind, ?_, ?_⟩
  · rw [predicateText, hjoined, htext]
    simp only [List.append_assoc]
  · cases after with
    | nil =>
        have hnil : ([] : Text).head? ≠ some '\'' := by decide
        simpa using head?_append_ne hbehind rfl hnil
    | cons c rest => exact hafter

/-- The text that a condition writes as a string: its value, or the pattern it looks for. -/
def stringOf? (condition : Condition) : Option Text :=
  match condition.operand.value with
  | .text value => some ((condition.op.value.pattern? value).getD value)
  | .number _ | .binary _ | .date _ => none

theorem conditionText_of_stringOf? (dialect : Dialect) {condition : Condition} {written : Text}
    (hwritten : stringOf? condition = some written) :
    conditionText dialect condition =
      condition.column.value ++ " " ++ condition.op.value.keyword ++ " " ++
        quotedString written := by
  rw [stringOf?] at hwritten
  split at hwritten
  · next value hvalue =>
      cases hwritten
      rw [conditionText, hvalue, comparandText]
  all_goals cases hwritten

theorem exists_of_compile_eq_ok {dialect : Dialect} {columns : List Column} {source : Text}
    {compiled : Compiled} (hcompile : compile dialect columns source = .ok compiled) :
    ∃ predicate, Predicate.read columns source = .ok predicate ∧
      compiled.clause = predicateText dialect predicate := by
  obtain ⟨predicate, hread, rfl⟩ := exists_read_of_compile hcompile
  exact ⟨predicate, hread, rfl⟩

/-- The text of a condition stands in the clause as one string, and MySQL reads the string as
this text up to where it was written to end exactly if its backslashes stand before wildcard
characters only. -/
def ReadsIffEscaped (clause : Text) (condition : Condition) : Prop :=
  ∀ written, stringOf? condition = some written →
    ∃ before behind,
      clause = before ++ (condition.column.value ++ " " ++ condition.op.value.keyword ++ " " ++
        quotedString written ++ behind) ∧
      (escapedString? (quotedString written ++ behind) = some (written, behind) ↔
        escapesWildcardsOnly written = true)

theorem mySql_strings_readIffEscaped (columns : List Column) (source : Text)
    {compiled : Compiled} (hcompile : compile .mySql columns source = .ok compiled) :
    ∃ predicate, Predicate.read columns source = .ok predicate ∧
      ∀ condition ∈ predicate.conditions, ReadsIffEscaped compiled.clause condition := by
  obtain ⟨predicate, hread, hclause⟩ := exists_of_compile_eq_ok hcompile
  refine ⟨predicate, hread, fun condition hmem written hwritten => ?_⟩
  obtain ⟨before, behind, htext, hbehind⟩ := exists_of_mem_predicate .mySql hmem
  refine ⟨before, behind, ?_, escapedString?_quotedString_iff hbehind⟩
  rw [hclause, htext, conditionText_of_stringOf? .mySql hwritten]

/-- A backslash before a wildcard is read back, and so are marks; a backslash at the end of a
text is not. -/
theorem mySql_strings_readIffEscaped_marks :
    ∃ compiled predicate,
      compile .mySql [] "rate=50\\%|name=it's&path=c:\\" = .ok compiled ∧
        Predicate.read [] "rate=50\\%|name=it's&path=c:\\" = .ok predicate ∧
        ∀ condition ∈ predicate.conditions, ReadsIffEscaped compiled.clause condition := by
  obtain ⟨compiled, hcompile⟩ : ∃ compiled,
      compile .mySql [] "rate=50\\%|name=it's&path=c:\\" = .ok compiled := ⟨_, rfl⟩
  obtain ⟨predicate, hread, hstrings⟩ := mySql_strings_readIffEscaped [] _ hcompile
  exact ⟨compiled, predicate, hcompile, hread, hstrings⟩

/-- A text that closes its string and goes on as a part of the clause. -/
theorem mySql_string_runs_on :
    (compile .mySql [] "name=\\' OR 1=1 #").toOption =
        some ⟨"name = '\\'' OR 1=1 #'", "WHERE name equals \"\\' OR 1=1 #\""⟩ ∧
      (Predicate.read [] "name=\\' OR 1=1 #").toOption.map
          (fun predicate => predicate.conditions.map (·.operand.value)) =
        some [.text "\\' OR 1=1 #"] ∧
      escapedString? "'\\'' OR 1=1 #'" = some ("'".toList, " OR 1=1 #'".toList) := by
  decide +kernel

end TableBrowser.Sql
