import TableBrowser.Database.Check
import TableBrowser.Proofs.Sql.LexemeRow
import TableBrowser.Proofs.Sql.LexemesTaken

/-!
# Statements with a zero

The text of a statement is read only up to the first zero.  Lexemes that are closed in
front of a zero are the same in the whole text, and the zero is a lexeme behind them.
As no statement that is read has such a lexeme, a statement that is read both whole and
up to its first zero has no zero.
-/

namespace TableBrowser.Sql

open TableBrowser.Text

/-! ## Lexemes in front of a zero -/

theorem unquoteFrom_append {mark : Char} {t value after : Text}
    (hread : unquoteFrom mark t = some (value, after)) {behind : Text}
    (hbehind : behind.head? ≠ some mark) :
    unquoteFrom mark (t ++ behind) = some (value, after ++ behind) := by
  induction t using unquoteFrom.induct mark generalizing value after with
  | case1 => cases hread
  | case2 rest ih =>
      simp only [unquoteFrom, if_true, Option.map_eq_some_iff] at hread
      obtain ⟨⟨inner, outer⟩, hinner, heq⟩ := hread
      cases heq
      simp [unquoteFrom, ih hinner]
  | case3 d rest hd =>
      simp only [unquoteFrom, if_true, if_neg hd, Option.some.injEq, Prod.mk.injEq] at hread
      obtain ⟨rfl, rfl⟩ := hread
      simp [unquoteFrom, hd]
  | case4 =>
      simp only [unquoteFrom, if_true, Option.some.injEq, Prod.mk.injEq] at hread
      obtain ⟨rfl, rfl⟩ := hread
      cases behind with
      | nil => simp [unquoteFrom]
      | cons d rest =>
          have hd : d ≠ mark := by simpa using hbehind
          simp [unquoteFrom, hd]
  | case5 c rest hc ih =>
      rw [unquoteFrom_cons_of_ne hc, Option.map_eq_some_iff] at hread
      obtain ⟨⟨inner, outer⟩, hinner, heq⟩ := hread
      cases heq
      rw [List.cons_append, unquoteFrom_cons_of_ne hc, ih hinner]
      rfl

/-- Whether a mark was never closed. -/
def Lexeme.isUnclosed : Lexeme → Bool
  | .unclosed _ => true
  | _ => false

theorem Lexeme.isUnclosed_of_isUsable {lexeme : Lexeme} (husable : lexeme.isUsable = true) :
    lexeme.isUnclosed = false := by
  cases lexeme with
  | unclosed t => cases husable
  | word | decimal | string | bytes | name | symbol => rfl

theorem quotedAt_append {opening : Text} {mark : Char} {build : Text → Lexeme}
    {t after : Text} {lexeme : Lexeme} (hread : quotedAt opening mark build t = (lexeme, after))
    (hclosed : lexeme.isUnclosed = false) {behind : Text} (hbehind : behind.head? ≠ some mark) :
    quotedAt opening mark build (t ++ behind) = (lexeme, after ++ behind) := by
  unfold quotedAt at hread ⊢
  cases hunquote : unquoteFrom mark t with
  | none =>
      rw [hunquote] at hread
      cases hread
      cases hclosed
  | some reading =>
      rw [hunquote] at hread
      cases hread
      rw [unquoteFrom_append hunquote hbehind]

theorem takeWhile_append_stop {class? : Char → Bool} (t : Text) {c : Char} (rest : Text)
    (hc : class? c = false) :
    (t ++ c :: rest).takeWhile class? = t.takeWhile class? := by
  induction t with
  | nil => simp [hc]
  | cons d t ih => cases hd : class? d <;> simp [hd, ih]

theorem dropWhile_append_stop {class? : Char → Bool} (t : Text) {c : Char} (rest : Text)
    (hc : class? c = false) :
    (t ++ c :: rest).dropWhile class? = t.dropWhile class? ++ c :: rest := by
  induction t with
  | nil => simp [hc]
  | cons d t ih => cases hd : class? d <;> simp [hd, ih]

theorem head?_zeroChar_ne {mark : Char} (hmark : zeroChar ≠ mark) (rest : Text) :
    (zeroChar :: rest).head? ≠ some mark := by
  simpa using hmark

theorem wordAt_append {t after : Text} {lexeme : Lexeme} (hread : wordAt t = (lexeme, after))
    (hclosed : lexeme.isUnclosed = false) (rest : Text) :
    wordAt (t ++ zeroChar :: rest) = (lexeme, after ++ zeroChar :: rest) := by
  have hzero : isWordChar zeroChar = false := by decide
  unfold wordAt at hread ⊢
  simp only [takeWhile_append_stop _ _ hzero, dropWhile_append_stop _ _ hzero]
  cases hrest : t.dropWhile isWordChar with
  | nil =>
      rw [hrest] at hread
      cases hread
      rfl
  | cons d behind =>
      rw [hrest] at hread
      rw [List.cons_append]
      by_cases hpoint : d = '.'
      · subst hpoint
        simp only [takeWhile_append_stop _ _ hzero, dropWhile_append_stop _ _ hzero] at hread ⊢
        split at hread
        · next hdecimal =>
            cases hread
            rw [if_pos hdecimal]
        · next hdecimal =>
            cases hread
            rw [if_neg hdecimal, List.cons_append]
      · by_cases hmark : d = '\''
        · subst hmark
          simp only at hread ⊢
          split at hread
          · next hbytes =>
              rw [if_pos hbytes]
              exact quotedAt_append hread hclosed (head?_zeroChar_ne (by decide) rest)
          · next hbytes =>
              cases hread
              rw [if_neg hbytes, List.cons_append]
        · simp only at hread
          split at hread
          · next heq => exact absurd (List.cons.inj heq).1 hpoint
          · next heq => exact absurd (List.cons.inj heq).1 hmark
          · cases hread
            split
            · next heq => exact absurd (List.cons.inj heq).1 hpoint
            · next heq => exact absurd (List.cons.inj heq).1 hmark
            · rfl

/-- A lexeme that is closed is the same when a zero and more text follow. -/
theorem lexemeAt_append {c : Char} {t after : Text} {lexeme : Lexeme}
    (hread : lexemeAt c t = (lexeme, after)) (hclosed : lexeme.isUnclosed = false)
    (rest : Text) :
    lexemeAt c (t ++ zeroChar :: rest) = (lexeme, after ++ zeroChar :: rest) := by
  unfold lexemeAt at hread ⊢
  by_cases hword : isWordChar c = true
  · rw [if_pos hword] at hread ⊢
    rw [← List.cons_append]
    exact wordAt_append hread hclosed rest
  · by_cases hstring : c = '\''
    · rw [if_neg hword, if_pos hstring] at hread ⊢
      exact quotedAt_append hread hclosed (head?_zeroChar_ne (by rw [hstring]; decide) rest)
    · by_cases hname : c = '"'
      · rw [if_neg hword, if_neg hstring, if_pos hname] at hread ⊢
        exact quotedAt_append hread hclosed (head?_zeroChar_ne (by rw [hname]; decide) rest)
      · rw [if_neg hword, if_neg hstring, if_neg hname] at hread ⊢
        have hzero : zeroChar ≠ '=' := by decide
        cases t with
        | nil =>
          split at hread <;> cases hread <;> split <;> simp_all
        | cons d t =>
          split at hread <;> cases hread <;> split <;> simp_all

/-! ## A zero is a lexeme -/

theorem unquoteFrom_suffix {mark : Char} {t value after : Text}
    (hread : unquoteFrom mark t = some (value, after)) : after <:+ t := by
  induction t using unquoteFrom.induct mark generalizing value after with
  | case1 => cases hread
  | case2 rest ih =>
      simp only [unquoteFrom, if_true, Option.map_eq_some_iff] at hread
      obtain ⟨⟨inner, outer⟩, hinner, heq⟩ := hread
      cases heq
      exact (ih hinner).trans ((List.suffix_cons _ _).trans (List.suffix_cons _ _))
  | case3 d rest hd =>
      simp only [unquoteFrom, if_true, if_neg hd, Option.some.injEq, Prod.mk.injEq] at hread
      obtain ⟨rfl, rfl⟩ := hread
      exact List.suffix_cons _ _
  | case4 =>
      simp only [unquoteFrom, if_true, Option.some.injEq, Prod.mk.injEq] at hread
      obtain ⟨rfl, rfl⟩ := hread
      exact List.nil_suffix
  | case5 c rest hc ih =>
      rw [unquoteFrom_cons_of_ne hc, Option.map_eq_some_iff] at hread
      obtain ⟨⟨inner, outer⟩, hinner, heq⟩ := hread
      cases heq
      exact (ih hinner).trans (List.suffix_cons _ _)

theorem quotedAt_suffix (opening : Text) (mark : Char) (build : Text → Lexeme) (t : Text) :
    (quotedAt opening mark build t).2 <:+ t := by
  unfold quotedAt
  split
  · next hread => exact unquoteFrom_suffix hread
  · exact List.nil_suffix

theorem wordAt_suffix (t : Text) : (wordAt t).2 <:+ t.dropWhile isWordChar := by
  unfold wordAt
  cases hrest : t.dropWhile isWordChar with
  | nil => exact List.nil_suffix
  | cons d behind =>
      have hbehind : behind <:+ d :: behind := List.suffix_cons d behind
      dsimp only
      split
      · next inner heq =>
          cases heq
          split
          · exact (List.dropWhile_suffix _).trans hbehind
          · exact List.suffix_rfl
      · next inner heq =>
          cases heq
          split
          · exact (quotedAt_suffix _ _ _ _).trans hbehind
          · exact List.suffix_rfl
      · exact List.suffix_rfl

/-- What follows a lexeme is the end of the text behind its first character. -/
theorem lexemeAt_suffix (c : Char) (t : Text) : (lexemeAt c t).2 <:+ t := by
  unfold lexemeAt
  split
  · next hc =>
      have hword := wordAt_suffix (c :: t)
      rw [List.dropWhile_cons_of_pos hc] at hword
      exact hword.trans (List.dropWhile_suffix _)
  · split
    · exact quotedAt_suffix _ _ _ _
    · split
      · exact quotedAt_suffix _ _ _ _
      · split <;> first | exact List.suffix_rfl | exact List.suffix_cons _ _

theorem zeroChar_mem_lexemesFrom {t : Text} {fuel offset : Nat} (hfuel : t.length < fuel)
    (hclosed : ∀ lexeme ∈ lexemesFrom fuel offset t, lexeme.value.isUnclosed = false)
    {more : Nat} (hmore : fuel ≤ more) (rest : Text) :
    .symbol [zeroChar] ∈ (lexemesFrom more offset (t ++ zeroChar :: rest)).map (·.value) := by
  have hspace : isSqlSpace zeroChar = false := by decide
  induction fuel generalizing t offset more with
  | zero => omega
  | succ fuel ih =>
      obtain ⟨more, rfl⟩ : ∃ n, more = n + 1 := ⟨more - 1, by omega⟩
      have hlength := (List.dropWhile_suffix isSqlSpace (l := t)).length_le
      simp only [lexemesFrom, takeWhile_append_stop _ _ hspace,
        dropWhile_append_stop _ _ hspace] at hclosed ⊢
      cases hrest : t.dropWhile isSqlSpace with
      | nil =>
          have hzero : lexemeAt zeroChar rest = (.symbol [zeroChar], rest) := rfl
          simp [hzero]
      | cons c behind =>
          rw [hrest] at hclosed hlength
          simp only [List.mem_cons, forall_eq_or_imp] at hclosed
          have hread : lexemeAt c (behind ++ zeroChar :: rest) =
              ((lexemeAt c behind).1, (lexemeAt c behind).2 ++ zeroChar :: rest) :=
            lexemeAt_append rfl hclosed.1 rest
          have hsuffix := (lexemeAt_suffix c behind).length_le
          simp only [List.cons_append, hread, List.map_cons, List.mem_cons]
          right
          apply ih _ hclosed.2 (by omega)
          simp at hlength
          omega

end TableBrowser.Sql

namespace TableBrowser.Database

open TableBrowser.Sql

theorem eq_zeroChar_of_toNat {c : Char} (hc : c.toNat = 0) : c = zeroChar := by
  rw [zeroChar, ← hc, Char.ofNat_toNat]

/-- A text that is cut has a zero behind what is left of it. -/
theorem eq_append_of_readableText_ne {t : Text} (hne : readableText t ≠ t) :
    ∃ rest, t = readableText t ++ zeroChar :: rest := by
  have hsplit : t.takeWhile (fun c : Char => decide (c.toNat ≠ 0)) ++
      t.dropWhile (fun c : Char => decide (c.toNat ≠ 0)) = t := List.takeWhile_append_dropWhile
  cases hrest : t.dropWhile (fun c : Char => decide (c.toNat ≠ 0)) with
  | nil =>
      rw [hrest, List.append_nil] at hsplit
      exact absurd hsplit hne
  | cons c rest =>
      have hc := List.head?_dropWhile_not (fun c : Char => decide (c.toNat ≠ 0)) t
      rw [hrest] at hsplit hc
      have hzero : c.toNat = 0 := by simpa using hc
      exact ⟨rest, by rw [← eq_zeroChar_of_toNat hzero]; exact hsplit.symm⟩

theorem readableText_eq_of_read {t : Text} {whole cut : Statement}
    (hwhole : Statement.read .sqlite t = .ok whole)
    (hcut : Statement.read .sqlite (readableText t) = .ok cut) : readableText t = t := by
  refine Decidable.byContradiction fun hne => ?_
  -- In a text that was cut the zero behind the cut is a lexeme, and no statement takes it.
  obtain ⟨rest, hsplit⟩ := eq_append_of_readableText_ne hne
  have hclosed : ∀ lexeme ∈ lexemes (readableText t), lexeme.value.isUnclosed = false :=
    fun lexeme hmem =>
      Lexeme.isUnclosed_of_isUsable ((takes_of_ofLexemes hcut).all_usable lexeme hmem)
  have hlength : (readableText t).length ≤ t.length :=
    (List.takeWhile_prefix _).length_le
  have hmem := zeroChar_mem_lexemesFrom (Nat.lt_succ_self _) hclosed
    (Nat.succ_le_succ hlength) rest
  rw [← hsplit, List.mem_map] at hmem
  obtain ⟨lexeme, hmem, hvalue⟩ := hmem
  have husable := (takes_of_ofLexemes hwhole).all_usable lexeme hmem
  rw [hvalue] at husable
  exact absurd husable (by decide)

/-- A statement that is accepted is the one that its whole text is read as. -/
theorem readStatement_eq_of_read {t : Text} {whole accepted : Statement}
    (hwhole : Statement.read .sqlite t = .ok whole)
    (haccepted : readStatement t = .ok accepted) : accepted = whole := by
  unfold readStatement at haccepted
  split at haccepted
  · next hcut =>
      rw [readableText_eq_of_read hwhole hcut, hwhole] at hcut
      split at haccepted
      · cases hcut
        cases haccepted
        rfl
      · cases haccepted
  · cases haccepted

end TableBrowser.Database
