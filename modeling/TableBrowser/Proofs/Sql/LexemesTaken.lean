import TableBrowser.Sql.Statement

/-!
# What a statement is read from

A statement that is read takes all of its lexemes, and takes them only where its
grammar has a place for them.  So none of them is a mark that is never closed, and none
is a zero.
-/

namespace TableBrowser.Sql

open TableBrowser.Text

/-- The character at which the reading of a statement ends. -/
def zeroChar : Char := Char.ofNat 0

/-! ## Usable lexemes -/

namespace Lexeme

/-- Whether a lexeme can be part of a statement that is read. -/
def isUsable : Lexeme → Bool
  | .unclosed _ => false
  | .symbol t => t != [zeroChar]
  | _ => true

theorem isUsable_of_isKeyword {keyword : Text} {lexeme : Lexeme}
    (hkeyword : isKeyword keyword lexeme = true) : lexeme.isUsable = true := by
  cases lexeme with
  | word t => rfl
  | decimal | string | bytes | name | symbol | unclosed => cases hkeyword

theorem isUsable_of_comparator? {lexeme : Lexeme} {comparator : Comparator}
    (hread : comparator? lexeme = some comparator) : lexeme.isUsable = true := by
  unfold comparator? at hread
  split at hread
  all_goals try decide
  split at hread
  · next hkeyword => exact isUsable_of_isKeyword hkeyword
  · cases hread

theorem isUsable_of_numeral? {lexeme : Lexeme} {t : Text}
    (hread : numeral? lexeme = some t) : lexeme.isUsable = true := by
  cases lexeme with
  | word t => rfl
  | decimal whole fraction => rfl
  | string | bytes | name | symbol | unclosed => cases hread

theorem isUsable_of_momentFunction? {lexeme : Lexeme} {dateOnly : Bool}
    (hread : momentFunction? .sqlite lexeme = some dateOnly) : lexeme.isUsable = true := by
  cases lexeme with
  | word t => rfl
  | decimal | string | bytes | name | symbol | unclosed => cases hread

theorem isUsable_of_directionOf? {lexeme : Lexeme} {direction : Paging.Direction}
    (hread : Statement.directionOf? lexeme = some direction) : lexeme.isUsable = true := by
  cases lexeme with
  | word t => rfl
  | decimal | string | bytes | name | symbol | unclosed => cases hread

end Lexeme

/-- A reading that begins in front of some lexemes ends in front of the rest of them, and
all that it takes is usable. -/
def Takes (lexemes rest : Lexemes) : Prop :=
  ∃ taken, lexemes = taken ++ rest ∧ ∀ lexeme ∈ taken, lexeme.value.isUsable = true

namespace Takes

theorem refl (lexemes : Lexemes) : Takes lexemes lexemes :=
  ⟨[], rfl, by simp⟩

theorem trans {lexemes middle rest : Lexemes} (hleft : Takes lexemes middle)
    (hright : Takes middle rest) : Takes lexemes rest := by
  obtain ⟨left, rfl, hleft⟩ := hleft
  obtain ⟨right, rfl, hright⟩ := hright
  refine ⟨left ++ right, (List.append_assoc _ _ _).symm, fun lexeme hmem => ?_⟩
  rcases List.mem_append.mp hmem with hmem | hmem
  · exact hleft lexeme hmem
  · exact hright lexeme hmem

theorem cons {first : Located Lexeme} (hfirst : first.value.isUsable = true)
    {lexemes rest : Lexemes} (htakes : Takes lexemes rest) : Takes (first :: lexemes) rest := by
  obtain ⟨taken, rfl, htaken⟩ := htakes
  exact ⟨first :: taken, rfl, by simpa [hfirst] using htaken⟩

/-- A symbol of one character other than a zero is usable. -/
theorem symbol {c : Char} (hc : c ≠ zeroChar) {span : Span} {lexemes rest : Lexemes}
    (htakes : Takes lexemes rest) : Takes (⟨.symbol [c], span⟩ :: lexemes) rest :=
  cons (by simpa [Lexeme.isUsable] using hc) htakes

theorem all_usable {lexemes : Lexemes} (htakes : Takes lexemes []) :
    ∀ lexeme ∈ lexemes, lexeme.value.isUsable = true := by
  obtain ⟨taken, rfl, htaken⟩ := htakes
  simpa using htaken

end Takes

/-! ## Comparisons and clauses -/

theorem takes_of_moment? {lexemes rest : Lexemes} {moment : Located Moment}
    (hread : moment? .sqlite lexemes = some (moment, rest)) : Takes lexemes rest := by
  unfold moment? at hread
  split at hread
  · split at hread
    · next hfunction =>
        split at hread
        · cases hread
          refine .cons (Lexeme.isUsable_of_momentFunction? hfunction) (.symbol (by decide) ?_)
          exact .cons rfl (.symbol (by decide) (.refl _))
        · cases hread
    · next hfunction =>
        split at hread
        · obtain ⟨back, -, heq⟩ := Option.map_eq_some_iff.mp hread
          cases heq
          refine .cons (Lexeme.isUsable_of_momentFunction? hfunction) (.symbol (by decide) ?_)
          refine .cons rfl (.symbol (by decide) ?_)
          exact .cons rfl (.symbol (by decide) (.refl _))
        · cases hread
    · contradiction
    · contradiction
    · cases hread
  · cases hread

theorem takes_of_comparand? {lexemes rest : Lexemes} {comparand : Located Comparand}
    (hread : comparand? .sqlite lexemes = some (comparand, rest)) : Takes lexemes rest := by
  unfold comparand? at hread
  split at hread
  · cases hread
  · cases hread
    exact .cons rfl (.refl _)
  · cases hread
    exact .cons rfl (.refl _)
  · obtain ⟨t, hnumeral, heq⟩ := Option.map_eq_some_iff.mp hread
    cases heq
    exact .symbol (by decide) (.cons (Lexeme.isUsable_of_numeral? hnumeral) (.refl _))
  · split at hread
    · next hnumeral =>
        cases hread
        exact .cons (Lexeme.isUsable_of_numeral? hnumeral) (.refl _)
    · split at hread
      · contradiction
      · obtain ⟨⟨moment, behind⟩, hmoment, heq⟩ := Option.map_eq_some_iff.mp hread
        cases heq
        exact takes_of_moment? hmoment

theorem takes_of_comparison? {lexemes rest : Lexemes} {comparison : Comparison}
    (hread : comparison? .sqlite lexemes = some (comparison, rest)) : Takes lexemes rest := by
  unfold comparison? at hread
  split at hread
  · obtain ⟨comparator, hcomparator, hread⟩ := Option.bind_eq_some_iff.mp hread
    obtain ⟨⟨comparand, behind⟩, hcomparand, hread⟩ := Option.bind_eq_some_iff.mp hread
    cases hread
    refine .cons rfl (.cons (Lexeme.isUsable_of_comparator? hcomparator) ?_)
    exact takes_of_comparand? hcomparand
  · cases hread

/-- The parts of a clause are cut off usable lexemes. -/
theorem takes_of_partsFrom (fuel : Nat) (expectsFactor : Bool) (depth : Nat)
    (lexemes : Lexemes) :
    Takes lexemes (partsFrom .sqlite fuel expectsFactor depth lexemes).behind := by
  induction fuel generalizing expectsFactor depth lexemes with
  | zero => cases expectsFactor <;> exact .refl _
  | succ fuel ih =>
      cases expectsFactor with
      | true =>
          unfold partsFrom
          split
          · exact .symbol (by decide) (ih _ _ _)
          · split
            · next hcomparison => exact (takes_of_comparison? hcomparison).trans (ih _ _ _)
            · exact .refl _
      | false =>
          unfold partsFrom
          split
          · exact .refl _
          · exact .symbol (by decide) (ih _ _ _)
          · split
            · next hkeyword => exact .cons (Lexeme.isUsable_of_isKeyword hkeyword) (ih _ _ _)
            · split
              · next hkeyword => exact .cons (Lexeme.isUsable_of_isKeyword hkeyword) (ih _ _ _)
              · exact .refl _

/-! ## Statements -/

theorem takes_of_clauseAt {lexemes rest : Lexemes} {parts? : Option (List Part)}
    (hread : Statement.clauseAt .sqlite lexemes = .ok (parts?, rest)) : Takes lexemes rest := by
  unfold Statement.clauseAt at hread
  split at hread
  · split at hread
    · next hkeyword =>
        dsimp only at hread
        split at hread
        · cases hread
          exact .cons (Lexeme.isUsable_of_isKeyword hkeyword) (takes_of_partsFrom _ _ _ _)
        · cases hread
    · cases hread
      exact .refl _
  · cases hread
    exact .refl _

theorem takes_of_orderAt {lexemes rest : Lexemes} {order? : Option Paging.SortOrder}
    (hread : Statement.orderAt lexemes = .ok (order?, rest)) : Takes lexemes rest := by
  unfold Statement.orderAt at hread
  split at hread
  · split at hread
    · next hkeywords =>
        rw [Bool.and_eq_true] at hkeywords
        split at hread
        · split at hread
          · next hdirection =>
              cases hread
              refine .cons (Lexeme.isUsable_of_isKeyword hkeywords.1) ?_
              refine .cons (Lexeme.isUsable_of_isKeyword hkeywords.2) (.cons rfl ?_)
              exact .cons (Lexeme.isUsable_of_directionOf? hdirection) (.refl _)
          · cases hread
        · cases hread
    · cases hread
      exact .refl _
  · cases hread
    exact .refl _

theorem takes_of_pagingAt {lexemes : Lexemes} {paged : Bool}
    (hread : Statement.pagingAt lexemes = .ok paged) : Takes lexemes [] := by
  unfold Statement.pagingAt at hread
  split at hread
  · exact .refl _
  · split at hread
    · next hkeywords =>
        rw [Bool.and_eq_true] at hkeywords
        refine .cons (Lexeme.isUsable_of_isKeyword hkeywords.1) (.symbol (by decide) ?_)
        refine .cons rfl (.cons (Lexeme.isUsable_of_isKeyword hkeywords.2) ?_)
        exact .symbol (by decide) (.cons rfl (.refl _))
    · cases hread
  · cases hread

theorem takes_of_tail {counts : Bool} {table : Text} {lexemes : Lexemes}
    {statement : Statement}
    (hread : Statement.tail .sqlite counts table lexemes = .ok statement) :
    Takes lexemes [] := by
  unfold Statement.tail at hread
  cases hclause : Statement.clauseAt .sqlite lexemes with
  | error fault => rw [hclause] at hread; cases hread
  | ok clause =>
      obtain ⟨parts?, behind⟩ := clause
      rw [hclause] at hread
      cases horder : Statement.orderAt behind with
      | error fault => simp [bind, Except.bind, horder] at hread
      | ok order =>
          obtain ⟨order?, rest⟩ := order
          cases hpaging : Statement.pagingAt rest with
          | error fault => simp [bind, Except.bind, horder, hpaging] at hread
          | ok paged =>
              exact (takes_of_clauseAt hclause).trans
                ((takes_of_orderAt horder).trans (takes_of_pagingAt hpaging))

theorem takes_of_selection? {lexemes rest : Lexemes} {counts : Bool}
    (hread : Statement.selection? lexemes = some (counts, rest)) : Takes lexemes rest := by
  unfold Statement.selection? at hread
  split at hread
  · split at hread
    · next hkeyword =>
        cases hread
        refine .cons (Lexeme.isUsable_of_isKeyword hkeyword) (.symbol (by decide) ?_)
        exact .symbol (by decide) (.symbol (by decide) (.refl _))
    · cases hread
  · cases hread
    exact .symbol (by decide) (.refl _)
  · cases hread

/-- All lexemes of a statement that is read are taken. -/
theorem takes_of_ofLexemes {lexemes : Lexemes} {statement : Statement}
    (hread : Statement.ofLexemes .sqlite lexemes = .ok statement) : Takes lexemes [] := by
  unfold Statement.ofLexemes at hread
  split at hread
  · split at hread
    · next hselect =>
        split at hread
        · next hselection =>
            split at hread
            · next hfrom =>
                split at hread
                · refine .cons (Lexeme.isUsable_of_isKeyword hselect) ?_
                  refine (takes_of_selection? hselection).trans ?_
                  exact .cons (Lexeme.isUsable_of_isKeyword hfrom) (.cons rfl (takes_of_tail hread))
                · cases hread
            · cases hread
        · cases hread
        · cases hread
    · cases hread
  · cases hread

end TableBrowser.Sql
