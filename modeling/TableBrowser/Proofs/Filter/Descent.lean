import TableBrowser.Filter.Expression
import TableBrowser.Proofs.Filter.TokenCuts

/-!
# Reading by descent

A filter is read by descent from the predicate to groups and conditions, with one token looked
at ahead.  This comes to the same as going through the list of all tokens once, with the groups
that are complete and the conditions of the group at hand.  No two texts stand side by side, so
behind a condition there is a combinator or the end.
-/

namespace TableBrowser.Filter

/-! ## Reading a list of tokens -/

/-- What has been read of a filter: the complete groups and the conditions of the
group at hand, both in source order. -/
structure Progress where
  groups : List Group
  current : List Condition

namespace Progress

def start : Progress := ⟨[], []⟩

/-- Ends the group at hand; it is dropped if it has no conditions. -/
def closeGroup (progress : Progress) : Progress :=
  ⟨progress.groups ++ (Group.ofConditions? progress.current).toList, []⟩

def addCondition (progress : Progress) (condition : Condition) : Progress :=
  { progress with current := progress.current ++ [condition] }

end Progress

/-- Reads tokens whose spans are relative to a byte offset, one after another. -/
def readTokens (columns : List Column) (base : Nat) :
    List (Located Token) → Progress → Except Failure (List Group)
  | [], progress => .ok progress.closeGroup.groups
  | ⟨.or, _⟩ :: rest, progress => readTokens columns base rest progress.closeGroup
  | ⟨.and, _⟩ :: rest, progress => readTokens columns base rest progress
  | ⟨.text content, span⟩ :: rest, progress =>
    let placed : Placed := ⟨content, base + span.start⟩
    if placed.strip.text = [] then readTokens columns base rest progress
    else
      match Condition.readAt columns placed with
      | .ok condition => readTokens columns base rest (progress.addCondition condition)
      | .error failure => .error failure

/-! ## Descent -/

/-- No two texts stand side by side. -/
abbrev TextsApart (tokens : List (Located Token)) : Prop :=
  tokens.IsChain fun left right => ¬ (left.value.isText ∧ right.value.isText)

section Descent

variable {columns : List Column} {base fuel : Nat} {lexer behind : Lexer}
variable {coming rest : List (Located Token)} {conditions found : List Condition}

/-- A condition is read from the first of the tokens to come, if this is a text. -/
theorem readCondition_of_text {content : Text} {span : Span}
    (hawaits : lexer.Awaits (⟨.text content, span⟩ :: coming)) :
    ∃ after, after.Awaits coming ∧
      readCondition columns base lexer =
        if (Placed.mk content (base + span.start)).strip.text = [] then .ok (none, after)
        else (Condition.readAt columns ⟨content, base + span.start⟩).map
          fun condition => (some condition, after) := by
  obtain ⟨hshows, hshown⟩ := hawaits.peek
  refine ⟨lexer.peek.2.next.2, hshown.next.2, ?_⟩
  unfold readCondition
  generalize lexer.peek = answer at hshows
  obtain ⟨token?, shown⟩ := answer
  cases hshows
  rfl

theorem readCondition_of_not_text (hawaits : lexer.Awaits coming)
    (hfirst : ∀ first ∈ coming.head?, first.value.isText = false) :
    ∃ after, after.Awaits coming ∧ readCondition columns base lexer = .ok (none, after) := by
  obtain ⟨hshows, hshown⟩ := hawaits.peek
  refine ⟨lexer.peek.2, hshown, ?_⟩
  rw [← hshows] at hfirst
  unfold readCondition
  generalize lexer.peek = answer at hfirst
  obtain ⟨token?, shown⟩ := answer
  match token? with
  | none | some ⟨.and, _⟩ | some ⟨.or, _⟩ => rfl
  | some ⟨.text content, span⟩ => cases hfirst _ rfl

/-- A group is read as it is read in the list of the tokens to come.  It ends before a `|` or
at the end. -/
def GroupReads (columns : List Column) (base : Nat) (coming : List (Located Token))
    (conditions : List Condition) : Except Failure (List Condition × Lexer) → Prop
  | .error failure => ∀ groups,
    readTokens columns base coming ⟨groups, conditions⟩ = .error failure
  | .ok (found, after) => ∃ later, after.Awaits later ∧ TextsApart later ∧
    later.length ≤ coming.length ∧ (∀ first ∈ later.head?, first.value = .or) ∧
    ∀ groups, readTokens columns base coming ⟨groups, conditions⟩ =
      readTokens columns base later ⟨groups, found⟩

theorem GroupReads.of_eq {result : Except Failure (List Condition × Lexer)}
    (hreads : GroupReads columns base rest found result)
    (heq : ∀ groups, readTokens columns base coming ⟨groups, conditions⟩ =
      readTokens columns base rest ⟨groups, found⟩)
    (hlength : rest.length ≤ coming.length) :
    GroupReads columns base coming conditions result := by
  cases result with
  | error failure => exact fun groups => (heq groups).trans (hreads groups)
  | ok read =>
      obtain ⟨later, hawaits, hapart, hle, hends, hrest⟩ := hreads
      exact ⟨later, hawaits, hapart, hle.trans hlength, hends,
        fun groups => (heq groups).trans (hrest groups)⟩

/-- Behind a condition the group goes on if an `&` is shown. -/
theorem readGroup_succ {condition? : Option Condition}
    (hread : readCondition columns base lexer = .ok (condition?, behind)) :
    readGroup columns base (fuel + 1) lexer conditions =
      match behind.peek with
      | (some ⟨.and, _⟩, shown) =>
        readGroup columns base fuel shown.next.2 (conditions ++ condition?.toList)
      | (_, shown) => .ok (conditions ++ condition?.toList, shown) := by
  rw [readGroup, hread]
  rfl

/-- A group whose further conditions are read as they should be is so read itself. -/
theorem groupReads_behind
    (hfurther : ∀ {coming lexer conditions}, coming.length < fuel → lexer.Awaits coming →
      TextsApart coming →
      GroupReads columns base coming conditions (readGroup columns base fuel lexer conditions))
    (hlength : rest.length ≤ fuel) (hawaits : behind.Awaits rest) (hapart : TextsApart rest)
    (hfirst : ∀ first ∈ rest.head?, first.value.isText = false)
    {condition? : Option Condition}
    (hread : readCondition columns base lexer = .ok (condition?, behind)) :
    GroupReads columns base rest (conditions ++ condition?.toList)
      (readGroup columns base (fuel + 1) lexer conditions) := by
  rw [readGroup_succ hread]
  obtain ⟨hshows, hshown⟩ := hawaits.peek
  generalize behind.peek = answer at hshows hshown
  obtain ⟨token?, shown⟩ := answer
  dsimp only at hshows hshown
  subst hshows
  match rest with
  | [] => exact ⟨[], hshown, .nil, Nat.le_refl _, nofun, fun _ => rfl⟩
  | ⟨.or, span⟩ :: more =>
      refine ⟨_, hshown, hapart, Nat.le_refl _, fun first hfirst => ?_, fun _ => rfl⟩
      cases hfirst
      rfl
  | ⟨.and, span⟩ :: more =>
      exact (hfurther hlength hshown.next.2 hapart.tail).of_eq (fun _ => rfl) (Nat.le_succ _)
  | ⟨.text content, span⟩ :: more => cases hfirst _ rfl

/-- A group is read by descent as in the list of the tokens to come. -/
theorem groupReads_readGroup (hlength : coming.length < fuel) (hawaits : lexer.Awaits coming)
    (hapart : TextsApart coming) :
    GroupReads columns base coming conditions (readGroup columns base fuel lexer conditions) := by
  induction fuel generalizing coming lexer conditions with
  | zero => exact absurd hlength (Nat.not_lt_zero _)
  | succ fuel ih =>
      have hnone (hfirst : ∀ first ∈ coming.head?, first.value.isText = false) :
          GroupReads columns base coming conditions
            (readGroup columns base (fuel + 1) lexer conditions) := by
        obtain ⟨after, hafter, hread⟩ := readCondition_of_not_text hawaits hfirst
        have hreads : GroupReads columns base coming (conditions ++ []) _ :=
          groupReads_behind ih (Nat.le_of_lt_succ hlength) hafter hapart hfirst hread
        rwa [List.append_nil] at hreads
      match coming with
      | [] => exact hnone nofun
      | ⟨.and, span⟩ :: rest | ⟨.or, span⟩ :: rest =>
          exact hnone fun first hfirst => by cases hfirst; rfl
      | ⟨.text content, span⟩ :: rest =>
          have hle : rest.length ≤ fuel := Nat.le_of_lt (Nat.lt_of_succ_lt_succ hlength)
          have hfirst : ∀ first ∈ rest.head?, first.value.isText = false := fun first hfirst =>
            Bool.eq_false_iff.mpr fun htext => hapart.rel_head? hfirst ⟨rfl, htext⟩
          obtain ⟨after, hafter, hread⟩ := readCondition_of_text hawaits
          split at hread
          · next hblank =>
              refine (groupReads_behind ih hle hafter hapart.tail hfirst hread).of_eq
                (fun groups => ?_) (Nat.le_succ _)
              rw [readTokens, if_pos hblank, Option.toList_none, List.append_nil]
          · next hcontent =>
              cases hcondition : Condition.readAt columns ⟨content, base + span.start⟩ with
              | error failure =>
                  rw [hcondition] at hread
                  rw [readGroup, hread]
                  intro groups
                  rw [readTokens, if_neg hcontent, hcondition]
              | ok condition =>
                  rw [hcondition] at hread
                  refine (groupReads_behind ih hle hafter hapart.tail hfirst hread).of_eq
                    (fun groups => ?_) (Nat.le_succ _)
                  rw [readTokens, if_neg hcontent, hcondition]
                  rfl

/-- Groups are read by descent as in the list of the tokens to come. -/
theorem readGroups_eq (hlength : coming.length < fuel) (hawaits : lexer.Awaits coming)
    (hapart : TextsApart coming) (groups : List Group) :
    readGroups columns base fuel lexer groups = readTokens columns base coming ⟨groups, []⟩ := by
  induction fuel generalizing coming lexer groups with
  | zero => exact absurd hlength (Nat.not_lt_zero _)
  | succ fuel ih =>
      have hgroup : GroupReads columns base coming []
          (readGroup columns base (fuel + 1) lexer []) :=
        groupReads_readGroup hlength hawaits hapart
      rw [readGroups]
      cases hread : readGroup columns base (fuel + 1) lexer [] with
      | error failure =>
          rw [hread] at hgroup
          exact (hgroup groups).symm
      | ok read =>
          obtain ⟨conditions, behind⟩ := read
          rw [hread] at hgroup
          obtain ⟨later, hlater, hrest, hle, hends, heq⟩ := hgroup
          obtain ⟨hanswer, hbehind⟩ := hlater.next
          rw [heq]
          simp only [bind, Except.bind]
          generalize behind.next = answer at hanswer hbehind
          obtain ⟨token?, after⟩ := answer
          dsimp only at hanswer hbehind
          subst hanswer
          match later with
          | [] => rfl
          | ⟨.or, span⟩ :: more =>
              exact ih (Nat.lt_of_lt_of_le (Nat.lt_succ_self _)
                (hle.trans (Nat.le_of_lt_succ hlength))) hbehind hrest.tail _
          | ⟨.and, span⟩ :: more | ⟨.text content, span⟩ :: more => cases hends _ rfl

end Descent

/-- No text has more tokens than characters. -/
theorem length_tokensFrom_le (offset : Nat) (t : Text) :
    (tokensFrom offset t).length ≤ t.length := by
  induction t generalizing offset with
  | nil => exact Nat.le_refl _
  | cons c rest ih =>
      have hle := ih (offset + c.utf8Size)
      rw [tokensFrom]
      split
      · exact Nat.succ_le_succ hle
      · split
        · exact Nat.succ_le_succ hle
        · split
          · next hmore =>
              rw [hmore] at hle
              exact Nat.le_succ_of_le hle
          · exact Nat.succ_le_succ hle

/-- A filter that is read by descent is read from the list of its tokens. -/
theorem Predicate.readAt_eq (columns : List Column) (placed : Placed) :
    readAt columns placed =
      match readTokens columns placed.offset (tokens placed.text) .start with
      | .error failure => .error failure
      | .ok [] => .error (.of .noConditions placed.span)
      | .ok (first :: rest) =>
        .ok ⟨first :: rest, first.span.cover ((first :: rest).getLastD first).span⟩ := by
  have hlength := Nat.lt_succ_of_le (length_tokensFrom_le 0 placed.text)
  rw [readAt, readGroups_eq hlength (Lexer.awaits_ofText placed.text)
    (cutInto_tokensFrom 0 placed.text).isChain]
  rfl

end TableBrowser.Filter
