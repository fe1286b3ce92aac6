import TableBrowser.Proofs.Filter.ConditionGrammar

/-!
# A filter as cuts of its text

The body of a filter is what is left of the source when it is trimmed and one question mark
in front comes off.  This is said here of a text at its place, by what stands before and
behind the body.  Reading a filter by its tokens comes to the same as cutting the body into
pieces, and the pieces that are dropped are those of which the grammar leaves nothing.
-/

namespace TableBrowser.Filter

open TableBrowser.Text (AllBlank IsTrimmed)

/-! ## Trimming a text at its place -/

namespace Placed

/-- What is left of a text, at its place, when the white space at its ends comes off. -/
def TrimsTo (placed core : Placed) : Prop :=
  IsTrimmed core.text ∧ ∃ before behind, AllBlank before ∧ AllBlank behind ∧
    placed.text = before ++ (core.text ++ behind) ∧
      core.offset = placed.offset + before.byteSize

/-- What is left of a text, at its place, when it is trimmed and one question mark in front
comes off, with the white space behind it. -/
inductive StripsTo (placed body : Placed) : Prop
  | unmarked (htrims : placed.TrimsTo body) (hmark : body.text.head? ≠ some '?')
  | marked (before rest : Text) (hbefore : AllBlank before)
      (htext : placed.text = before ++ '?' :: rest)
      (hrest : TrimsTo ⟨rest, placed.offset + (before.byteSize + 1)⟩ body)

variable {placed core body : Placed}

theorem TrimsTo.trim_text (htrims : placed.TrimsTo core) : placed.text.trim = core.text := by
  obtain ⟨htrimmed, before, behind, hbefore, hbehind, htext, -⟩ := htrims
  exact Text.trimsTo_iff.mp ⟨htrimmed, before, behind, hbefore, hbehind, htext⟩

theorem trimStart_eq {before rest : Text} (hbefore : AllBlank before)
    (hrest : Text.StopsRun Text.isBlank rest) (htext : placed.text = before ++ rest) :
    placed.trimStart = ⟨rest, placed.offset + before.byteSize⟩ := by
  rw [trimStart, htext, Text.trimStart_blanks_append hbefore, Text.trimStart_eq_self hrest,
    Text.leadingBlanks_blanks_append hbefore hrest]

theorem TrimsTo.trim_eq (htrims : placed.TrimsTo core) (hcore : core.text ≠ []) :
    placed.trim = core := by
  obtain ⟨htrimmed, before, behind, hbefore, hbehind, htext, hoffset⟩ := htrims
  rw [trim, trimStart_eq hbefore (htrimmed.stopsRun_append hcore behind) htext]
  dsimp only
  rw [Text.trimEnd_append_blanks hbehind, Text.trimEnd_eq_self htrimmed.ends, ← hoffset]

theorem trimsTo_trim (placed : Placed) : placed.TrimsTo placed.trim := by
  obtain ⟨behind, hbehind, happend⟩ := Text.exists_trimEnd_append placed.text.trimStart
  refine ⟨Text.isTrimmed_trim placed.text, placed.text.takeWhile Text.isBlank, behind,
    Text.allBlank_takeWhile _, hbehind, ?_, rfl⟩
  calc
    placed.text = placed.text.takeWhile Text.isBlank ++ placed.text.trimStart :=
      (Text.takeWhile_append_trimStart placed.text).symm
    _ = placed.text.takeWhile Text.isBlank ++ (placed.trim.text ++ behind) :=
      congrArg _ happend.symm

/-! ## The body of a text -/

theorem trimStart_of_mark {before rest : Text} (hbefore : AllBlank before)
    (htext : placed.text = before ++ '?' :: rest) :
    placed.trimStart = ⟨'?' :: rest, placed.offset + before.byteSize⟩ := by
  refine trimStart_eq hbefore ?_ htext
  rintro _ ⟨⟩
  decide

theorem strip_of_mark {before rest : Text} (hbefore : AllBlank before)
    (htext : placed.text = before ++ '?' :: rest) :
    placed.strip = (Placed.mk rest (placed.offset + (before.byteSize + 1))).trim := by
  simp only [strip, trimStart_of_mark hbefore htext, Nat.add_assoc]

theorem strip_of_isUnmarked (hmark : IsUnmarked placed.text) : placed.strip = placed.trim := by
  simp only [strip]
  split
  · next rest offset heq =>
      exact absurd hmark (not_isUnmarked_iff.mpr ⟨rest, congrArg Placed.text heq⟩)
  · rfl

/-- The text that is read is what is left of the text at its place. -/
theorem stripsTo_strip (placed : Placed) : placed.StripsTo placed.strip := by
  by_cases hmark : IsUnmarked placed.text
  · rw [strip_of_isUnmarked hmark]
    refine .unmarked (trimsTo_trim placed) fun hhead => hmark ?_
    -- A character that is left in front has been there before.
    obtain ⟨behind, -, happend⟩ := Text.exists_trimEnd_append placed.text.trimStart
    have htrim : placed.text.trimStart.trimEnd.head? = some '?' := hhead
    rw [← happend, List.head?_append, htrim, Option.some_or]
  · obtain ⟨rest, hrest⟩ := not_isUnmarked_iff.mp hmark
    have htext : placed.text = placed.text.takeWhile Text.isBlank ++ '?' :: rest := by
      rw [← hrest, Text.takeWhile_append_trimStart]
    rw [strip_of_mark (Text.allBlank_takeWhile _) htext]
    exact .marked _ rest (Text.allBlank_takeWhile _) htext (trimsTo_trim _)

/-- What is left has no characters exactly if the reader leaves none. -/
theorem StripsTo.text_eq_nil_iff (hstrips : placed.StripsTo body) :
    body.text = [] ↔ placed.strip.text = [] := by
  cases hstrips with
  | unmarked htrims hmark =>
      rw [strip_text, stripsTo_iff.mp (.unmarked (Text.trimsTo_iff.mpr htrims.trim_text) hmark)]
  | marked before rest hbefore htext hrest =>
      rw [strip_of_mark hbefore htext, ← hrest.trim_text]
      rfl

/-- Where something is left, it is what the reader leaves, at the same place. -/
theorem StripsTo.strip_eq (hstrips : placed.StripsTo body) (hbody : body.text ≠ []) :
    placed.strip = body := by
  cases hstrips with
  | marked before rest hbefore htext hrest =>
      rw [strip_of_mark hbefore htext, hrest.trim_eq hbody]
  | unmarked htrims hmark =>
      rw [strip_of_isUnmarked, htrims.trim_eq hbody]
      obtain ⟨htrimmed, before, behind, hbefore, -, htext, -⟩ := htrims
      rw [htext, isUnmarked_blanks_append hbefore, IsUnmarked,
        Text.trimStart_eq_self (htrimmed.stopsRun_append hbody behind),
        List.head?_append_of_ne_nil _ hbody]
      exact hmark

/-- The pieces that are dropped are those of which the grammar leaves nothing. -/
theorem isBlank_iff_stripsTo (piece : Placed) :
    piece.isBlank = true ↔ Filter.StripsTo piece.text [] := by
  rw [isBlank_iff, strip_text, stripsTo_iff]

end Placed

/-! ## Reading by cuts -/

variable {columns : List Column} {source : Text}

theorem Group.IsReadFrom.part_ne_nil {part : List Placed} {group : Group}
    (hgroup : group.IsReadFrom columns part) : part ≠ [] := by
  rintro rfl
  have hconditions := List.forall₂_nil_left_iff.mp hgroup.conditions_read
  have heq := hgroup.group_eq
  rw [hconditions] at heq
  cases heq

/-- A predicate that is read has a group for each part that has pieces, and the conditions of
the group are read from these. -/
theorem groups_readFrom {predicate : Predicate}
    (hread : Predicate.read columns source = .ok predicate) :
    predicate.groups ≠ [] ∧
      List.Forall₂ (fun part group => part ≠ [] ∧ ReadFrom columns part group.conditions)
        (sourcePieces source) predicate.groups := by
  have hfrom := Predicate.isReadFrom_of_read hread
  obtain ⟨first, rest, hgroups, -⟩ := hfrom.span_eq
  refine ⟨by simp [hgroups], ?_⟩
  exact hfrom.groups_read.imp fun _ _ hgroup => ⟨hgroup.part_ne_nil, hgroup.conditions_read⟩

/-- A source has a body, and reading it by its tokens comes to the same as cutting the body
into pieces.  A predicate that is read has groups, one for each part of the body that has
pieces, and the conditions of a group are read from the pieces of its part. -/
theorem read_eq_readBySplitting (columns : List Column) (source : Text) :
    (∃ body, (Placed.mk source 0).StripsTo body) ∧
      ∀ body, (Placed.mk source 0).StripsTo body →
        Predicate.read columns source = Predicate.readBySplitting columns source body ∧
          ∀ predicate, Predicate.read columns source = .ok predicate →
            predicate.groups ≠ [] ∧
              List.Forall₂
                (fun part group => part ≠ [] ∧ ReadFrom columns part group.conditions)
                (conditionPieces body) predicate.groups := by
  refine ⟨⟨_, Placed.stripsTo_strip _⟩, fun body hstrips => ?_⟩
  by_cases hbody : body.text = []
  · -- The place of a body without characters is not looked at.
    have hempty : Predicate.read columns source =
        .error (.of .emptyInput ⟨0, source.byteSize⟩) := by
      rw [Predicate.read, if_pos (hstrips.text_eq_nil_iff.mp hbody)]
    rw [hempty, Predicate.readBySplitting, if_pos hbody]
    refine ⟨rfl, fun predicate hread => ?_⟩
    cases hread
  · rw [← hstrips.strip_eq hbody]
    exact ⟨Predicate.read_eq columns source, fun _ => groups_readFrom⟩

/-- A part of blank pieces is dropped, and a question mark in front of a piece comes off. -/
example : (Predicate.read [] " ?a=1 & ?b=2 | & ? |c=3").toOption.map
    (fun predicate => predicate.groups.map fun group => group.conditions.length) =
      some [2, 1] := by
  decide +kernel

end TableBrowser.Filter
