import TableBrowser.Proofs.Filter.ConditionText
import TableBrowser.Proofs.Filter.Pieces
import TableBrowser.Proofs.Filter.TokenCuts

/-!
# What is left of the pieces

Which pieces a filter has, and what is left of each of them after trimming, depends on its
text only.  White space around the filter does not change it, and neither does a question
mark in front, as long as there are not two of them.
-/

namespace TableBrowser.Filter

open TableBrowser.Text (AllBlank)

/-- What is left of the pieces of a part, the blank ones left out. -/
def barePieces (part : Text) : List Text :=
  ((Text.splitAt '&' part).map bareText).filter (!·.isEmpty)

/-- What is left of the pieces of a text, part by part, without the blank parts. -/
def bareParts (t : Text) : List (List Text) :=
  ((Text.splitAt '|' t).map barePieces).filter (!·.isEmpty)

/-! ## Pieces at their places -/

theorem map_text_placePieces (separator : Char) (offset : Nat) (pieces : List Text) :
    (placePieces separator offset pieces).map (·.text) = pieces := by
  induction pieces generalizing offset with
  | nil => rfl
  | cons piece rest ih => rw [placePieces, List.map_cons, ih]

theorem map_text_splitAt (separator : Char) (placed : Placed) :
    (placed.splitAt separator).map (·.text) = Text.splitAt separator placed.text :=
  map_text_placePieces separator placed.offset _

theorem map_strip_pieces (part : Placed) :
    ((part.splitAt '&').filter (!·.isBlank)).map (·.strip.text) = barePieces part.text := by
  have hstrip : (bareText ∘ fun piece : Placed => piece.text) = (·.strip.text) := by
    funext piece
    exact piece.strip_text.symm
  have hsolid : (fun piece : Placed => !piece.isBlank) =
      (fun t : Text => !t.isEmpty) ∘ fun piece => piece.strip.text := by
    funext piece
    rw [Function.comp_apply, Bool.eq_iff_iff, Bool.not_eq_true', Bool.not_eq_true',
      ← Bool.not_eq_true, ← Bool.not_eq_true, Placed.isBlank_iff, List.isEmpty_iff]
  rw [barePieces, ← map_text_splitAt, List.map_map, hstrip, List.filter_map, hsolid]

theorem map_strip_conditionPieces (placed : Placed) :
    (conditionPieces placed).map (·.map (·.strip.text)) = bareParts placed.text := by
  have hpart : (barePieces ∘ fun part : Placed => part.text) =
      (fun pieces : List Placed => pieces.map (·.strip.text)) ∘
        fun part => (part.splitAt '&').filter (!·.isBlank) := by
    funext part
    exact (map_strip_pieces part).symm
  rw [bareParts, ← map_text_splitAt, List.map_map, hpart, ← List.map_map, List.filter_map,
    conditionPieces]
  congr 2
  funext pieces
  simp

/-! ## White space and question marks -/

/-- The first character that is no white space is no question mark. -/
def IsUnmarked (t : Text) : Prop :=
  t.trimStart.head? ≠ some '?'

instance : DecidablePred IsUnmarked :=
  fun t => inferInstanceAs (Decidable (t.trimStart.head? ≠ some '?'))

/-- Behind a question mark at the start there is not another one. -/
def IsMarkedOnce (t : Text) : Prop :=
  ∀ rest : Text, t.trimStart = '?' :: rest → IsUnmarked rest

variable {space t : Text}

theorem not_isUnmarked_iff : ¬ IsUnmarked t ↔ ∃ rest, t.trimStart = '?' :: rest := by
  rw [IsUnmarked, not_not, List.head?_eq_some_iff]

theorem isUnmarked_blanks_append (hspace : AllBlank space) :
    IsUnmarked (space ++ t) ↔ IsUnmarked t := by
  rw [IsUnmarked, IsUnmarked, Text.trimStart_blanks_append hspace]

theorem isUnmarked_of_isPrefix {first : Text} (hbegins : first <+: t) (ht : IsUnmarked t) :
    IsUnmarked first := by
  obtain ⟨behind, rfl⟩ := hbegins
  intro hmark
  obtain ⟨rest, hrest⟩ := List.head?_eq_some_iff.mp hmark
  apply ht
  rw [Text.trimStart] at hrest ⊢
  rw [List.dropWhile_append, hrest]
  rfl

theorem IsUnmarked.isMarkedOnce (ht : IsUnmarked t) : IsMarkedOnce t := by
  intro rest hmark
  exact absurd (by rw [hmark, List.head?_cons]) ht

theorem isMarkedOnce_iff : IsMarkedOnce t ↔ IsUnmarked t ∨ IsUnmarked t.trimStart.tail := by
  constructor
  · intro honce
    by_cases hunmarked : IsUnmarked t
    · exact .inl hunmarked
    · obtain ⟨rest, hrest⟩ := not_isUnmarked_iff.mp hunmarked
      exact .inr (by rw [hrest]; exact honce rest hrest)
  · rintro (hunmarked | hbehind)
    · exact hunmarked.isMarkedOnce
    · intro rest hrest
      rwa [hrest] at hbehind

instance : DecidablePred IsMarkedOnce :=
  fun _ => decidable_of_iff' _ isMarkedOnce_iff

theorem bareText_of_isUnmarked (ht : IsUnmarked t) : bareText t = t.trim := by
  rw [bareText]
  split
  · next rest hmark => exact absurd (by rw [hmark, List.head?_cons]) ht
  · rfl

theorem bareText_mark (t : Text) : bareText ('?' :: t) = t.trim := rfl

theorem bareText_blanks_append (hspace : AllBlank space) (t : Text) :
    bareText (space ++ t) = bareText t := by
  rw [bareText, Text.trimStart_blanks_append hspace, bareText]

theorem bareText_append_blanks (hspace : AllBlank space) (t : Text) :
    bareText (t ++ space) = bareText t := by
  by_cases ht : IsUnmarked t
  · have happend : IsUnmarked (t ++ space) := by
      intro hmark
      rw [Text.trimStart, List.dropWhile_append] at hmark
      split at hmark
      · rw [← Text.trimStart, Text.trimStart_eq_nil hspace] at hmark
        cases hmark
      · next hne =>
          rw [List.head?_append_of_ne_nil _ (by simpa using hne)] at hmark
          exact ht hmark
    rw [bareText_of_isUnmarked happend, bareText_of_isUnmarked ht, Text.trim_append_blanks hspace]
  · obtain ⟨rest, hrest⟩ := not_isUnmarked_iff.mp ht
    have happend : Text.trimStart (t ++ space) = '?' :: (rest ++ space) := by
      rw [Text.trimStart] at hrest ⊢
      rw [List.dropWhile_append, hrest]
      rfl
    rw [bareText, happend, bareText, hrest]
    exact Text.trim_append_blanks hspace rest

theorem bareText_of_mark {rest : Text} (hmark : t.trimStart = '?' :: rest) :
    bareText t = Text.trim rest := by
  rw [bareText, hmark]
  rfl

theorem bareText_trim (t : Text) : bareText t.trim = bareText t := by
  obtain ⟨space, hspace, happend⟩ := Text.exists_trimEnd_append t.trimStart
  rw [Text.trim, ← bareText_append_blanks hspace, happend,
    ← bareText_blanks_append (Text.allBlank_takeWhile t), Text.takeWhile_append_trimStart]

/-- Where there are not two question marks, taking one off leaves none. -/
theorem bareText_bareText (honce : IsMarkedOnce t) : bareText (bareText t) = bareText t := by
  by_cases hunmarked : IsUnmarked t
  · rw [bareText_of_isUnmarked hunmarked, bareText_trim, bareText_of_isUnmarked hunmarked]
  · obtain ⟨rest, hrest⟩ := not_isUnmarked_iff.mp hunmarked
    rw [bareText_of_mark hrest, bareText_trim, bareText_of_isUnmarked (honce rest hrest)]

/-- A question mark in front stays there when the white space around the text is taken off. -/
theorem head?_trim_of_not_isUnmarked (hmark : ¬ IsUnmarked t) : t.trim.head? = some '?' := by
  obtain ⟨behind, hbehind⟩ := not_isUnmarked_iff.mp hmark
  obtain ⟨space, hspace, happend⟩ := Text.exists_trimEnd_append t.trimStart
  rw [hbehind] at happend
  rw [Text.trim, hbehind]
  cases htrim : Text.trimEnd ('?' :: behind) with
  | nil =>
      rw [htrim, List.nil_append] at happend
      exact absurd (hspace '?' (by simp [happend])) (by decide)
  | cons c more =>
      rw [htrim, List.cons_append, List.cons.injEq] at happend
      rw [List.head?_cons, happend.1]

/-! ## The parts of a trimmed text -/

theorem isPlain_of_allBlank (hspace : AllBlank space) : IsPlain space :=
  isPlain_of_class (by decide) (by decide) hspace

/-- Text in front matters to the first piece only. -/
theorem bareParts_append_left {front : Text} (hplain : IsPlain front)
    (hfirst : ∀ first, first <+: t → bareText (front ++ first) = bareText first) :
    bareParts (front ++ t) = bareParts t := by
  obtain ⟨part, parts, hparts, houter⟩ := Text.splitAt_append_left hplain.or_not_mem t
  obtain ⟨first, rest, hpieces, hinner⟩ := Text.splitAt_append_left hplain.and_not_mem part
  have hbegins := (Text.isPrefix_of_splitAt hpieces).trans (Text.isPrefix_of_splitAt hparts)
  have hpart : barePieces (front ++ part) = barePieces part := by
    rw [barePieces, barePieces, hinner, hpieces, List.map_cons, List.map_cons,
      hfirst first hbegins]
  rw [bareParts, bareParts, houter, hparts, List.map_cons, List.map_cons, hpart]

/-- Text behind matters to the last piece only. -/
theorem bareParts_append_right {behind : Text} (hplain : IsPlain behind)
    (hlast : ∀ last, bareText (last ++ behind) = bareText last) (t : Text) :
    bareParts (t ++ behind) = bareParts t := by
  obtain ⟨parts, part, hparts, houter⟩ := Text.splitAt_append_right hplain.or_not_mem t
  obtain ⟨pieces, last, hpieces, hinner⟩ := Text.splitAt_append_right hplain.and_not_mem part
  have hpart : barePieces (part ++ behind) = barePieces part := by
    rw [barePieces, barePieces, hinner, hpieces, List.map_append, List.map_append,
      List.map_singleton, List.map_singleton, hlast last]
  rw [bareParts, bareParts, houter, hparts, List.map_append, List.map_append,
    List.map_singleton, List.map_singleton, hpart]

theorem bareParts_blanks_append (hspace : AllBlank space) (t : Text) :
    bareParts (space ++ t) = bareParts t :=
  bareParts_append_left (isPlain_of_allBlank hspace) fun first _ =>
    bareText_blanks_append hspace first

theorem bareParts_trimStart (t : Text) : bareParts t.trimStart = bareParts t := by
  rw [← bareParts_blanks_append (Text.allBlank_takeWhile t) t.trimStart,
    Text.takeWhile_append_trimStart]

theorem bareParts_trim (t : Text) : bareParts t.trim = bareParts t := by
  obtain ⟨space, hspace, happend⟩ := Text.exists_trimEnd_append t.trimStart
  rw [← bareParts_trimStart t, ← happend, Text.trim]
  exact (bareParts_append_right (isPlain_of_allBlank hspace)
    (bareText_append_blanks hspace) _).symm

theorem bareParts_mark (ht : IsUnmarked t) : bareParts ('?' :: t) = bareParts t := by
  have hplain : IsPlain ['?'] := by decide
  refine bareParts_append_left hplain fun first hbegins => ?_
  rw [bareText_of_isUnmarked (isUnmarked_of_isPrefix hbegins ht)]
  exact bareText_mark first

/-- It does not matter whether a question mark in front is taken off the whole text or off
the first piece. -/
theorem bareParts_bareText (ht : IsMarkedOnce t) : bareParts (bareText t) = bareParts t := by
  rw [bareText]
  split
  · next rest hmark =>
      rw [bareParts_trim, ← bareParts_mark (ht rest hmark), ← hmark, bareParts_trimStart]
  · exact bareParts_trim t

theorem map_strip_sourcePieces {source : Text} (hsource : IsMarkedOnce source) :
    (sourcePieces source).map (·.map (·.strip.text)) = bareParts source := by
  rw [sourcePieces, map_strip_conditionPieces, Placed.strip_text]
  exact bareParts_bareText hsource

end TableBrowser.Filter
