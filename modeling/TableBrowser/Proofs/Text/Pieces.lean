import TableBrowser.Text.Basic

/-!
# Pieces between separators

Pieces that were joined by a separator come apart again, and text without separators that
is put in front of a text or behind it only lengthens the first piece or the last.
-/

namespace TableBrowser.Text

theorem splitAt_eq_splitOn (separator : Char) (t : Text) :
    splitAt separator t = t.splitOn separator := by
  induction t with
  | nil => rw [List.splitOn_nil, splitAt]
  | cons c rest ih =>
      have hne : List.splitOn separator rest ≠ [] := List.splitOn_ne_nil separator rest
      obtain ⟨piece, pieces, hsplit⟩ := List.exists_cons_of_ne_nil hne
      rw [splitAt, List.splitOn_cons_eq_if_modifyHead, ih, hsplit]
      by_cases hc : c = separator <;> simp [hc]

theorem splitAt_ne_nil (separator : Char) (t : Text) : splitAt separator t ≠ [] := by
  rw [splitAt_eq_splitOn]
  exact List.splitOn_ne_nil separator t

variable {separator : Char}

theorem splitAt_of_not_mem {t : Text} (hfree : separator ∉ t) : splitAt separator t = [t] := by
  rw [splitAt_eq_splitOn, List.splitOn_eq_singleton hfree]

/-- Pieces without separators come apart where they were joined. -/
theorem splitAt_intercalate {pieces : List Text} (hne : pieces ≠ [])
    (hfree : ∀ piece ∈ pieces, separator ∉ piece) :
    splitAt separator (List.intercalate [separator] pieces) = pieces := by
  rw [splitAt_eq_splitOn, List.splitOn_intercalate separator hfree hne]

theorem not_mem_intercalate {c : Char} (hc : c ≠ separator) {pieces : List Text}
    (hpieces : ∀ piece ∈ pieces, c ∉ piece) : c ∉ List.intercalate [separator] pieces := by
  induction pieces with
  | nil => simp [List.intercalate]
  | cons piece rest ih =>
      have hpiece := hpieces piece (by simp)
      have hrest := ih fun other hother => hpieces other (by simp [hother])
      cases rest with
      | nil => simpa using hpiece
      | cons next more =>
          rw [List.intercalate_cons_cons]
          simp [hpiece, hc, hrest]

/-- What stands behind the first of the joined pieces begins with a separator. -/
theorem exists_intercalate_cons (separator : Char) (first : Text) (rest : List Text) :
    ∃ behind, List.intercalate [separator] (first :: rest) = first ++ behind ∧
      ∀ c ∈ behind.head?, c = separator := by
  cases rest with
  | nil => exact ⟨[], by simp, by simp⟩
  | cons next more =>
      refine ⟨separator :: List.intercalate [separator] (next :: more), ?_, by simp⟩
      rw [List.intercalate_cons_cons, List.append_assoc, List.singleton_append]

/-- The first piece stands at the start of the text. -/
theorem isPrefix_of_splitAt {t first : Text} {rest : List Text}
    (hsplit : splitAt separator t = first :: rest) : first <+: t := by
  induction t generalizing first rest with
  | nil =>
      cases hsplit
      exact List.prefix_rfl
  | cons c more ih =>
      rw [splitAt] at hsplit
      split at hsplit
      · cases hsplit
        exact List.nil_prefix
      · split at hsplit
        · cases hsplit
          exact ⟨more, rfl⟩
        · next hmore =>
            cases hsplit
            exact (List.cons_prefix_cons).mpr ⟨rfl, ih hmore⟩

/-- Text in front of another belongs to its first piece. -/
theorem splitAt_append_left {front : Text} (hfree : separator ∉ front) (t : Text) :
    ∃ first rest, splitAt separator t = first :: rest ∧
      splitAt separator (front ++ t) = (front ++ first) :: rest := by
  induction front with
  | nil =>
      obtain ⟨first, rest, hsplit⟩ := List.exists_cons_of_ne_nil (splitAt_ne_nil separator t)
      exact ⟨first, rest, hsplit, hsplit⟩
  | cons c front ih =>
      rw [List.mem_cons, not_or] at hfree
      obtain ⟨first, rest, hsplit, happend⟩ := ih hfree.2
      refine ⟨first, rest, hsplit, ?_⟩
      rw [List.cons_append, splitAt, if_neg (Ne.symm hfree.1), happend]
      rfl

/-- Text behind another belongs to its last piece. -/
theorem splitAt_append_right {behind : Text} (hfree : separator ∉ behind) (t : Text) :
    ∃ init last, splitAt separator t = init ++ [last] ∧
      splitAt separator (t ++ behind) = init ++ [last ++ behind] := by
  induction t with
  | nil => exact ⟨[], [], rfl, by simpa using splitAt_of_not_mem hfree⟩
  | cons c rest ih =>
      obtain ⟨init, last, hsplit, happend⟩ := ih
      by_cases hc : c = separator
      · exact ⟨[] :: init, last, by simp [splitAt, hc, hsplit], by simp [splitAt, hc, happend]⟩
      · cases init with
        | nil =>
            exact ⟨[], c :: last, by simp [splitAt, hc, hsplit], by simp [splitAt, hc, happend]⟩
        | cons piece pieces =>
            exact ⟨(c :: piece) :: pieces, last, by simp [splitAt, hc, hsplit],
              by simp [splitAt, hc, happend]⟩

end TableBrowser.Text
