import Mathlib.Data.List.TakeWhile
import TableBrowser.Proofs.Text.Readback
import TableBrowser.Text.Basic

/-!
# Trimming

Trimming takes the white space at the ends of a text away and nothing else: what is
left begins and ends with other characters, and white space put around such a text
comes off again.
-/

namespace TableBrowser.Text

/-- No characters but white space. -/
def AllBlank (t : Text) : Prop :=
  ∀ c ∈ t, isBlank c = true

instance : DecidablePred AllBlank :=
  fun _ => decidable_of_iff _ List.all_eq_true

/-- Neither the first nor the last character is white space. -/
structure IsTrimmed (t : Text) : Prop where
  starts : StopsRun isBlank t
  ends : StopsRun isBlank t.reverse

theorem allBlank_nil : AllBlank [] := by
  simp [AllBlank]

theorem AllBlank.reverse {t : Text} (hblank : AllBlank t) : AllBlank t.reverse :=
  fun c hc => hblank c (List.mem_reverse.mp hc)

theorem allBlank_takeWhile (t : Text) : AllBlank (t.takeWhile isBlank) :=
  List.all_eq_true.mp List.all_takeWhile

theorem stopsRun_dropWhile (class? : Char → Bool) (t : Text) :
    StopsRun class? (t.dropWhile class?) := by
  intro c hc
  have hhead := List.head?_dropWhile_not class? t
  rw [Option.mem_def.mp hc] at hhead
  simpa using hhead

/-! ## Characters that are no white space -/

theorem filter_solid_eq_nil_iff {t : Text} : t.filter (!isBlank ·) = [] ↔ AllBlank t := by
  simp [AllBlank]

theorem filter_solid_trimStart (t : Text) :
    (trimStart t).filter (!isBlank ·) = t.filter (!isBlank ·) := by
  have hfront : (t.takeWhile isBlank).filter (!isBlank ·) = [] :=
    filter_solid_eq_nil_iff.mpr (allBlank_takeWhile t)
  have happend := congrArg (List.filter (!isBlank ·)) (takeWhile_append_trimStart t)
  rwa [List.filter_append, hfront, List.nil_append] at happend

/-! ## White space in front -/

variable {space t : Text}

theorem trimStart_blanks_append (hspace : AllBlank space) (t : Text) :
    trimStart (space ++ t) = trimStart t :=
  List.dropWhile_append_of_pos hspace

theorem trimStart_eq_nil (hblank : AllBlank t) : trimStart t = [] :=
  List.dropWhile_eq_nil_iff.mpr hblank

theorem trimStart_eq_self (hstart : StopsRun isBlank t) : trimStart t = t :=
  dropWhile_append_of_stopsRun allBlank_nil hstart

theorem leadingBlanks_blanks_append (hspace : AllBlank space) (hstart : StopsRun isBlank t) :
    leadingBlanks (space ++ t) = space.byteSize := by
  rw [leadingBlanks, takeWhile_append_of_stopsRun hspace hstart]

theorem leadingBlanks_eq_zero (hstart : StopsRun isBlank t) : leadingBlanks t = 0 :=
  leadingBlanks_blanks_append allBlank_nil hstart

/-! ## White space behind -/

theorem trimEnd_append_blanks (hspace : AllBlank space) (t : Text) :
    trimEnd (t ++ space) = trimEnd t := by
  rw [trimEnd, List.reverse_append, List.dropWhile_append_of_pos hspace.reverse]
  rfl

theorem trimEnd_eq_self (hend : StopsRun isBlank t.reverse) : trimEnd t = t := by
  rw [trimEnd, ← trimStart, trimStart_eq_self hend, List.reverse_reverse]

theorem trimEnd_eq_nil_iff {t : Text} : trimEnd t = [] ↔ AllBlank t := by
  simp [trimEnd, List.dropWhile_eq_nil_iff, AllBlank]

/-- What comes off at the end is white space. -/
theorem exists_trimEnd_append (t : Text) : ∃ space, AllBlank space ∧ trimEnd t ++ space = t := by
  refine ⟨(t.reverse.takeWhile isBlank).reverse, (allBlank_takeWhile _).reverse, ?_⟩
  rw [trimEnd, ← List.reverse_append, List.takeWhile_append_dropWhile, List.reverse_reverse]

theorem stopsRun_trimEnd_reverse (t : Text) : StopsRun isBlank (trimEnd t).reverse := by
  rw [trimEnd, List.reverse_reverse]
  exact stopsRun_dropWhile isBlank t.reverse

/-! ## Both ends -/

/-- A text that begins with another character still does when its end is trimmed. -/
theorem stopsRun_trimEnd (hstart : StopsRun isBlank t) : StopsRun isBlank (trimEnd t) := by
  obtain ⟨space, -, happend⟩ := exists_trimEnd_append t
  cases hrest : trimEnd t with
  | nil => simp [StopsRun]
  | cons c rest =>
      rw [hrest] at happend
      intro d hd
      exact hstart d (by rw [← happend]; exact hd)

theorem isTrimmed_trimEnd (hstart : StopsRun isBlank t) : IsTrimmed (trimEnd t) :=
  ⟨stopsRun_trimEnd hstart, stopsRun_trimEnd_reverse t⟩

theorem isTrimmed_trim (t : Text) : IsTrimmed (trim t) :=
  isTrimmed_trimEnd (stopsRun_dropWhile isBlank t)

/-- White space behind a text does not hide where it begins. -/
theorem IsTrimmed.stopsRun_append (htrimmed : IsTrimmed t) (ht : t ≠ []) (behind : Text) :
    StopsRun isBlank (t ++ behind) := by
  obtain ⟨c, rest, rfl⟩ := List.exists_cons_of_ne_nil ht
  exact htrimmed.starts

theorem trim_eq_self_iff : trim t = t ↔ IsTrimmed t := by
  constructor
  · intro htrim
    rw [← htrim]
    exact isTrimmed_trim t
  · rintro ⟨hstart, hend⟩
    rw [trim, trimStart_eq_self hstart, trimEnd_eq_self hend]

theorem trim_blanks_append (hspace : AllBlank space) (t : Text) :
    trim (space ++ t) = trim t := by
  rw [trim, trimStart_blanks_append hspace, trim]

theorem trim_eq_nil_iff {t : Text} : trim t = [] ↔ AllBlank t := by
  rw [trim, trimEnd_eq_nil_iff, ← filter_solid_eq_nil_iff, filter_solid_trimStart,
    filter_solid_eq_nil_iff]

/-- White space behind a text is trimmed also where nothing else is left. -/
theorem trim_append_blanks (hspace : AllBlank space) (t : Text) :
    trim (t ++ space) = trim t := by
  rw [trim, trimStart, List.dropWhile_append]
  split
  · next hempty =>
      have hnil : trimStart t = [] := List.isEmpty_iff.mp hempty
      rw [← trimStart, trimStart_eq_nil hspace, trim, hnil]
  · rw [← trimStart, trimEnd_append_blanks hspace, trim]

end TableBrowser.Text
