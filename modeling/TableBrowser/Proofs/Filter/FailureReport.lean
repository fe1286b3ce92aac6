import TableBrowser.Filter.Compile
import TableBrowser.Proofs.Filter.Positions

/-!
# Marks under a source

A report shows the column of a failure, the source, and marks under the characters of the span.
Spans are counted in bytes, columns and marks in characters, however many bytes these have.  The
span of a failure to compile cuts whole characters out of the source, and exactly these are
marked.  Any other span is reported as well: its end is cut to the end of the source, and where
no characters are cut out then, a caret stands alone.
-/

namespace TableBrowser

namespace Text

/-! ## Columns -/

/-- The number of characters that begin before a byte offset. -/
def charsBefore (source : Text) (offset : Nat) : Nat :=
  (List.range source.length).countP fun n => byteSize (source.take n) < offset

theorem charsBefore_le (source : Text) (offset : Nat) :
    charsBefore source offset ≤ source.length := by
  have hle := List.countP_le_length (p := fun n => decide (byteSize (source.take n) < offset))
    (l := List.range source.length)
  rwa [List.length_range] at hle

theorem charsBefore_cons (c : Char) (rest : Text) {offset : Nat} (hpos : 0 < offset) :
    charsBefore (c :: rest) offset = charsBefore rest (offset - c.utf8Size) + 1 := by
  have hshift (n : Nat) :
      decide (byteSize ((c :: rest).take (n + 1)) < offset) =
        decide (byteSize (rest.take n) < offset - c.utf8Size) := by
    rw [List.take_succ_cons, byteSize_cons, decide_eq_decide]
    omega
  rw [charsBefore, List.length_cons, List.range_succ_eq_map, List.countP_cons_of_pos,
    List.countP_map]
  · simp only [Function.comp_def, Nat.succ_eq_add_one, hshift]
    rfl
  · exact decide_eq_true hpos

theorem charsBefore_zero (source : Text) : charsBefore source 0 = 0 := by
  simp [charsBefore]

theorem columnAt_eq (source : Text) (offset : Nat) :
    columnAt source offset = charsBefore source offset + 1 := by
  induction source generalizing offset with
  | nil => rfl
  | cons c rest ih =>
      rw [columnAt]
      split
      · next hzero => rw [hzero, charsBefore_zero]
      · next hpos => rw [charsBefore_cons c rest (Nat.pos_of_ne_zero hpos), ih, Nat.add_comm]

/-- The characters before a part are those that begin before it. -/
theorem charsBefore_append (before behind : Text) :
    charsBefore (before ++ behind) before.byteSize = before.length := by
  induction before with
  | nil => exact charsBefore_zero behind
  | cons c rest ih =>
      have hpos : 0 < byteSize (c :: rest) := by
        rw [byteSize_cons]
        exact Nat.add_pos_left c.utf8Size_pos _
      rw [List.cons_append, charsBefore_cons c _ hpos, byteSize_cons, Nat.add_sub_cancel_left, ih,
        List.length_cons]

/-! ## Ranges -/

theorem exists_of_dropBytes? {t rest : Text} {n : Nat} (hdrop : dropBytes? t n = some rest) :
    ∃ before, t = before ++ rest ∧ before.byteSize = n := by
  induction t, n using dropBytes?.induct with
  | case1 t =>
      rw [dropBytes?] at hdrop
      cases hdrop
      exact ⟨[], rfl, rfl⟩
  | case2 n => cases hdrop
  | case3 c more n hfits ih =>
      rw [dropBytes?, if_pos hfits] at hdrop
      obtain ⟨before, rfl, hsize⟩ := ih hdrop
      exact ⟨c :: before, rfl, by rw [byteSize_cons]; omega⟩
  | case4 c more n hover =>
      rw [dropBytes?, if_neg hover] at hdrop
      cases hdrop

theorem exists_of_takeBytes? {t part : Text} {n : Nat} (htake : takeBytes? t n = some part) :
    ∃ behind, t = part ++ behind ∧ part.byteSize = n := by
  induction t, n using takeBytes?.induct generalizing part with
  | case1 t =>
      rw [takeBytes?] at htake
      cases htake
      exact ⟨t, rfl, rfl⟩
  | case2 n => cases htake
  | case3 c more n hfits ih =>
      rw [takeBytes?, if_pos hfits] at htake
      obtain ⟨inner, hinner, rfl⟩ := Option.map_eq_some_iff.mp htake
      obtain ⟨behind, rfl, hsize⟩ := ih hinner
      exact ⟨behind, rfl, by rw [byteSize_cons]; omega⟩
  | case4 c more n hover =>
      rw [takeBytes?, if_neg hover] at htake
      cases htake

/-- The span holds this part of the source, with these parts around it. -/
structure Cuts (source : Text) (span : Span) (before part behind : Text) : Prop where
  source_eq : source = before ++ (part ++ behind)
  span_eq : span = ⟨before.byteSize, before.byteSize + part.byteSize⟩

theorem slice?_eq_some_iff {source part : Text} {span : Span} :
    slice? source span = some part ↔ ∃ before behind, Cuts source span before part behind := by
  constructor
  · intro hslice
    rw [slice?] at hslice
    split at hslice
    · next hle =>
        obtain ⟨rest, hdrop, htake⟩ := Option.bind_eq_some_iff.mp hslice
        obtain ⟨before, rfl, hstart⟩ := exists_of_dropBytes? hdrop
        obtain ⟨behind, rfl, hsize⟩ := exists_of_takeBytes? htake
        refine ⟨before, behind, rfl, ?_⟩
        rw [hstart, hsize, Nat.add_sub_cancel' hle]
    · cases hslice
  · rintro ⟨before, behind, rfl, rfl⟩
    exact slice?_append before part behind

/-- A span cuts out a part exactly if its ends are in order and cut no character. -/
theorem exists_cuts_iff {source : Text} {span : Span} :
    (∃ before part behind, Cuts source span before part behind) ↔
      span.start ≤ span.stop ∧ IsBoundary source span.start ∧ IsBoundary source span.stop := by
  constructor
  · rintro ⟨before, part, behind, rfl, rfl⟩
    refine ⟨Nat.le_add_right _ _, ⟨before, part ++ behind, rfl, rfl⟩, ?_⟩
    exact ⟨before ++ part, behind, (List.append_assoc _ _ _).symm, byteSize_append _ _⟩
  · rintro ⟨hle, hstart, hstop⟩
    obtain ⟨part, hslice⟩ :=
      Option.isSome_iff_exists.mp (isSome_slice?_of_isBoundary hstart hstop hle)
    obtain ⟨before, behind, hcuts⟩ := slice?_eq_some_iff.mp hslice
    exact ⟨before, part, behind, hcuts⟩

end Text

open TableBrowser.Text (Cuts IsBoundary charsBefore)

/-- The span with its end cut to the end of a source. -/
def Span.cutTo (span : Span) (source : Text) : Span :=
  ⟨span.start, min span.stop source.byteSize⟩

namespace Filter

namespace Failure

def hintLine (hint : Text) : Text :=
  "   = hint: " ++ hint

/-- The lines of a report of a failure behind some characters, with marks under the source of
which the first is a caret. -/
def reportLines (failure : Failure) (source : Text) (before marks : Nat) : List Text :=
  ["error[" ++ failure.cause.code ++ "]: " ++ failure.message,
    "  --> column " ++ Text.ofNat (before + 1),
    "   |",
    "   | " ++ source,
    "   | " ++ (List.replicate before ' ' ++ '^' :: List.replicate (marks - 1) '~')] ++
    failure.hint?.toList.map hintLine

def endLine (line : Text) : Text :=
  line ++ "\n"

/-- The report consists of these lines. -/
def ReportsAs (failure : Failure) (source : Text) (before marks : Nat) : Prop :=
  failure.report source = (failure.reportLines source before marks).flatMap endLine

theorem flatMap_hintLine (hint? : Option Text) :
    (hint?.toList.map hintLine).flatMap endLine =
      match hint? with
      | some hint => "   = hint: " ++ hint ++ "\n"
      | none => "" := by
  cases hint? with
  | none => rfl
  | some hint => exact List.append_nil (endLine (hintLine hint))

theorem reportsAs_width (failure : Failure) (source : Text) :
    failure.ReportsAs source (charsBefore source failure.span.start) (failure.width source) := by
  -- Two of the texts in a report run over the end of a line.
  have hbar : "   |\n   | ".toList = "   |".toList ++ ("\n".toList ++ "   | ".toList) := by
    decide
  have hline : "\n   | ".toList = "\n".toList ++ "   | ".toList := by decide
  unfold ReportsAs report reportLines
  simp only [marker, Text.columnAt_eq, Nat.add_sub_cancel, hbar, hline, List.flatMap_append,
    List.flatMap_cons, List.flatMap_nil, flatMap_hintLine, endLine, List.append_assoc]
  rfl

theorem width_of_cuts {failure : Failure} {source before part behind : Text}
    (hcuts : Cuts source (failure.span.cutTo source) before part behind) :
    failure.width source = part.length := by
  have hslice := Text.slice?_eq_some_iff.mpr ⟨before, behind, hcuts⟩
  rw [Span.cutTo] at hslice
  rw [width, hslice, Option.getD_some]

theorem width_of_not_cuts {failure : Failure} {source : Text}
    (hnone : ¬ ∃ before part behind, Cuts source (failure.span.cutTo source) before part behind) :
    failure.width source = 0 := by
  have hslice : source.slice? (failure.span.cutTo source) = none := by
    refine Option.eq_none_iff_forall_ne_some.mpr fun part hsome => hnone ?_
    obtain ⟨before, behind, hcuts⟩ := Text.slice?_eq_some_iff.mp hsome
    exact ⟨before, part, behind, hcuts⟩
  rw [Span.cutTo] at hslice
  rw [width, hslice]
  rfl

/-- The caret is a mark, also where there is no character to mark. -/
theorem reportsAs_iff_max {failure : Failure} {source : Text} {before marks : Nat} :
    failure.ReportsAs source before (max marks 1) ↔ failure.ReportsAs source before marks := by
  have hrest : max marks 1 - 1 = marks - 1 := by omega
  unfold ReportsAs reportLines
  simp only [hrest]

theorem charsBefore_of_cuts {failure : Failure} {source before part behind : Text}
    (hcuts : Cuts source (failure.span.cutTo source) before part behind) :
    charsBefore source failure.span.start = before.length := by
  have hspan : failure.span.start = before.byteSize := congrArg Span.start hcuts.span_eq
  rw [hspan, hcuts.source_eq, Text.charsBefore_append]

/-- A range of the source is marked character for character. -/
theorem reportsAs_of_cuts {failure : Failure} {source before part behind : Text}
    (hcuts : Cuts source (failure.span.cutTo source) before part behind) :
    failure.ReportsAs source before.length (max part.length 1) := by
  rw [reportsAs_iff_max, ← charsBefore_of_cuts hcuts, ← width_of_cuts hcuts]
  exact reportsAs_width failure source

/-- Under what is no range of the source, a caret stands alone. -/
theorem reportsAs_caret {failure : Failure} {source : Text}
    (hnone : ¬ ∃ before part behind, Cuts source (failure.span.cutTo source) before part behind) :
    failure.ReportsAs source (charsBefore source failure.span.start) 1 := by
  have hwidth := reportsAs_width failure source
  rwa [width_of_not_cuts hnone, ← reportsAs_iff_max, Nat.zero_max] at hwidth

theorem eq_error_of_map {ε α β : Type} {first : Except ε α} {build : α → β} {error : ε}
    (hmap : first.map build = .error error) : first = .error error := by
  cases first with
  | ok a => cases hmap
  | error failed =>
      cases hmap
      rfl

/-- The span of a failure to compile is a range of the source as it stands. -/
theorem pointsInto_of_compile {dialect : Sql.Dialect} {columns : List Column} {source : Text}
    {failure : Failure}
    (hfails : compile dialect columns source = .error failure ∨
      compileCondition dialect columns source = .error failure) :
    failure.PointsInto source := by
  rcases hfails with hfilter | hcondition
  · exact Failure.pointsInto_of_read (eq_error_of_map hfilter)
  · have hread : Condition.readAt columns ⟨source, 0⟩ = .error failure :=
      eq_error_of_map hcondition
    exact Failure.pointsInto_of_readAt hread (Placed.Within.refl ⟨source, 0⟩)

theorem exists_cuts_of_pointsInto {failure : Failure} {source : Text}
    (hpoints : failure.PointsInto source) :
    ∃ before part behind, Cuts source failure.span before part behind := by
  obtain ⟨part, hslice, -⟩ := hpoints
  obtain ⟨before, behind, hcuts⟩ := Text.slice?_eq_some_iff.mp hslice
  exact ⟨before, part, behind, hcuts⟩

/-- The end of a range of the source is not cut. -/
theorem cutTo_eq_of_cuts {span : Span} {source before part behind : Text}
    (hcuts : Cuts source span before part behind) : span.cutTo source = span := by
  have hle : before.byteSize + part.byteSize ≤ source.byteSize := by
    rw [hcuts.source_eq, Text.byteSize_append, Text.byteSize_append]
    omega
  rw [Span.cutTo, hcuts.span_eq, Nat.min_eq_left hle]

/-- The report of a failure to compile counts the characters before its span and marks those of
its span.  Any other failure is reported at the same count, its marks are those of the span
cut to the source, and a caret alone stands where that is no range of it. -/
theorem report_marks_span (dialect : Sql.Dialect) (columns : List Column) (source : Text) :
    (∀ failure, compile dialect columns source = .error failure ∨
        compileCondition dialect columns source = .error failure →
      ∃ before part behind, Cuts source failure.span before part behind ∧
        failure.ReportsAs source before.length (max part.length 1)) ∧
    ∀ failure : Failure,
      charsBefore source failure.span.start ≤ source.length ∧
      (∀ before part behind, Cuts source (failure.span.cutTo source) before part behind →
        before.length = charsBefore source failure.span.start ∧
        failure.ReportsAs source before.length (max part.length 1)) ∧
      ((failure.span.cutTo source).stop < failure.span.start ∨
          source.byteSize < failure.span.start ∨
          ¬ IsBoundary source failure.span.start ∨
          ¬ IsBoundary source (failure.span.cutTo source).stop →
        failure.ReportsAs source (charsBefore source failure.span.start) 1) := by
  refine ⟨fun failure hfails => ?_, fun failure => ⟨Text.charsBefore_le _ _, ?_, ?_⟩⟩
  · obtain ⟨before, part, behind, hcuts⟩ :=
      exists_cuts_of_pointsInto (pointsInto_of_compile hfails)
    refine ⟨before, part, behind, hcuts, ?_⟩
    exact reportsAs_of_cuts (by rwa [cutTo_eq_of_cuts hcuts])
  · intro before part behind hcuts
    exact ⟨(charsBefore_of_cuts hcuts).symm, reportsAs_of_cuts hcuts⟩
  · intro hout
    refine reportsAs_caret fun hsome => ?_
    obtain ⟨hle, hstart, hstop⟩ := Text.exists_cuts_iff.mp hsome
    have hinside : (failure.span.cutTo source).stop ≤ source.byteSize := Nat.min_le_right _ _
    rcases hout with hreversed | hpast | hcutStart | hcutStop
    · exact Nat.not_lt.mpr hle hreversed
    · exact Nat.not_lt.mpr (hle.trans hinside) hpast
    · exact hcutStart hstart
    · exact hcutStop hstop

theorem report_marks_span_accented :
    compile .sqlite [] "a=é&naïve" =
        .error (.of (.invalidCondition "naïve") ⟨5, 11⟩) ∧
      (∃ before part behind, Cuts "a=é&naïve" ⟨5, 11⟩ before part behind ∧
        (Failure.of (.invalidCondition "naïve") ⟨5, 11⟩).ReportsAs "a=é&naïve" before.length
          (max part.length 1)) ∧
      (Failure.of (.invalidCondition "naïve") ⟨3, 4⟩).ReportsAs "a=é&naïve" 3 1 := by
  have hfails : compile .sqlite [] "a=é&naïve" =
      .error (.of (.invalidCondition "naïve") ⟨5, 11⟩) := by decide +kernel
  have hcut : ¬ IsBoundary "a=é&naïve" 3 := fun hboundary =>
    absurd (Text.isSome_slice?_of_isBoundary hboundary hboundary le_rfl) (by decide)
  exact ⟨hfails, (report_marks_span .sqlite [] "a=é&naïve").1 _ (.inl hfails),
    ((report_marks_span .sqlite [] "a=é&naïve").2 _).2.2 (.inr (.inr (.inl hcut)))⟩

example :
    (Failure.of (.invalidCondition "naïve") ⟨5, 11⟩).reportLines "a=é&naïve" 4 5 =
      ["error[INVALID_SYNTAX]: invalid filter condition 'naïve'",
        "  --> column 5",
        "   |",
        "   | a=é&naïve",
        "   |     ^~~~~",
        "   = hint: use: column=value or column>value"] := by
  decide +kernel

end Failure

end Filter

end TableBrowser
