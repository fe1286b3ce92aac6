import TableBrowser.Proofs.Filter.ConditionText
import TableBrowser.Proofs.Filter.Splitting

/-!
# Filters and their pieces

A filter is read exactly if all of its pieces are: each part of its text that has pieces
becomes a group, with one condition for each piece.  A filter that cannot be read has
nothing in it, or no piece, or a piece that fails.  The pieces stand in the source one
behind the other, with a combinator between each of them and the next.
-/

namespace TableBrowser.Filter

variable {columns : List Column} {source : Text}

/-- The pieces of a source, part by part. -/
def sourcePieces (source : Text) : List (List Placed) :=
  conditionPieces (Placed.mk source 0).strip

theorem ne_nil_of_mem_sourcePieces {part : List Placed} (hpart : part ∈ sourcePieces source) :
    part ≠ [] := by
  simpa using (List.mem_filter.mp hpart).2

theorem conditionPieces_of_nil {placed : Placed} (hempty : placed.text = []) :
    conditionPieces placed = [] := by
  obtain ⟨text, offset⟩ := placed
  obtain rfl : text = [] := hempty
  rfl

theorem exists_left_of_forall₂ {α β : Type} {R : α → β → Prop} {left : List α} {right : List β}
    (hrel : List.Forall₂ R left right) {y : β} (hy : y ∈ right) : ∃ x ∈ left, R x y := by
  induction hrel with
  | nil => cases hy
  | cons hhead _ ih =>
      rcases List.mem_cons.mp hy with rfl | hy
      · exact ⟨_, by simp, hhead⟩
      · obtain ⟨x, hx, hxy⟩ := ih hy
        exact ⟨x, by simp [hx], hxy⟩

theorem readableConditions_of_readFrom {part : List Placed} {conditions : List Condition}
    (hread : ReadFrom columns part conditions) :
    readableConditions columns part = conditions := by
  induction hread with
  | nil => rfl
  | cons hpiece _ ih =>
      rw [readableConditions, List.filterMap_cons, hpiece]
      exact congrArg _ ih

/-- Parts without a failure have conditions for all their pieces. -/
theorem exists_readFrom_of_failure? {parts : List (List Placed)}
    (hnone : parts.flatten.findSome? (Placed.failure? columns) = none) :
    ∃ conditions, List.Forall₂ (ReadFrom columns) parts conditions := by
  refine ⟨parts.map (readableConditions columns), ?_⟩
  rw [List.forall₂_map_right_iff, List.forall₂_same]
  intro part hpart
  refine readFrom_readableConditions fun piece hpiece => ?_
  exact List.findSome?_eq_none_iff.mp hnone piece (List.mem_flatten_of_mem hpart hpiece)

/-! ## Groups -/

/-- The group has the conditions of the pieces of a part. -/
structure Group.IsReadFrom (columns : List Column) (part : List Placed) (group : Group) :
    Prop where
  conditions_read : ReadFrom columns part group.conditions
  group_eq : Group.ofConditions? group.conditions = some group

theorem Group.exists_isReadFrom {part : List Placed} {conditions : List Condition}
    (hsolid : part ≠ []) (hread : ReadFrom columns part conditions) :
    ∃ group : Group, Group.ofConditions? conditions = some group ∧
      group.IsReadFrom columns part := by
  cases conditions with
  | nil => exact absurd (List.forall₂_nil_right_iff.mp hread) hsolid
  | cons first rest => exact ⟨_, rfl, hread, rfl⟩

theorem exists_groups_isReadFrom {parts : List (List Placed)}
    {conditions : List (List Condition)} (hsolid : ∀ part ∈ parts, part ≠ [])
    (hreads : List.Forall₂ (ReadFrom columns) parts conditions) :
    ∃ groups : List Group,
      (parts.filterMap fun part => Group.ofConditions? (readableConditions columns part)) =
        groups ∧
      List.Forall₂ (fun part group => Group.IsReadFrom columns part group) parts groups := by
  induction hreads with
  | nil => exact ⟨[], rfl, .nil⟩
  | @cons part found parts others hpart _ ih =>
      obtain ⟨group, hgroup, hfrom⟩ := Group.exists_isReadFrom (hsolid part (by simp)) hpart
      obtain ⟨groups, hgroups, hrest⟩ := ih fun other hother => hsolid other (by simp [hother])
      refine ⟨group :: groups, ?_, .cons hfrom hrest⟩
      rw [List.filterMap_cons, readableConditions_of_readFrom hpart, hgroup, hgroups]

/-- The conditions of all groups come from all pieces in order. -/
theorem readFrom_flatten {parts : List (List Placed)} {groups : List Group}
    (hgroups : List.Forall₂ (fun part group => Group.IsReadFrom columns part group) parts groups) :
    ReadFrom columns parts.flatten (groups.flatMap (·.conditions)) := by
  induction hgroups with
  | nil => exact .nil
  | cons hpart _ ih =>
      rw [List.flatten_cons, List.flatMap_cons]
      exact List.rel_append hpart.conditions_read ih

/-! ## Predicates -/

namespace Predicate

/-- The predicate has a group for each part, and spans from the first to the last. -/
structure IsReadFrom (columns : List Column) (parts : List (List Placed))
    (predicate : Predicate) : Prop where
  groups_read :
    List.Forall₂ (fun part group => Group.IsReadFrom columns part group) parts predicate.groups
  span_eq : ∃ first rest, predicate.groups = first :: rest ∧
    predicate.span = first.span.cover ((first :: rest).getLastD first).span

/-- A source has nothing in it, or a piece that fails, or no piece, or it is read. -/
theorem read_cases (columns : List Column) (source : Text) :
    (sourcePieces source = [] ∧
        read columns source = .error (.of .emptyInput ⟨0, source.byteSize⟩)) ∨
      (∃ piece ∈ (sourcePieces source).flatten, ∃ failure,
        Condition.readAt columns piece = .error failure ∧
          read columns source = .error failure) ∨
      (sourcePieces source = [] ∧
        read columns source = .error (.of .noConditions (Placed.mk source 0).strip.span)) ∨
      ∃ predicate, read columns source = .ok predicate ∧
        predicate.IsReadFrom columns (sourcePieces source) := by
  have hpieces : conditionPieces (Placed.mk source 0).strip = sourcePieces source := rfl
  rw [read_eq, readBySplitting]
  by_cases hbody : (Placed.mk source 0).strip.text = []
  · refine .inl ⟨?_, by simp only [if_pos hbody]⟩
    rw [← hpieces, conditionPieces_of_nil hbody]
  · refine .inr ?_
    simp only [if_neg hbody, hpieces]
    cases hfailure : (sourcePieces source).flatten.findSome? (Placed.failure? columns) with
    | some failure =>
        obtain ⟨piece, hpiece, hfailed⟩ := List.exists_of_findSome?_eq_some hfailure
        refine .inl ⟨piece, hpiece, failure, ?_, rfl⟩
        rw [Placed.failure?] at hfailed
        split at hfailed
        · next found hfound => rw [hfound, Option.some.inj hfailed]
        · cases hfailed
    | none =>
        obtain ⟨conditions, hreads⟩ := exists_readFrom_of_failure? hfailure
        obtain ⟨groups, hgroups, hfrom⟩ :=
          exists_groups_isReadFrom (fun _ hpart => ne_nil_of_mem_sourcePieces hpart) hreads
        simp only [hgroups]
        cases groups with
        | nil => exact .inr (.inl ⟨List.forall₂_nil_right_iff.mp hfrom, rfl⟩)
        | cons first rest => exact .inr (.inr ⟨_, rfl, ⟨hfrom, first, rest, rfl, rfl⟩⟩)

theorem isReadFrom_of_read {predicate : Predicate} (hread : read columns source = .ok predicate) :
    predicate.IsReadFrom columns (sourcePieces source) := by
  rcases read_cases columns source with
    ⟨-, hempty⟩ | ⟨piece, -, failure, -, hfailed⟩ | ⟨-, hnone⟩ | ⟨found, hfound, hfrom⟩
  · rw [hread] at hempty
    cases hempty
  · rw [hread] at hfailed
    cases hfailed
  · rw [hread] at hnone
    cases hnone
  · rw [hread] at hfound
    cases hfound
    exact hfrom

end Predicate

/-! ## Where pieces stand -/

namespace Placed

/-- A part ends before another begins, with something between them. -/
def Precedes (left right : Placed) : Prop :=
  left.span.stop < right.span.start

theorem Precedes.of_within {left right leftWhole rightWhole : Placed}
    (hprecedes : leftWhole.Precedes rightWhole) (hleft : left.Within leftWhole)
    (hright : right.Within rightWhole) : left.Precedes right := by
  have hstop := hleft.stop_le
  have hstart := hright.start_le
  simp only [Precedes] at hprecedes ⊢
  omega

theorem behind_within (c : Char) (rest : Text) (offset : Nat) :
    (Placed.mk rest (offset + c.utf8Size)).Within ⟨c :: rest, offset⟩ :=
  ⟨[c], [], by simp, rfl⟩

/-- A part at the start of a text stays there when a character is put in front. -/
theorem Within.cons {piece rest : Text} {offset : Nat} (c : Char)
    (hwithin : (Placed.mk piece (offset + c.utf8Size)).Within ⟨rest, offset + c.utf8Size⟩) :
    (Placed.mk (c :: piece) offset).Within ⟨c :: rest, offset⟩ := by
  obtain ⟨before, behind, htext, hoffset⟩ := hwithin
  have hempty : before = [] := by
    cases before with
    | nil => rfl
    | cons d more =>
        have hpos := d.utf8Size_pos
        simp only [Text.byteSize_cons] at hoffset
        omega
  subst hempty
  exact ⟨[], behind, by simpa using htext, rfl⟩

theorem within_of_mem_splitAt {separator : Char} {placed piece : Placed}
    (hpiece : piece ∈ placed.splitAt separator) : piece.Within placed := by
  obtain ⟨t, offset⟩ := placed
  induction t generalizing piece offset with
  | nil =>
      rw [splitAt_nil, List.mem_singleton] at hpiece
      rw [hpiece]
      exact .refl _
  | cons c rest ih =>
      have hrest := behind_within c rest offset
      by_cases hc : c = separator
      · subst hc
        rw [splitAt_separator, List.mem_cons] at hpiece
        rcases hpiece with rfl | hpiece
        · exact ⟨[], c :: rest, by simp, rfl⟩
        · exact (ih _ hpiece).trans hrest
      · obtain ⟨first, pieces, hsplit, hcons⟩ := splitAt_cons_of_ne hc rest offset
        rw [hcons, List.mem_cons] at hpiece
        rcases hpiece with rfl | hpiece
        · exact (ih _ (by rw [hsplit]; simp)).cons c
        · exact (ih _ (by rw [hsplit]; simp [hpiece])).trans hrest

theorem precedes_splitAt (separator : Char) (placed : Placed) :
    (placed.splitAt separator).Pairwise Precedes := by
  obtain ⟨t, offset⟩ := placed
  induction t generalizing offset with
  | nil => simp [splitAt_nil]
  | cons c rest ih =>
      by_cases hc : c = separator
      · subst hc
        rw [splitAt_separator, List.pairwise_cons]
        refine ⟨fun piece hpiece => ?_, ih _⟩
        have hstart := (within_of_mem_splitAt hpiece).start_le
        have hpos := c.utf8Size_pos
        simp only [Precedes, span, Text.byteSize_nil] at hstart ⊢
        omega
      · obtain ⟨first, pieces, hsplit, hcons⟩ := splitAt_cons_of_ne hc rest offset
        have hrest := ih (offset + c.utf8Size)
        rw [hsplit, List.pairwise_cons] at hrest
        rw [hcons, List.pairwise_cons]
        refine ⟨fun piece hpiece => ?_, hrest.2⟩
        have hprecedes := hrest.1 piece hpiece
        simpa only [Precedes, span, Text.byteSize_cons, Nat.add_assoc] using hprecedes

end Placed

theorem within_of_mem_conditionPieces {placed piece : Placed} {part : List Placed}
    (hpart : part ∈ conditionPieces placed) (hpiece : piece ∈ part) : piece.Within placed := by
  obtain ⟨outer, houter, rfl⟩ := List.mem_map.mp (List.mem_filter.mp hpart).1
  have hinner := Placed.within_of_mem_splitAt (List.mem_filter.mp hpiece).1
  exact hinner.trans (Placed.within_of_mem_splitAt houter)

theorem precedes_conditionPieces (placed : Placed) :
    (conditionPieces placed).flatten.Pairwise Placed.Precedes := by
  rw [List.pairwise_flatten]
  constructor
  · intro part hpart
    obtain ⟨outer, -, rfl⟩ := List.mem_map.mp (List.mem_filter.mp hpart).1
    exact (Placed.precedes_splitAt '&' outer).filter _
  · apply List.Pairwise.filter
    rw [List.pairwise_map]
    refine (Placed.precedes_splitAt '|' placed).imp ?_
    intro left right hprecedes piece hpiece other hother
    exact hprecedes.of_within (Placed.within_of_mem_splitAt (List.mem_filter.mp hpiece).1)
      (Placed.within_of_mem_splitAt (List.mem_filter.mp hother).1)

theorem within_source_of_mem_sourcePieces {piece : Placed}
    (hpiece : piece ∈ (sourcePieces source).flatten) : piece.Within ⟨source, 0⟩ := by
  obtain ⟨part, hpart, hmem⟩ := List.mem_flatten.mp hpiece
  exact (within_of_mem_conditionPieces hpart hmem).trans (Placed.strip_within _)

end TableBrowser.Filter
