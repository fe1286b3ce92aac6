import TableBrowser.Proofs.Filter.BareParts

/-!
# Filters in every layout

A filter can be laid out with white space around all of its parts, with a question mark
before each condition, and with blank conditions and blank groups anywhere.  Whatever the
layout, it is read as the groups of conditions that were laid out, unless the equals sign
of a value stands right behind `>` or `<` and so belongs to the operator.
-/

namespace TableBrowser.Filter

open TableBrowser.Text (AllBlank IsTrimmed IsWord)

/-- What a condition says: a column, an operator and what its value stands for. -/
structure Meaning where
  column : Text
  op : Operator
  operand : Operand
  deriving DecidableEq

def Condition.meaning (condition : Condition) : Meaning :=
  ⟨condition.column.value, condition.op.value, condition.operand.value⟩

/-- The groups of a predicate as lists of what their conditions say. -/
def Predicate.meanings (predicate : Predicate) : List (List Meaning) :=
  predicate.groups.map fun group => group.conditions.map (·.meaning)

/-! ## Conditions to lay out -/

/-- A condition as it is typed, before it is laid out. -/
structure TypedCondition where
  column : Text
  op : Operator
  value : Text
  column_word : IsWord column
  value_ne_nil : value ≠ []
  value_trimmed : value.trim = value
  value_plain : IsPlain value
  date_compared : op.isPattern = true → RelativeDate.ofToken? value = none

/-- What the value stands for: date tokens are dates, what a pattern test looks for is text,
and other values go by the type of the column. -/
def TypedCondition.operand (columns : List Column) (condition : TypedCondition) : Operand :=
  match RelativeDate.ofToken? condition.value with
  | some date => .date date
  | none =>
    if condition.op.isPattern then .text condition.value
    else .classify (Column.typeOf? columns condition.column) condition.value

def TypedCondition.meaning (columns : List Column) (condition : TypedCondition) : Meaning :=
  ⟨condition.column, condition.op, condition.operand columns⟩

theorem TypedCondition.operandOf?_eq (columns : List Column) (condition : TypedCondition) :
    operandOf? columns condition.column condition.op condition.value =
      some (condition.operand columns) := by
  rw [operandOf?, operand]
  cases hdate : RelativeDate.ofToken? condition.value with
  | none => cases condition.op.isPattern <;> rfl
  | some date =>
      have hcompared : condition.op.isPattern = false := by
        rw [Bool.eq_false_iff]
        intro hpattern
        rw [condition.date_compared hpattern] at hdate
        cases hdate
      simp [hcompared]

/-- Any white space, possibly none. -/
structure Blanks where
  chars : Text
  blank : AllBlank chars

def Blanks.tight : Blanks :=
  ⟨[], Text.allBlank_nil⟩

/-- A condition with white space around its operator. -/
structure SpacedCondition where
  condition : TypedCondition
  gap : Blanks
  space : Blanks

namespace SpacedCondition

def written (spaced : SpacedCondition) : ConditionText :=
  ⟨spaced.condition.column, spaced.gap.chars, spaced.condition.op, spaced.space.chars,
    spaced.condition.value⟩

/-- The value begins with an equals sign right behind `>` or `<`. -/
def TouchesEquals (spaced : SpacedCondition) : Prop :=
  (spaced.condition.op = .greater ∨ spaced.condition.op = .less) ∧ spaced.space.chars = [] ∧
    spaced.condition.value.head? = some '='

instance (spaced : SpacedCondition) : Decidable spaced.TouchesEquals :=
  inferInstanceAs (Decidable (_ ∧ _))

theorem isSpaced_written (spaced : SpacedCondition) : spaced.written.IsSpaced :=
  { column_word := spaced.condition.column_word
    gap_blank := spaced.gap.blank
    space_blank := spaced.space.blank
    value_ne_nil := spaced.condition.value_ne_nil
    value_trimmed := Text.trim_eq_self_iff.mp spaced.condition.value_trimmed }

theorem endsBefore_iff (spaced : SpacedCondition) :
    spaced.condition.op.EndsBefore (spaced.space.chars ++ spaced.condition.value) ↔
      ¬ spaced.TouchesEquals := by
  rw [Operator.EndsBefore, TouchesEquals, not_and]
  refine imp_congr_right fun _ => ?_
  cases hspace : spaced.space.chars with
  | nil => simp
  | cons c rest =>
      have hc : Text.isBlank c = true := spaced.space.blank c (by simp [hspace])
      have hne : c ≠ '=' := by
        rintro rfl
        revert hc
        decide
      simp [hne]

/-- A condition is read as what it says exactly if its operator ends where it was typed to
end. -/
theorem meaning_eq_iff {columns : List Column} {piece : Placed} {condition : Condition}
    {spaced : SpacedCondition} (hread : Condition.readAt columns piece = .ok condition)
    (htext : piece.strip.text = spaced.written.text) :
    condition.meaning = spaced.condition.meaning columns ↔ ¬ spaced.TouchesEquals := by
  rw [← endsBefore_iff]
  constructor
  · intro hmeaning
    obtain ⟨found, operand, hproper, hfound, -, rfl⟩ := Condition.readAt_eq_ok_iff.mp hread
    have hop : found.op = spaced.condition.op := congrArg Meaning.op hmeaning
    have hbehind := hproper.op_text_eq spaced.isSpaced_written (hfound.symm.trans htext)
    have hleading := (Operator.leading?_append _ _).mpr hproper.op_ends
    -- Both ways to cut the text begin with the same characters, and those decide the operator.
    by_contra hlonger
    obtain ⟨longer, rest, hagain, hne⟩ := Operator.leading?_of_not_endsBefore hlonger
    rw [hbehind] at hleading
    have hsame := Option.some.inj (hleading.symm.trans hagain)
    exact hne ((congrArg Prod.fst hsame).symm.trans hop)
  · intro hends
    have hproper : spaced.written.IsProper := { spaced.isSpaced_written with op_ends := hends }
    have hspec := Condition.readAt_eq_ok_iff.mpr ⟨spaced.written, spaced.condition.operand columns,
      hproper, htext, spaced.condition.operandOf?_eq columns, rfl⟩
    rw [Except.ok.inj (hread.symm.trans hspec)]
    rfl

theorem readAt_isOk {columns : List Column} {piece : Placed} {spaced : SpacedCondition}
    (happart : ¬ spaced.TouchesEquals) (htext : piece.strip.text = spaced.written.text) :
    ∃ condition, Condition.readAt columns piece = .ok condition :=
  ⟨_, Condition.readAt_eq_ok_iff.mpr ⟨spaced.written, spaced.condition.operand columns,
    { spaced.isSpaced_written with op_ends := spaced.endsBefore_iff.mpr happart }, htext,
    spaced.condition.operandOf?_eq columns, rfl⟩⟩

end SpacedCondition

/-! ## Layouts -/

/-- What stands between two combinators: white space, up to one question mark with white
space behind it, a condition or nothing, and white space. -/
structure Layout.Piece where
  before : Blanks
  mark? : Option Blanks
  condition? : Option SpacedCondition
  behind : Blanks

/-- Pieces to be joined by `&` into parts, and parts to be joined by `|`. -/
structure Layout where
  parts : List (List Layout.Piece)

namespace Layout

namespace Piece

def body (piece : Piece) : Text :=
  match piece.condition? with
  | none => []
  | some spaced => spaced.written.text

def mark (piece : Piece) : Text :=
  match piece.mark? with
  | none => []
  | some blanks => '?' :: blanks.chars

def text (piece : Piece) : Text :=
  piece.before.chars ++ (piece.mark ++ (piece.body ++ piece.behind.chars))

end Piece

def partText (part : List Piece) : Text :=
  List.intercalate ['&'] (part.map (·.text))

def text (layout : Layout) : Text :=
  List.intercalate ['|'] (layout.parts.map partText)

/-- The conditions that are laid out, without the blank groups. -/
def conditions (layout : Layout) : List (List SpacedCondition) :=
  (layout.parts.map fun part => part.filterMap (·.condition?)).filter (!·.isEmpty)

/-- The groups that are laid out. -/
def groups (layout : Layout) : List (List TypedCondition) :=
  layout.conditions.map (·.map (·.condition))

/-- The layout without white space, question marks and blank pieces. -/
def plain (groups : List (List TypedCondition)) : Layout where
  parts := groups.map (·.map fun condition =>
    ⟨.tight, none, some ⟨condition, .tight, .tight⟩, .tight⟩)

/-- All groups can be laid out. -/
theorem groups_plain {groups : List (List TypedCondition)}
    (hsolid : ∀ group ∈ groups, group ≠ []) : (plain groups).groups = groups := by
  induction groups with
  | nil => rfl
  | cons group rest ih =>
      have hrest := ih fun other hother => hsolid other (by simp [hother])
      have hgroup := hsolid group (by simp)
      simp only [Layout.groups, conditions, plain, List.map_cons, List.filterMap_map,
        Function.comp_def, List.filterMap_eq_map'] at hrest ⊢
      rw [List.filter_cons_of_pos (by simpa using hgroup), List.map_cons, List.map_map, hrest]
      simp [Function.comp_def]

/-! ## The text of a layout -/

theorem isUnmarked_of_combinator {t : Text} (hhead : ∀ c ∈ t.head?, isCombinator c = true) :
    IsUnmarked t := by
  have hstart : t.trimStart = t := by
    refine Text.trimStart_eq_self fun c hc => ?_
    have hcombinator := hhead c hc
    simp only [isCombinator, Bool.or_eq_true, beq_iff_eq] at hcombinator
    rcases hcombinator with rfl | rfl <;> decide
  rw [IsUnmarked, hstart]
  intro hmark
  have hcombinator := hhead '?' hmark
  revert hcombinator
  decide

namespace Piece

theorem isUnmarked_body_append (piece : Piece) {behind : Text}
    (hbehind : ∀ c ∈ behind.head?, isCombinator c = true) :
    IsUnmarked (piece.body ++ (piece.behind.chars ++ behind)) := by
  rw [body]
  split
  · rw [List.nil_append, isUnmarked_blanks_append piece.behind.blank]
    exact isUnmarked_of_combinator hbehind
  · next spaced _ =>
      obtain ⟨c, rest, htext, hc⟩ := spaced.isSpaced_written.exists_cons
      have hstart : Text.trimStart (c :: (rest ++ (piece.behind.chars ++ behind))) =
          c :: (rest ++ (piece.behind.chars ++ behind)) := by
        refine Text.trimStart_eq_self fun d hd => ?_
        rw [List.head?_cons] at hd
        cases hd
        exact isBlank_of_isWordChar hc
      rw [htext, List.cons_append, IsUnmarked, hstart, List.head?_cons]
      rintro ⟨⟩
      revert hc
      decide

/-- A piece has no second question mark. -/
theorem isMarkedOnce_append (piece : Piece) {behind : Text}
    (hbehind : ∀ c ∈ behind.head?, isCombinator c = true) :
    IsMarkedOnce (piece.text ++ behind) := by
  have hbody := piece.isUnmarked_body_append hbehind
  simp only [text, List.append_assoc]
  cases hmark : piece.mark? with
  | none =>
      simp only [mark, hmark, List.nil_append]
      exact ((isUnmarked_blanks_append piece.before.blank).mpr hbody).isMarkedOnce
  | some blanks =>
      simp only [mark, hmark]
      intro rest hrest
      rw [Text.trimStart_blanks_append piece.before.blank, List.cons_append] at hrest
      obtain ⟨-, rfl⟩ := List.cons.inj hrest
      exact (isUnmarked_blanks_append blanks.blank).mpr hbody

theorem trim_body (piece : Piece) : piece.body.trim = piece.body := by
  rw [body]
  split
  · rfl
  · next spaced _ => exact Text.trim_eq_self_iff.mpr spaced.isSpaced_written.isTrimmed_text

/-- White space and a question mark come off a piece, and its condition stays. -/
theorem bareText_text (piece : Piece) : bareText piece.text = piece.body := by
  have hwhole : IsUnmarked (piece.body ++ (piece.behind.chars ++ [])) :=
    piece.isUnmarked_body_append (by simp)
  have hbody : IsUnmarked piece.body :=
    isUnmarked_of_isPrefix (List.prefix_append _ _) hwhole
  rw [text, bareText_blanks_append piece.before.blank, ← List.append_assoc,
    bareText_append_blanks piece.behind.blank, mark]
  split
  · rw [List.nil_append, bareText_of_isUnmarked hbody, trim_body]
  · next blanks _ =>
      rw [List.cons_append, bareText_mark, Text.trim_blanks_append blanks.blank, trim_body]

end Piece

/-- A piece has no combinators. -/
theorem isPlain_written (spaced : SpacedCondition) : IsPlain spaced.written.text := by
  have hcolumn : IsPlain spaced.condition.column :=
    isPlain_of_class (by decide) (by decide) spaced.condition.column_word.chars
  have hop : IsPlain spaced.condition.op.symbol := by
    cases spaced.condition.op <;> decide
  exact hcolumn.append ((isPlain_of_allBlank spaced.gap.blank).append
    (hop.append ((isPlain_of_allBlank spaced.space.blank).append spaced.condition.value_plain)))

theorem Piece.isPlain_text (piece : Piece) : IsPlain piece.text := by
  have hmark : IsPlain piece.mark := by
    rw [Piece.mark]
    split
    · decide
    · next blanks _ =>
        have hquestion : IsPlain ['?'] := by decide
        exact hquestion.append (isPlain_of_allBlank blanks.blank)
  have hbody : IsPlain piece.body := by
    rw [Piece.body]
    split
    · decide
    · next spaced _ => exact isPlain_written spaced
  exact (isPlain_of_allBlank piece.before.blank).append
    (hmark.append (hbody.append (isPlain_of_allBlank piece.behind.blank)))

theorem or_not_mem_partText (part : List Piece) : '|' ∉ partText part := by
  refine Text.not_mem_intercalate (by decide) fun t ht => ?_
  obtain ⟨piece, -, rfl⟩ := List.mem_map.mp ht
  exact piece.isPlain_text.or_not_mem

/-! ## The pieces of a layout -/

theorem filter_map_body (part : List Piece) :
    (part.map (·.body)).filter (!·.isEmpty) =
      (part.filterMap (·.condition?)).map (·.written.text) := by
  induction part with
  | nil => rfl
  | cons piece rest ih =>
      rw [List.map_cons, List.filter_cons, ih, List.filterMap_cons, Piece.body]
      cases piece.condition? with
      | none => rfl
      | some spaced =>
          obtain ⟨c, more, htext, -⟩ := spaced.isSpaced_written.exists_cons
          simp [htext]

theorem barePieces_partText (part : List Piece) :
    barePieces (partText part) = (part.filterMap (·.condition?)).map (·.written.text) := by
  have hbody : bareText ∘ (fun piece : Piece => piece.text) = (·.body) :=
    funext Piece.bareText_text
  cases part with
  | nil => rfl
  | cons piece rest =>
      have hsplit : Text.splitAt '&' (partText (piece :: rest)) =
          (piece :: rest).map (·.text) := by
        refine Text.splitAt_intercalate (by simp) fun t ht => ?_
        obtain ⟨other, -, rfl⟩ := List.mem_map.mp ht
        exact other.isPlain_text.and_not_mem
      rw [barePieces, hsplit, List.map_map, hbody, filter_map_body]

theorem bareParts_text (layout : Layout) :
    bareParts layout.text = layout.conditions.map (·.map (·.written.text)) := by
  obtain ⟨parts⟩ := layout
  have hpart : barePieces ∘ partText =
      (fun spaced : List SpacedCondition => spaced.map (·.written.text)) ∘
        fun part => part.filterMap (·.condition?) :=
    funext barePieces_partText
  cases parts with
  | nil => rfl
  | cons part rest =>
      have hsplit : Text.splitAt '|' (text ⟨part :: rest⟩) = (part :: rest).map partText := by
        refine Text.splitAt_intercalate (by simp) fun t ht => ?_
        obtain ⟨other, -, rfl⟩ := List.mem_map.mp ht
        exact or_not_mem_partText other
      rw [bareParts, hsplit, List.map_map, hpart, ← List.map_map, List.filter_map, conditions]
      congr 2
      funext spaced
      simp

theorem isMarkedOnce_text (layout : Layout) : IsMarkedOnce layout.text := by
  obtain ⟨parts⟩ := layout
  match parts with
  | [] => exact (isUnmarked_of_combinator (by simp [text])).isMarkedOnce
  | [] :: rest =>
      obtain ⟨behind, htext, hbehind⟩ :=
        Text.exists_intercalate_cons '|' (partText []) (rest.map partText)
      have hcombinator : ∀ c ∈ behind.head?, isCombinator c = true := by
        intro c hc
        rw [hbehind c hc]
        rfl
      rw [text, List.map_cons, htext]
      exact (isUnmarked_of_combinator hcombinator).isMarkedOnce
  | (piece :: pieces) :: rest =>
      -- The first piece stands at the start, and a combinator or nothing behind it.
      obtain ⟨outer, houter, houterHead⟩ :=
        Text.exists_intercalate_cons '|' (partText (piece :: pieces)) (rest.map partText)
      obtain ⟨inner, hinner, hinnerHead⟩ :=
        Text.exists_intercalate_cons '&' piece.text (pieces.map (·.text))
      rw [text, List.map_cons, houter, partText, List.map_cons, hinner, List.append_assoc]
      refine piece.isMarkedOnce_append fun c hc => ?_
      rw [List.head?_append] at hc
      rcases Option.or_eq_some_iff.mp hc with hfirst | ⟨-, hsecond⟩
      · rw [hinnerHead c hfirst]
        rfl
      · rw [houterHead c hsecond]
        rfl

/-- The pieces of the text are the conditions that were laid out, and no others. -/
theorem sourcePieces_text (layout : Layout) :
    List.Forall₂
      (List.Forall₂ fun piece spaced => piece.strip.text = spaced.written.text)
      (sourcePieces layout.text) layout.conditions := by
  have hpieces := map_strip_sourcePieces layout.isMarkedOnce_text
  rw [bareParts_text, ← List.forall₂_eq_eq_eq, List.forall₂_map_left_iff,
    List.forall₂_map_right_iff] at hpieces
  refine hpieces.imp fun part spaced hpart => ?_
  rwa [← List.forall₂_eq_eq_eq, List.forall₂_map_left_iff, List.forall₂_map_right_iff] at hpart

end Layout

/-! ## Reading a layout -/

theorem forall₂_of_common {α β γ : Type} {R : α → β → Prop} {S : α → γ → Prop}
    {T : β → γ → Prop} {xs : List α} {ys : List β} {zs : List γ}
    (hstep : ∀ x y z, R x y → S x z → T y z) (hleft : List.Forall₂ R xs ys)
    (hright : List.Forall₂ S xs zs) : List.Forall₂ T ys zs := by
  induction hleft generalizing zs with
  | nil =>
      cases hright
      exact .nil
  | cons hhead _ ih =>
      cases hright with
      | cons hother hrest => exact .cons (hstep _ _ _ hhead hother) (ih hrest)

/-- Lists of things that are the same in pairs under a condition are the same under all of
these conditions. -/
theorem map_eq_map_iff_of_forall₂ {α β γ : Type} {f : α → γ} {g : β → γ} {P : β → Prop}
    {xs : List α} {ys : List β} (hpairs : List.Forall₂ (fun x y => f x = g y ↔ P y) xs ys) :
    xs.map f = ys.map g ↔ ∀ y ∈ ys, P y := by
  induction hpairs with
  | nil => simp
  | cons hhead _ ih => simp [hhead, ih]

namespace Layout

variable {columns : List Column} {layout : Layout}

/-- No equals sign of a value joins the operator in front of it. -/
def IsApart (layout : Layout) : Prop :=
  ∀ group ∈ layout.conditions, ∀ spaced ∈ group, ¬ spaced.TouchesEquals

instance (layout : Layout) : Decidable layout.IsApart :=
  inferInstanceAs (Decidable (∀ group ∈ layout.conditions, _))

theorem conditions_meaning_eq_iff {part : List Placed} {group : Group}
    {laid : List SpacedCondition} (hgroup : group.IsReadFrom columns part)
    (hlaid : List.Forall₂ (fun piece spaced => piece.strip.text = spaced.written.text) part laid) :
    group.conditions.map (·.meaning) = laid.map (·.condition.meaning columns) ↔
      ∀ spaced ∈ laid, ¬ spaced.TouchesEquals := by
  apply map_eq_map_iff_of_forall₂
  refine forall₂_of_common ?_ hgroup.conditions_read hlaid
  intro piece condition spaced hread htext
  exact SpacedCondition.meaning_eq_iff hread htext

theorem meanings_eq_iff {predicate : Predicate}
    (hfrom : predicate.IsReadFrom columns (sourcePieces layout.text)) :
    predicate.meanings = layout.groups.map (·.map (·.meaning columns)) ↔ layout.IsApart := by
  have hgroups : List.Forall₂ (fun (group : Group) (laid : List SpacedCondition) =>
      group.conditions.map (·.meaning) = laid.map (·.condition.meaning columns) ↔
        ∀ spaced ∈ laid, ¬ spaced.TouchesEquals) predicate.groups layout.conditions := by
    refine forall₂_of_common ?_ hfrom.groups_read layout.sourcePieces_text
    intro part group laid hgroup hlaid
    exact conditions_meaning_eq_iff hgroup hlaid
  have hiff := map_eq_map_iff_of_forall₂ hgroups
  rw [Predicate.meanings, groups, List.map_map]
  simpa [Function.comp_def, IsApart] using hiff

theorem sourcePieces_ne_nil (hgroups : layout.groups ≠ []) : sourcePieces layout.text ≠ [] := by
  intro hnil
  have hpieces := layout.sourcePieces_text
  rw [hnil, List.forall₂_nil_left_iff] at hpieces
  exact hgroups (by rw [groups, hpieces]; rfl)

theorem exists_readAt_of_isApart (columns : List Column) (hone : layout.IsApart) {piece : Placed}
    (hpiece : piece ∈ (sourcePieces layout.text).flatten) :
    ∃ condition, Condition.readAt columns piece = .ok condition := by
  obtain ⟨part, hpart, hmem⟩ := List.mem_flatten.mp hpiece
  obtain ⟨group, hgroup, hpairs⟩ := exists_left_of_forall₂ layout.sourcePieces_text.flip hpart
  obtain ⟨spaced, hspaced, htext⟩ := exists_left_of_forall₂ hpairs.flip hmem
  exact spaced.readAt_isOk (hone group hgroup spaced hspaced) htext

/-- However a filter is laid out, it is read as the groups that were laid out, with their
columns, operators and classified values; the one exception is an equals sign right behind
`>` or `<`. -/
theorem read_eq_groups_iff (columns : List Column) (layout : Layout)
    (hgroups : layout.groups ≠ []) :
    (∃ predicate, Predicate.read columns layout.text = .ok predicate ∧
      predicate.meanings = layout.groups.map (·.map (·.meaning columns))) ↔ layout.IsApart := by
  constructor
  · rintro ⟨predicate, hread, hmeanings⟩
    exact (meanings_eq_iff (Predicate.isReadFrom_of_read hread)).mp hmeanings
  · intro hone
    -- There are pieces and all of them are read, so only the last case is left.
    rcases Predicate.read_cases columns layout.text with
      ⟨hnil, -⟩ | ⟨piece, hpiece, failure, hfailed, -⟩ | ⟨hnil, -⟩ | ⟨predicate, hread, hfrom⟩
    · exact absurd hnil (sourcePieces_ne_nil hgroups)
    · obtain ⟨condition, hread⟩ := exists_readAt_of_isApart columns hone hpiece
      cases hread.symm.trans hfailed
    · exact absurd hnil (sourcePieces_ne_nil hgroups)
    · exact ⟨predicate, hread, (meanings_eq_iff hfrom).mpr hone⟩

/-- Blank pieces, question marks and several kinds of white space around a pattern test, a
value that begins with an equals sign, and a date. -/
def scattered : Layout :=
  let space : Blanks := ⟨[' '], by decide⟩
  let wide : Blanks := ⟨['\u3000', '\u2028'], by decide⟩
  let name : TypedCondition :=
    ⟨"name", .contains, "?a", by decide, by decide, by decide, by decide, by decide⟩
  let price : TypedCondition :=
    ⟨"price", .greater, "=1", by decide, by decide, by decide, by decide, by decide⟩
  let seen : TypedCondition :=
    ⟨"seen", .lessEqual, "@7D", by decide, by decide, by decide, by decide, by decide⟩
  ⟨[[⟨wide, some space, none, .tight⟩, ⟨wide, some wide, some ⟨name, wide, .tight⟩, space⟩],
    [⟨.tight, none, none, .tight⟩, ⟨space, none, none, .tight⟩],
    [⟨.tight, none, some ⟨price, .tight, space⟩, wide⟩,
      ⟨.tight, some .tight, some ⟨seen, .tight, .tight⟩, .tight⟩]]⟩

theorem read_scattered_eq_groups :
    scattered.groups ≠ [] ∧
      ∃ predicate, Predicate.read [⟨"price", "INTEGER"⟩] scattered.text = .ok predicate ∧
        predicate.meanings = [[⟨"name", .contains, .text "?a"⟩],
          [⟨"price", .greater, .text "=1"⟩, ⟨"seen", .lessEqual, .date (.ago 7 .day)⟩]] := by
  have hgroups : scattered.groups ≠ [] := by decide
  have hone : scattered.IsApart := by decide
  obtain ⟨predicate, hread, hmeanings⟩ :=
    (read_eq_groups_iff [⟨"price", "INTEGER"⟩] scattered hgroups).mpr hone
  exact ⟨hgroups, predicate, hread, hmeanings.trans (by decide)⟩

end Layout

end TableBrowser.Filter
