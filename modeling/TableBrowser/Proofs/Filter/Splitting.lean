import Mathlib.Data.List.Forall2
import TableBrowser.Proofs.Filter.Descent
import TableBrowser.Proofs.Text.Pieces
import TableBrowser.Proofs.Text.Trimming

/-!
# A filter as pieces of its text

A filter can also be read by cutting its text at every `|` and each part at every
`&`, without looking at tokens.  The conditions are the pieces that are not blank, each
read at its own offset, and the first of them that cannot be read decides the failure.
Folding the tokens comes to the same.
-/

namespace TableBrowser.Filter

/-! ## Cutting text -/

/-- Pieces of a text in which a separator stands between each of them and the next. -/
def placePieces (separator : Char) (offset : Nat) : List Text → List Placed
  | [] => []
  | piece :: rest =>
    ⟨piece, offset⟩ ::
      placePieces separator (offset + (piece.byteSize + separator.utf8Size)) rest

/-- The pieces between the occurrences of a separator, each at its own offset. -/
def Placed.splitAt (separator : Char) (placed : Placed) : List Placed :=
  placePieces separator placed.offset (Text.splitAt separator placed.text)

/-- The text is white space and at most one question mark. -/
def Placed.isBlank (placed : Placed) : Bool :=
  let solid := placed.text.filter (!Text.isBlank ·)
  solid.isEmpty || solid == ['?']

/-- The pieces that are conditions, part by part: blank pieces are dropped, and so are
the parts that have no other pieces. -/
def conditionPieces (placed : Placed) : List (List Placed) :=
  ((placed.splitAt '|').map fun part => (part.splitAt '&').filter (!·.isBlank)).filter
    (!·.isEmpty)

/-- The failure of a piece that cannot be read as a condition. -/
def Placed.failure? (columns : List Column) (piece : Placed) : Option Failure :=
  match Condition.readAt columns piece with
  | .error failure => some failure
  | .ok _ => none

/-- The conditions of the pieces that can be read. -/
def readableConditions (columns : List Column) (part : List Placed) : List Condition :=
  part.filterMap fun piece => (Condition.readAt columns piece).toOption

/-- Reads a whole filter by cutting the body that is left of its source.  The failure is
that of the leftmost piece that has one. -/
def Predicate.readBySplitting (columns : List Column) (source : Text) (body : Placed) :
    Except Failure Predicate :=
  if body.text = [] then .error (.of .emptyInput ⟨0, source.byteSize⟩)
  else
    let parts := conditionPieces body
    match parts.flatten.findSome? (Placed.failure? columns) with
    | some failure => .error failure
    | none =>
      match parts.filterMap fun part =>
          Group.ofConditions? (readableConditions columns part) with
      | [] => .error (.of .noConditions body.span)
      | first :: rest =>
        .ok ⟨first :: rest, first.span.cover ((first :: rest).getLastD first).span⟩

namespace Placed

/-- A piece is blank exactly if nothing is left of it when it is read. -/
theorem isBlank_iff (placed : Placed) : placed.isBlank = true ↔ placed.strip.text = [] := by
  rw [isBlank, ← Text.filter_solid_trimStart]
  simp only [strip, trimStart]
  cases hstart : placed.text.trimStart with
  | nil => simp [Text.trimEnd]
  | cons c rest =>
      have hc : Text.isBlank c = false :=
        Text.stopsRun_dropWhile Text.isBlank placed.text c (by
          rw [← Text.trimStart, hstart]
          exact Option.mem_some_self c)
      rw [List.filter_cons_of_pos (by simpa using hc)]
      by_cases hmark : c = '?'
      · subst hmark
        have hrest : Text.trimEnd (Text.trimStart rest) = [] ↔ Text.AllBlank rest :=
          Text.trim_eq_nil_iff
        simp [trim, trimStart, hrest, Text.AllBlank]
      · have hsolid : Text.trimEnd (c :: rest) ≠ [] := by
          rw [Ne, Text.trimEnd_eq_nil_iff]
          exact fun hblank => Bool.false_ne_true (hc.symm.trans (hblank c (by simp)))
        split
        · next heq => exact absurd (List.cons.inj (congrArg Placed.text heq)).1 hmark
        · simp [hmark, hsolid]

theorem splitAt_nil (separator : Char) (offset : Nat) :
    splitAt separator ⟨[], offset⟩ = [⟨[], offset⟩] := rfl

theorem splitAt_separator (separator : Char) (rest : Text) (offset : Nat) :
    splitAt separator ⟨separator :: rest, offset⟩ =
      ⟨[], offset⟩ :: splitAt separator ⟨rest, offset + separator.utf8Size⟩ := by
  simp [splitAt, Text.splitAt, placePieces]

/-- A character that is no separator belongs to the first piece of what follows. -/
theorem splitAt_cons_of_ne {separator c : Char} (hc : c ≠ separator) (rest : Text)
    (offset : Nat) :
    ∃ piece pieces,
      splitAt separator ⟨rest, offset + c.utf8Size⟩ = ⟨piece, offset + c.utf8Size⟩ :: pieces ∧
        splitAt separator ⟨c :: rest, offset⟩ = ⟨c :: piece, offset⟩ :: pieces := by
  obtain ⟨piece, pieces, hsplit⟩ :=
    List.exists_cons_of_ne_nil (Text.splitAt_ne_nil separator rest)
  refine ⟨piece, _, by rw [splitAt, hsplit, placePieces], ?_⟩
  simp only [splitAt, Text.splitAt, if_neg hc, hsplit, placePieces, Text.byteSize_cons]
  rw [Nat.add_assoc, Nat.add_assoc]

end Placed

/-! ## Tokens and pieces -/

/-- All pieces of a text, part by part, also those without characters. -/
def allPieces (placed : Placed) : List (List Placed) :=
  (placed.splitAt '|').map (·.splitAt '&')

theorem allPieces_or (rest : Text) (offset : Nat) :
    allPieces ⟨'|' :: rest, offset⟩ =
      [⟨[], offset⟩] :: allPieces ⟨rest, offset + ('|' : Char).utf8Size⟩ := by
  rw [allPieces, Placed.splitAt_separator, List.map_cons, Placed.splitAt_nil]
  rfl

theorem allPieces_and {rest : Text} {offset : Nat} {part : List Placed}
    {parts : List (List Placed)}
    (hrest : allPieces ⟨rest, offset + ('&' : Char).utf8Size⟩ = part :: parts) :
    allPieces ⟨'&' :: rest, offset⟩ = (⟨[], offset⟩ :: part) :: parts := by
  obtain ⟨piece, pieces, hpieces, hsplit⟩ :=
    Placed.splitAt_cons_of_ne (show '&' ≠ '|' by decide) rest offset
  rw [allPieces, hpieces, List.map_cons, List.cons.injEq] at hrest
  rw [allPieces, hsplit, List.map_cons, Placed.splitAt_separator, hrest.1, hrest.2]

theorem allPieces_cons {c : Char} (hc : isCombinator c = false) {rest piece : Text}
    {offset : Nat} {pieces : List Placed} {parts : List (List Placed)}
    (hrest : allPieces ⟨rest, offset + c.utf8Size⟩ =
      (⟨piece, offset + c.utf8Size⟩ :: pieces) :: parts) :
    allPieces ⟨c :: rest, offset⟩ = (⟨c :: piece, offset⟩ :: pieces) :: parts := by
  simp only [isCombinator, Bool.or_eq_false_iff, beq_eq_false_iff_ne] at hc
  obtain ⟨part, others, hpart, hsplit⟩ := Placed.splitAt_cons_of_ne hc.2 rest offset
  obtain ⟨first, more, hfirst, hcons⟩ := Placed.splitAt_cons_of_ne hc.1 part offset
  rw [allPieces, hpart, List.map_cons, hfirst] at hrest
  rw [allPieces, hsplit, List.map_cons, hcons]
  simpa using hrest

/-- The texts between combinators, part by part. -/
def tokenPieces (base : Nat) : List (Located Token) → List (List Placed)
  | [] => [[]]
  | ⟨.or, _⟩ :: rest => [] :: tokenPieces base rest
  | ⟨.and, _⟩ :: rest => tokenPieces base rest
  | ⟨.text content, span⟩ :: rest =>
    match tokenPieces base rest with
    | [] => [[⟨content, base + span.start⟩]]
    | part :: parts => (⟨content, base + span.start⟩ :: part) :: parts

theorem tokenPieces_ne_nil (base : Nat) (tokens : List (Located Token)) :
    tokenPieces base tokens ≠ [] := by
  induction tokens with
  | nil => simp [tokenPieces]
  | cons token rest ih =>
      obtain ⟨token, span⟩ := token
      cases token with
      | and => exact ih
      | or => simp [tokenPieces]
      | text content =>
          simp only [tokenPieces]
          split <;> simp

/-- What the first token of a text is: the first piece, or no text if that has no
characters. -/
def BeginsWith (piece : Text) (offset : Nat) (tokens : List (Located Token)) : Prop :=
  if piece = [] then ∀ content span more, tokens ≠ ⟨.text content, span⟩ :: more
  else ∃ stop more, tokens = ⟨.text piece, ⟨offset, stop⟩⟩ :: more

/-- The texts of the tokens of a text are its pieces that have characters. -/
def HasPieces (base offset : Nat) (t : Text) (tokens : List (Located Token)) : Prop :=
  ∃ piece pieces parts,
    allPieces ⟨t, base + offset⟩ = (⟨piece, base + offset⟩ :: pieces) :: parts ∧
      BeginsWith piece offset tokens ∧
      tokenPieces base tokens = (allPieces ⟨t, base + offset⟩).map (·.filter (!·.text.isEmpty))

theorem hasPieces_and {base offset : Nat} {rest : Text}
    (hrest : HasPieces base (offset + ('&' : Char).utf8Size) rest
      (tokensFrom (offset + ('&' : Char).utf8Size) rest)) :
    HasPieces base offset ('&' :: rest) (tokensFrom offset ('&' :: rest)) := by
  obtain ⟨piece, pieces, parts, hall, -, hpieces⟩ := hrest
  rw [← Nat.add_assoc] at hall hpieces
  have hcons := allPieces_and hall
  refine ⟨[], _, _, hcons, by simp [BeginsWith, tokensFrom], ?_⟩
  rw [hcons, tokensFrom, if_pos rfl, tokenPieces, hpieces, hall]
  simp

theorem hasPieces_or {base offset : Nat} {rest : Text}
    (hrest : HasPieces base (offset + ('|' : Char).utf8Size) rest
      (tokensFrom (offset + ('|' : Char).utf8Size) rest)) :
    HasPieces base offset ('|' :: rest) (tokensFrom offset ('|' :: rest)) := by
  obtain ⟨piece, pieces, parts, -, -, hpieces⟩ := hrest
  rw [← Nat.add_assoc] at hpieces
  have hcons := allPieces_or rest (base + offset)
  refine ⟨[], _, _, hcons, by simp [BeginsWith, tokensFrom], ?_⟩
  rw [hcons, tokensFrom, if_neg (by decide), if_pos rfl, tokenPieces, hpieces]
  simp

/-- A character of a condition lengthens the first piece and the first token, if this is a
text. -/
theorem hasPieces_cons {base offset : Nat} {c : Char} {rest : Text} (hand : c ≠ '&')
    (hor : c ≠ '|')
    (hrest : HasPieces base (offset + c.utf8Size) rest (tokensFrom (offset + c.utf8Size) rest)) :
    HasPieces base offset (c :: rest) (tokensFrom offset (c :: rest)) := by
  obtain ⟨piece, pieces, parts, hall, hbegins, hpieces⟩ := hrest
  rw [← Nat.add_assoc] at hall hpieces
  have hc : isCombinator c = false := by simp [isCombinator, hand, hor]
  have hcons := allPieces_cons hc hall
  refine ⟨c :: piece, pieces, parts, hcons, ?_⟩
  rw [hall] at hpieces
  rw [hcons, tokensFrom, if_neg hand, if_neg hor]
  by_cases hempty : piece = []
  · -- The character is a text by itself, since no text follows.
    subst hempty
    simp only [BeginsWith, if_true] at hbegins
    split
    · next content span more htokens => exact absurd htokens (hbegins content span more)
    · exact ⟨by simp [BeginsWith], by simp [tokenPieces, hpieces]⟩
  · simp only [BeginsWith, if_neg hempty] at hbegins
    obtain ⟨stop, more, htokens⟩ := hbegins
    rw [htokens] at hpieces ⊢
    refine ⟨by simp [BeginsWith], ?_⟩
    obtain ⟨part, others, hmore⟩ := List.exists_cons_of_ne_nil (tokenPieces_ne_nil base more)
    simp only [tokenPieces, hmore] at hpieces ⊢
    rw [List.map_cons, List.filter_cons_of_pos (by simpa using hempty), List.cons.injEq,
      List.cons.injEq] at hpieces
    obtain ⟨⟨-, hpart⟩, hothers⟩ := hpieces
    rw [hpart, hothers]
    rfl

theorem hasPieces_tokensFrom (base : Nat) (t : Text) (offset : Nat) :
    HasPieces base offset t (tokensFrom offset t) := by
  induction t generalizing offset with
  | nil => exact ⟨[], [], [], rfl, by simp [BeginsWith, tokensFrom], rfl⟩
  | cons c rest ih =>
      by_cases hand : c = '&'
      · subst hand
        exact hasPieces_and (ih _)
      · by_cases hor : c = '|'
        · subst hor
          exact hasPieces_or (ih _)
        · exact hasPieces_cons hand hor (ih _)

/-! ## Reading tokens and reading pieces -/

variable {columns : List Column} {base : Nat}

/-- The pieces of tokens that are not blank, part by part. -/
def tokenConditions (base : Nat) (tokens : List (Located Token)) : List (List Placed) :=
  (tokenPieces base tokens).map (·.filter (!·.isBlank))

theorem tokenConditions_text (content : Text) (span : Span) (rest : List (Located Token)) :
    ∃ part parts,
      tokenConditions base rest = part :: parts ∧
        tokenConditions base (⟨.text content, span⟩ :: rest) =
          ([Placed.mk content (base + span.start)].filter (!·.isBlank) ++ part) :: parts := by
  obtain ⟨part, parts, hrest⟩ := List.exists_cons_of_ne_nil (tokenPieces_ne_nil base rest)
  refine ⟨part.filter (!·.isBlank), parts.map (·.filter (!·.isBlank)), ?_, ?_⟩
  · rw [tokenConditions, hrest, List.map_cons]
  · rw [tokenConditions, tokenPieces, hrest, List.map_cons, ← List.filter_append]
    rfl

/-- The groups of parts of which the first goes on with conditions already read. -/
def groupsBehind (columns : List Column) (current : List Condition) :
    List (List Placed) → List Group
  | [] => []
  | part :: parts =>
    (Group.ofConditions? (current ++ readableConditions columns part)).toList ++
      parts.filterMap fun part => Group.ofConditions? (readableConditions columns part)

theorem groupsBehind_nil (parts : List (List Placed)) :
    groupsBehind columns [] parts =
      parts.filterMap fun part => Group.ofConditions? (readableConditions columns part) := by
  cases parts with
  | nil => rfl
  | cons part parts =>
      rw [groupsBehind, List.nil_append, List.filterMap_cons]
      cases Group.ofConditions? (readableConditions columns part) <;> rfl

theorem groupsBehind_empty (current : List Condition) (parts : List (List Placed)) :
    groupsBehind columns current ([] :: parts) =
      (Group.ofConditions? current).toList ++ groupsBehind columns [] parts := by
  rw [groupsBehind_nil, groupsBehind, readableConditions, List.filterMap_nil, List.append_nil]

theorem groupsBehind_cons {piece : Placed} {condition : Condition}
    (hread : Condition.readAt columns piece = .ok condition) (current : List Condition)
    (part : List Placed) (parts : List (List Placed)) :
    groupsBehind columns current ((piece :: part) :: parts) =
      groupsBehind columns (current ++ [condition]) (part :: parts) := by
  simp [groupsBehind, readableConditions, hread, Except.toOption]

/-- Reading tokens gives the leftmost failure of their pieces or all of their groups. -/
theorem readTokens_eq (tokens : List (Located Token)) (progress : Progress) :
    readTokens columns base tokens progress =
      match (tokenConditions base tokens).flatten.findSome? (Placed.failure? columns) with
      | some failure => .error failure
      | none =>
        .ok (progress.groups ++
          groupsBehind columns progress.current (tokenConditions base tokens)) := by
  induction tokens generalizing progress with
  | nil =>
      simp [readTokens, tokenConditions, tokenPieces, groupsBehind, readableConditions,
        Progress.closeGroup]
  | cons token rest ih =>
      obtain ⟨token, span⟩ := token
      cases token with
      | and => exact ih progress
      | or =>
          have hparts : tokenConditions base (⟨.or, span⟩ :: rest) =
              [] :: tokenConditions base rest := rfl
          rw [readTokens, ih, hparts, List.flatten_cons, List.nil_append, groupsBehind_empty,
            Progress.closeGroup, List.append_assoc]
      | text content =>
          obtain ⟨part, parts, hrest, hparts⟩ := tokenConditions_text content span rest
          by_cases hblank : (Placed.mk content (base + span.start)).strip.text = []
          · have hskip : tokenConditions base (⟨.text content, span⟩ :: rest) =
                tokenConditions base rest := by
              rw [hparts, hrest, List.filter_singleton, (Placed.isBlank_iff _).mpr hblank]
              rfl
            rw [readTokens, if_pos hblank, ih, hskip]
          · have hsolid : (Placed.mk content (base + span.start)).isBlank = false := by
              rwa [← Placed.isBlank_iff, Bool.not_eq_true] at hblank
            have hkeep : tokenConditions base (⟨.text content, span⟩ :: rest) =
                (⟨content, base + span.start⟩ :: part) :: parts := by
              rw [hparts, List.filter_singleton, hsolid]
              rfl
            rw [readTokens, if_neg hblank, hkeep, List.flatten_cons, List.cons_append,
              List.findSome?_cons]
            cases hread : Condition.readAt columns ⟨content, base + span.start⟩ with
            | error failure => simp [Placed.failure?, hread]
            | ok condition =>
                simp only [Placed.failure?, hread]
                rw [ih, hrest, groupsBehind_cons hread]
                rfl

/-! ## Whole filters -/

theorem isBlank_of_text_isEmpty {placed : Placed} (hempty : placed.text.isEmpty = true) :
    placed.isBlank = true := by
  obtain ⟨text, offset⟩ := placed
  obtain rfl : text = [] := List.isEmpty_iff.mp hempty
  rfl

/-- The pieces of the tokens of a text are those of the text itself. -/
theorem filter_tokenConditions (placed : Placed) :
    (tokenConditions placed.offset (tokens placed.text)).filter (!·.isEmpty) =
      conditionPieces placed := by
  obtain ⟨piece, pieces, parts, -, -, htokens⟩ :=
    hasPieces_tokensFrom placed.offset placed.text 0
  have hall : allPieces ⟨placed.text, placed.offset + 0⟩ =
      (placed.splitAt '|').map (·.splitAt '&') := rfl
  rw [conditionPieces, tokenConditions, tokens, htokens, hall, List.map_map, List.map_map]
  congr 2
  funext part
  -- A piece without characters is blank.
  simp only [Function.comp, List.filter_filter]
  apply List.filter_congr
  intro piece _
  cases hempty : piece.text.isEmpty with
  | false => simp
  | true => simp [isBlank_of_text_isEmpty hempty]

theorem ofConditions?_readable_of_filter (parts : List (List Placed)) :
    (parts.filter (!·.isEmpty)).filterMap
        (fun part => Group.ofConditions? (readableConditions columns part)) =
      parts.filterMap fun part => Group.ofConditions? (readableConditions columns part) := by
  rw [List.filterMap_filter]
  congr 1
  funext part
  cases part <;> rfl

theorem Predicate.read_eq (columns : List Column) (source : Text) :
    read columns source = readBySplitting columns source (Placed.mk source 0).strip := by
  simp only [read, readBySplitting]
  split
  · rfl
  · rw [readAt_eq, readTokens_eq, ← filter_tokenConditions, List.flatten_filter_not_isEmpty,
      ofConditions?_readable_of_filter]
    simp only [Progress.start, groupsBehind_nil, List.nil_append]
    generalize tokenConditions _ _ = parts
    cases parts.flatten.findSome? (Placed.failure? columns) with
    | some failure => rfl
    | none =>
        dsimp only
        generalize parts.filterMap _ = groups
        cases groups <;> rfl

/-! ## What the conditions are read from -/

/-- The conditions are read from the pieces, one from each. -/
def ReadFrom (columns : List Column) (part : List Placed) (conditions : List Condition) :
    Prop :=
  List.Forall₂ (fun piece condition => Condition.readAt columns piece = .ok condition) part
    conditions

theorem readFrom_readableConditions {part : List Placed}
    (hreads : ∀ piece ∈ part, piece.failure? columns = none) :
    ReadFrom columns part (readableConditions columns part) := by
  induction part with
  | nil => exact .nil
  | cons piece rest ih =>
      have hpiece := hreads piece (by simp)
      have hrest := ih fun other hother => hreads other (by simp [hother])
      cases hread : Condition.readAt columns piece with
      | error failure => simp [Placed.failure?, hread] at hpiece
      | ok condition =>
          have hcons : readableConditions columns (piece :: rest) =
              condition :: readableConditions columns rest := by
            simp [readableConditions, hread, Except.toOption]
          rw [hcons]
          exact .cons hread hrest

end TableBrowser.Filter
