import TableBrowser.Filter.Predicate
import TableBrowser.Proofs.Filter.Layout
import TableBrowser.Proofs.Filter.UuidText
import TableBrowser.Proofs.Sql.ClauseRow

/-!
# Previews that are read

A preview is a row of conditions in words, each behind the word that joins it to the one before
it.  Columns, operators, numbers, UUIDs and dates are told from what stands behind them, and so
is a text up to its first quotation mark.  A preview puts no mark in front of a quotation mark
inside of a text, so the text of one filter may run over the next condition of another one; apart
from that, a preview has one reading.
-/

namespace TableBrowser.Filter

open TableBrowser.Text (IsWord StopsRun isDigit isWordChar sameLetters sameLetters_iff)

/-! ## The words of an operand -/

/-- The name of a unit behind a number. -/
def DateUnit.counted (unit : DateUnit) (amount : UInt32) : Text :=
  unit.name ++ if amount = 1 then "" else "s"

/-- The first word of a date. -/
def RelativeDate.word : RelativeDate → Text
  | .now => "now"
  | .today => "today"
  | .yesterday => "yesterday"
  | .ago amount _ => Text.ofNat amount.toNat

/-- The words of a date behind the first one, each behind a blank. -/
def RelativeDate.moreWords : RelativeDate → Text
  | .ago amount unit => ' ' :: (unit.counted amount ++ " ago")
  | _ => []

theorem RelativeDate.describe_eq_words (date : RelativeDate) :
    date.describe = date.word ++ date.moreWords := by
  cases date with
  | now | today | yesterday => exact (List.append_nil _).symm
  | ago amount unit =>
      have hblank : " ".toList = [' '] := rfl
      unfold describe word moreWords DateUnit.counted
      simp only [hblank, List.append_assoc, List.cons_append, List.nil_append]

namespace Operand

/-- The operand is shown between quotation marks. -/
def isText : Operand → Bool
  | .text _ => true
  | _ => false

/-- Numbers are as they were typed. -/
def IsTyped (operand : Operand) : Prop :=
  ∀ digits, operand = .number digits → isNumeric digits = true

/-- The first word of an operand that is no text. -/
def word : Operand → Text
  | .number digits => digits
  | .text _ => []
  | .binary uuid => uuid.toText
  | .date relative => relative.word

/-- The words behind the first one. -/
def moreWords : Operand → Text
  | .date relative => relative.moreWords
  | _ => []

theorem preview_eq_words {operand : Operand} (hplain : operand.isText = false) :
    operand.preview = operand.word ++ operand.moreWords := by
  cases operand with
  | text value => cases hplain
  | number digits => exact (List.append_nil digits).symm
  | binary uuid => exact (List.append_nil uuid.toText).symm
  | date relative => exact relative.describe_eq_words

theorem moreWords_cases (operand : Operand) :
    operand.moreWords = [] ∨ ∃ amount unit, operand = .date (.ago amount unit) := by
  cases operand with
  | date relative =>
      cases relative with
      | ago amount unit => exact .inr ⟨amount, unit, rfl⟩
      | now | today | yesterday => exact .inl rfl
  | number | text | binary => exact .inl rfl

/-- A word has no blank in it. -/
theorem ne_blank_of_mem_word {operand : Operand} (htyped : operand.IsTyped) {c : Char}
    (hc : c ∈ operand.word) : c ≠ ' ' := by
  rintro rfl
  cases operand with
  | number digits =>
      have hcases := Sql.mem_of_isNumeric (htyped digits rfl) hc
      revert hcases
      decide
  | text value => cases hc
  | binary uuid =>
      have hchar := Uuid.isTextChar_of_mem (sameLetters_iff.mpr rfl) hc
      revert hchar
      decide
  | date relative =>
      cases relative with
      | now | today | yesterday => exact absurd hc (by decide)
      | ago amount unit =>
          have hdigit := Text.isDigit_of_mem_ofNat _ _ hc
          revert hdigit
          decide

/-- The operand that a word stands for by itself. -/
def ofWord? (t : Text) : Option Operand :=
  if isNumeric t then some (.number t)
  else
    match Uuid.ofText? t with
    | some uuid => some (.binary uuid)
    | none => ([RelativeDate.now, .today, .yesterday].find? (·.word == t)).map .date

theorem ofWord?_word {operand : Operand} (hplain : operand.isText = false)
    (htyped : operand.IsTyped) (hone : operand.moreWords = []) :
    ofWord? operand.word = some operand := by
  cases operand with
  | number digits => exact if_pos (htyped digits rfl)
  | text value => cases hplain
  | binary uuid =>
      have hsame : sameLetters uuid.toText uuid.toText = true := sameLetters_iff.mpr rfl
      rw [ofWord?, word, Uuid.isNumeric_eq_false hsame, if_neg Bool.false_ne_true,
        Uuid.ofText?_eq_some_iff.mpr hsame]
  | date relative =>
      cases relative with
      | now | today | yesterday => decide +kernel
      | ago amount unit => cases hone

/-- A word does not begin like the rest of an operator or like a text. -/
theorem exists_word_eq_cons {operand : Operand} (hplain : operand.isText = false)
    (htyped : operand.IsTyped) :
    ∃ c rest, operand.word = c :: rest ∧ c ≠ 'o' ∧ c ≠ '"' := by
  have hdigit {c : Char} (hc : isDigit c = true) : c ≠ 'o' ∧ c ≠ '"' := by
    constructor <;> rintro rfl <;> revert hc <;> decide
  cases operand with
  | number digits =>
      obtain ⟨c, rest, rfl⟩ : ∃ c rest, digits = c :: rest := by
        refine List.exists_cons_of_ne_nil ?_
        rintro rfl
        exact absurd (htyped [] rfl) (by decide)
      refine ⟨c, rest, rfl, ?_⟩
      rcases Sql.mem_of_isNumeric (htyped _ rfl) List.mem_cons_self with hc | rfl | rfl
      · exact hdigit hc
      · decide
      · decide
  | text value => cases hplain
  | binary uuid =>
      have hsame : sameLetters uuid.toText uuid.toText = true := sameLetters_iff.mpr rfl
      obtain ⟨c, rest, htext, -, -⟩ := Uuid.exists_hyphen hsame
      have hchar : Uuid.isTextChar c = true :=
        Uuid.isTextChar_of_mem hsame (htext ▸ List.mem_cons_self)
      refine ⟨c, rest, htext, ?_, ?_⟩ <;> rintro rfl <;> revert hchar <;> decide
  | date relative =>
      cases relative with
      | now | today | yesterday => exact ⟨_, _, rfl, by decide, by decide⟩
      | ago amount unit =>
          obtain ⟨c, rest, hcons⟩ := List.exists_cons_of_ne_nil (Text.ofNat_ne_nil amount.toNat)
          have hc := Text.isDigit_of_mem_ofNat amount.toNat c (hcons ▸ List.mem_cons_self)
          exact ⟨c, rest, hcons, hdigit hc⟩

end Operand

/-! ## Links -/

/-- How a condition is joined to the one before it. -/
inductive Joint
  | and
  | or
  deriving DecidableEq

def Joint.text : Joint → Text
  | .and => " AND "
  | .or => " OR "

/-- The text is at its end or goes on with a joint. -/
def BeginsWithJoint (t : Text) : Prop :=
  t = [] ∨ ∃ (joint : Joint) (rest : Text), t = joint.text ++ rest

/-- A condition behind its joint; the first condition of a group is joined by an `OR`. -/
structure Link where
  joint : Joint
  meaning : Meaning
  deriving DecidableEq

namespace Link

/-- A link up to its operand. -/
def opening (link : Link) : Text :=
  link.joint.text ++ (link.meaning.column ++ ' ' :: (link.meaning.op.phrase ++ [' ']))

def text (link : Link) : Text :=
  link.opening ++ link.meaning.operand.preview

/-- The parts of the link are as they were typed. -/
structure IsTyped (link : Link) : Prop where
  column_word : IsWord link.meaning.column
  operand_typed : link.meaning.operand.IsTyped

end Link

def linksText (links : List Link) : Text :=
  links.flatMap Link.text

theorem beginsWithJoint_linksText (links : List Link) : BeginsWithJoint (linksText links) := by
  cases links with
  | nil => exact .inl rfl
  | cons first rest =>
      rw [linksText, List.flatMap_cons, Link.text, Link.opening, List.append_assoc,
        List.append_assoc]
      exact .inr ⟨first.joint, _, rfl⟩

/-! ## Reading an operand -/

theorem BeginsWithJoint.stopsRun {t : Text} (ht : BeginsWithJoint t) :
    StopsRun (· != ' ') t := by
  rcases ht with rfl | ⟨joint, rest, rfl⟩
  · exact nofun
  · intro c hc
    cases joint <;> cases hc <;> rfl

theorem DateUnit.ne_blank_of_mem_counted {unit : DateUnit} {amount : UInt32} {c : Char}
    (hc : c ∈ unit.counted amount) : c ≠ ' ' := by
  rintro rfl
  rcases List.mem_append.mp hc with hc | hc
  · cases unit <;> exact absurd hc (by decide)
  · split at hc <;> exact absurd hc (by decide)

theorem DateUnit.name_inj {left right : DateUnit} (heq : left.name = right.name) :
    left = right := by
  revert heq
  cases left <;> cases right <;> decide

theorem DateUnit.counted_append_inj {left right : DateUnit} {amount : UInt32}
    {leftBehind rightBehind : Text}
    (heq : left.counted amount ++ " ago" ++ leftBehind =
      right.counted amount ++ " ago" ++ rightBehind) :
    left = right ∧ leftBehind = rightBehind := by
  have hsolid (unit : DateUnit) : ∀ c ∈ unit.counted amount, (c != ' ') = true :=
    fun c hc => bne_iff_ne.mpr (ne_blank_of_mem_counted hc)
  have hstops (behind : Text) : StopsRun (· != ' ') (" ago".toList ++ behind) := by
    intro c hc
    cases hc
    rfl
  rw [List.append_assoc, List.append_assoc] at heq
  obtain ⟨hcounted, hbehind⟩ := Text.append_inj_of_stopsRun (hsolid left) (hsolid right)
    (hstops leftBehind) (hstops rightBehind) heq
  exact ⟨name_inj (List.append_cancel_right hcounted), List.append_cancel_left hbehind⟩

/-- The words of a date go on in lower case, and a joint does not. -/
theorem not_beginsWithJoint_moreWords {amount : UInt32} {unit : DateUnit} {t : Text} :
    ¬ BeginsWithJoint ((Operand.date (.ago amount unit)).moreWords ++ t) := by
  rintro (heq | ⟨joint, rest, heq⟩)
  · cases heq
  · cases unit <;> cases joint <;> cases heq

open Operand in
/-- An operand that is no text ends where the next link begins. -/
theorem Operand.preview_append_inj {left right : Operand} (hleft : left.isText = false)
    (hright : right.isText = false) (hleftTyped : left.IsTyped) (hrightTyped : right.IsTyped)
    {leftBehind rightBehind : Text} (hleftJoint : BeginsWithJoint leftBehind)
    (hrightJoint : BeginsWithJoint rightBehind)
    (heq : left.preview ++ leftBehind = right.preview ++ rightBehind) :
    left = right ∧ leftBehind = rightBehind := by
  have hstops {operand : Operand} {behind : Text} (hjoint : BeginsWithJoint behind) :
      StopsRun (· != ' ') (operand.moreWords ++ behind) := by
    rcases operand.moreWords_cases with hone | ⟨amount, unit, rfl⟩
    · rw [hone]
      exact hjoint.stopsRun
    · intro c hc
      cases hc
      rfl
  have hsolid {operand : Operand} (htyped : operand.IsTyped) :
      ∀ c ∈ operand.word, (c != ' ') = true := fun c hc =>
    bne_iff_ne.mpr (ne_blank_of_mem_word htyped hc)
  rw [preview_eq_words hleft, preview_eq_words hright, List.append_assoc, List.append_assoc] at heq
  obtain ⟨hword, hmore⟩ := Text.append_inj_of_stopsRun (hsolid hleftTyped) (hsolid hrightTyped)
    (hstops hleftJoint) (hstops hrightJoint) heq
  rcases left.moreWords_cases with hleftOne | ⟨amount, unit, rfl⟩
  · rcases right.moreWords_cases with hrightOne | ⟨amount, unit, rfl⟩
    · rw [hleftOne, hrightOne] at hmore
      have hread := ofWord?_word hleft hleftTyped hleftOne
      rw [hword, ofWord?_word hright hrightTyped hrightOne] at hread
      exact ⟨(Option.some.inj hread).symm, hmore⟩
    · rw [hleftOne, List.nil_append] at hmore
      rw [hmore] at hleftJoint
      exact absurd hleftJoint not_beginsWithJoint_moreWords
  · rcases right.moreWords_cases with hrightOne | ⟨other, otherUnit, rfl⟩
    · rw [hrightOne, List.nil_append] at hmore
      rw [← hmore] at hrightJoint
      exact absurd hrightJoint not_beginsWithJoint_moreWords
    · have hvalue : Text.digitsValue 0 (Text.ofNat amount.toNat) =
          Text.digitsValue 0 (Text.ofNat other.toNat) := congrArg _ hword
      rw [Text.digitsValue_ofNat, Text.digitsValue_ofNat, UInt32.toNat_inj] at hvalue
      subst hvalue
      obtain ⟨rfl, hbehind⟩ := DateUnit.counted_append_inj (List.cons.inj hmore).2
      exact ⟨rfl, hbehind⟩

/-! ## Reading an opening -/

/-- What makes a longer phrase of a phrase. -/
def orEqual : Text := "or equal to "

def Operator.orEqual? : Operator → Option Operator
  | .greater => some .greaterEqual
  | .less => some .lessEqual
  | _ => none

/-- The operator whose phrase stands in front of a blank at the start of a text, and the text
behind the blank. -/
def phraseAt? (t : Text) : Option (Operator × Text) :=
  let shorter? := [Operator.equal, .notEqual, .greater, .less, .contains, .startsWith,
    .endsWith].find? fun op => (op.phrase ++ [' ']).isPrefixOf t
  shorter?.bind fun op =>
    let behind := t.drop (op.phrase.length + 1)
    if orEqual.isPrefixOf behind then
      op.orEqual?.map fun longer => (longer, behind.drop orEqual.length)
    else some (op, behind)

/-- Two of the phrases go on where another one ends, but no operand begins so. -/
theorem phraseAt?_append (op : Operator) {behind : Text} (hbehind : behind.head? ≠ some 'o') :
    phraseAt? (op.phrase ++ ' ' :: behind) = some (op, behind) := by
  have hends : ¬ List.isPrefixOf orEqual behind = true := by
    cases behind with
    | nil => exact Bool.false_ne_true
    | cons c rest =>
        intro hmore
        have hc : ('o' == c) = true := (Bool.and_eq_true_iff.mp hmore).1
        exact hbehind (congrArg some (eq_of_beq hc).symm)
  cases op with
  | equal | notEqual | greater | less | contains | startsWith | endsWith => exact if_neg hends
  | greaterEqual | lessEqual => rfl

theorem Operator.phrase_append_inj {left right : Operator} {leftBehind rightBehind : Text}
    (hleft : leftBehind.head? ≠ some 'o') (hright : rightBehind.head? ≠ some 'o')
    (heq : left.phrase ++ ' ' :: leftBehind = right.phrase ++ ' ' :: rightBehind) :
    left = right ∧ leftBehind = rightBehind := by
  have hread := phraseAt?_append left hleft
  rw [heq, phraseAt?_append right hright, Option.some.injEq, Prod.mk.injEq] at hread
  exact ⟨hread.1.symm, hread.2.symm⟩

theorem Joint.text_append_inj {left right : Joint} {leftBehind rightBehind : Text}
    (heq : left.text ++ leftBehind = right.text ++ rightBehind) :
    left = right ∧ leftBehind = rightBehind := by
  cases left <;> cases right
  · exact ⟨rfl, List.append_cancel_left heq⟩
  · cases heq
  · cases heq
  · exact ⟨rfl, List.append_cancel_left heq⟩

theorem Link.opening_append_inj {left right : Link} (hleft : left.IsTyped)
    (hright : right.IsTyped) {leftBehind rightBehind : Text}
    (hleftBehind : leftBehind.head? ≠ some 'o') (hrightBehind : rightBehind.head? ≠ some 'o')
    (heq : left.opening ++ leftBehind = right.opening ++ rightBehind) :
    left.joint = right.joint ∧ left.meaning.column = right.meaning.column ∧
      left.meaning.op = right.meaning.op ∧ leftBehind = rightBehind := by
  have hblank (behind : Text) : StopsRun isWordChar (' ' :: behind) := by
    intro c hc
    cases hc
    rfl
  simp only [opening, List.append_assoc, List.cons_append, List.nil_append] at heq
  obtain ⟨hjoint, heq⟩ := Joint.text_append_inj heq
  obtain ⟨hcolumn, heq⟩ := Text.append_inj_of_stopsRun hleft.column_word.chars
    hright.column_word.chars (hblank _) (hblank _) heq
  obtain ⟨hop, hbehind⟩ :=
    Operator.phrase_append_inj hleftBehind hrightBehind (List.cons.inj heq).2
  exact ⟨hjoint, hcolumn, hop, hbehind⟩

/-- An operand does not begin like the rest of an operator. -/
theorem Operand.head?_preview_ne {operand : Operand} (htyped : operand.IsTyped) (behind : Text) :
    (operand.preview ++ behind).head? ≠ some 'o' := by
  cases htext : operand.isText with
  | true =>
      cases operand with
      | text value => exact fun hhead => absurd (Option.some.inj hhead) (by decide)
      | number | binary | date => cases htext
  | false =>
      obtain ⟨c, rest, hword, hc, -⟩ := exists_word_eq_cons htext htyped
      rw [preview_eq_words htext, hword]
      exact fun hhead => hc (Option.some.inj hhead)

/-! ## Texts that run over a link -/

/-- No part of an opening is a quotation mark. -/
theorem Link.quote_not_mem_opening {link : Link} (htyped : link.IsTyped) :
    '"' ∉ link.opening := by
  have hjoint : '"' ∉ link.joint.text := by cases link.joint <;> decide
  have hphrase : '"' ∉ link.meaning.op.phrase := by cases link.meaning.op <;> decide
  have hcolumn : '"' ∉ link.meaning.column := by
    intro hmem
    exact absurd (htyped.column_word.chars _ hmem) (by decide)
  simp [opening, hjoint, hcolumn, hphrase]

/-- Up to some place two rows of links are the same, and there both have a text behind the same
opening.  The text of the right one begins with that of the left one, a quotation mark and the
opening of the link behind it. -/
inductive TextRunsOver : List Link → List Link → Prop
  | here {joint : Joint} {column : Text} {op : Operator} {short more : Text} {next : Link}
      {rest behind : List Link} :
      TextRunsOver (⟨joint, column, op, .text short⟩ :: next :: rest)
        (⟨joint, column, op, .text (short ++ '"' :: (next.opening ++ more))⟩ :: behind)
  | later (link : Link) {left right : List Link} (hrest : TextRunsOver left right) :
      TextRunsOver (link :: left) (link :: right)

/-- Of two quoted texts in front of the same text one is the other, or it runs over its closing
mark. -/
theorem quoted_append_cases {left right leftBehind rightBehind : Text}
    (heq : left ++ '"' :: leftBehind = right ++ '"' :: rightBehind) :
    left = right ∧ leftBehind = rightBehind ∨
      (∃ more, right = left ++ '"' :: more ∧ leftBehind = more ++ '"' :: rightBehind) ∨
      ∃ more, left = right ++ '"' :: more ∧ rightBehind = more ++ '"' :: leftBehind := by
  rcases List.append_eq_append_iff.mp heq with ⟨part, rfl, hpart⟩ | ⟨part, rfl, hpart⟩
  · cases part with
    | nil => exact .inl ⟨(List.append_nil left).symm, (List.cons.inj hpart).2⟩
    | cons c more =>
        obtain ⟨rfl, hmore⟩ := List.cons.inj hpart
        exact .inr (.inl ⟨more, rfl, hmore⟩)
  · cases part with
    | nil => exact .inl ⟨List.append_nil right, (List.cons.inj hpart).2.symm⟩
    | cons c more =>
        obtain ⟨rfl, hmore⟩ := List.cons.inj hpart
        exact .inr (.inr ⟨more, rfl, hmore⟩)

/-- A text that runs over its closing mark runs over the opening of the link behind it. -/
theorem exists_opening_of_textRunsOver {links : List Link} (htyped : ∀ link ∈ links, link.IsTyped)
    {part behind : Text} (heq : linksText links = part ++ '"' :: behind) :
    ∃ next rest more, links = next :: rest ∧ part = next.opening ++ more := by
  cases links with
  | nil => exact absurd heq.symm (by simp [linksText])
  | cons next rest =>
      refine ⟨next, rest, ?_⟩
      have hfree := Link.quote_not_mem_opening (htyped next List.mem_cons_self)
      rw [linksText, List.flatMap_cons, Link.text, List.append_assoc] at heq
      rcases List.append_eq_append_iff.mp heq with ⟨more, rfl, -⟩ | ⟨more, hopening, hmore⟩
      · exact ⟨more, rfl, rfl⟩
      · cases more with
        | nil => exact ⟨[], rfl, by rw [hopening]; simp⟩
        | cons c more =>
            obtain ⟨rfl, -⟩ := List.cons.inj hmore
            exact absurd (hopening ▸ by simp) hfree

/-! ## Rows of links with one text -/

theorem linksText_ne_nil (first : Link) (rest : List Link) : linksText (first :: rest) ≠ [] := by
  intro heq
  rw [linksText, List.flatMap_cons, Link.text, Link.opening, List.append_assoc,
    List.append_assoc] at heq
  revert heq
  cases first.joint <;> exact nofun

/-- Behind equal openings, operands end at the same place, or one of them runs over the other. -/
theorem Operand.preview_append_cases {left right : Operand} (hleft : left.IsTyped)
    (hright : right.IsTyped) {leftBehind rightBehind : Text}
    (hleftJoint : BeginsWithJoint leftBehind) (hrightJoint : BeginsWithJoint rightBehind)
    (heq : left.preview ++ leftBehind = right.preview ++ rightBehind) :
    left = right ∧ leftBehind = rightBehind ∨
      (∃ short more, left = .text short ∧ right = .text (short ++ '"' :: more) ∧
        leftBehind = more ++ '"' :: rightBehind) ∨
      ∃ short more, right = .text short ∧ left = .text (short ++ '"' :: more) ∧
        rightBehind = more ++ '"' :: leftBehind := by
  have hquote {operand : Operand} (htyped : operand.IsTyped) (hplain : operand.isText = false)
      {value behind other : Text} :
      operand.preview ++ behind ≠ (Operand.text value).preview ++ other := by
    obtain ⟨c, rest, hword, -, hc⟩ := exists_word_eq_cons hplain htyped
    rw [preview_eq_words hplain, hword]
    exact fun heq => hc (List.cons.inj heq).1
  cases hleftText : left.isText with
  | false =>
      cases hrightText : right.isText with
      | false =>
          exact .inl (preview_append_inj hleftText hrightText hleft hright hleftJoint hrightJoint
            heq)
      | true =>
          cases right with
          | text value => exact absurd heq (hquote hleft hleftText)
          | number | binary | date => cases hrightText
  | true =>
      cases left with
      | number | binary | date => cases hleftText
      | text value =>
          cases hrightText : right.isText with
          | false => exact absurd heq.symm (hquote hright hrightText)
          | true =>
              cases right with
              | number | binary | date => cases hrightText
              | text other =>
                  have hquoted : value ++ '"' :: leftBehind = other ++ '"' :: rightBehind := by
                    simpa [preview] using heq
                  rcases quoted_append_cases hquoted with
                    ⟨rfl, hbehind⟩ | ⟨more, rfl, hbehind⟩ | ⟨more, rfl, hbehind⟩
                  · exact .inl ⟨rfl, hbehind⟩
                  · exact .inr (.inl ⟨value, more, rfl, rfl, hbehind⟩)
                  · exact .inr (.inr ⟨other, more, rfl, rfl, hbehind⟩)

/-- Rows of links with one text are the same unless one of them runs over a link of the other. -/
theorem eq_or_textRunsOver_of_linksText {left right : List Link}
    (hleft : ∀ link ∈ left, link.IsTyped) (hright : ∀ link ∈ right, link.IsTyped)
    (heq : linksText left = linksText right) :
    left = right ∨ TextRunsOver left right ∨ TextRunsOver right left := by
  induction left generalizing right with
  | nil =>
      cases right with
      | nil => exact .inl rfl
      | cons first rest => exact absurd heq.symm (linksText_ne_nil first rest)
  | cons leftFirst leftRest ih =>
      cases right with
      | nil => exact absurd heq (linksText_ne_nil leftFirst leftRest)
      | cons rightFirst rightRest =>
          obtain ⟨hleftFirst, hleftRest⟩ := List.forall_mem_cons.mp hleft
          obtain ⟨hrightFirst, hrightRest⟩ := List.forall_mem_cons.mp hright
          have hcons (first : Link) (rest : List Link) : linksText (first :: rest) =
              first.opening ++ (first.meaning.operand.preview ++ linksText rest) := by
            rw [linksText, List.flatMap_cons, Link.text, List.append_assoc, linksText]
          rw [hcons, hcons] at heq
          obtain ⟨hjoint, hcolumn, hop, hbehind⟩ := Link.opening_append_inj hleftFirst hrightFirst
            (Operand.head?_preview_ne hleftFirst.operand_typed _)
            (Operand.head?_preview_ne hrightFirst.operand_typed _) heq
          obtain ⟨joint, column, op, leftOperand⟩ := leftFirst
          obtain ⟨_, _, _, rightOperand⟩ := rightFirst
          cases hjoint
          cases hcolumn
          cases hop
          rcases Operand.preview_append_cases hleftFirst.operand_typed hrightFirst.operand_typed
            (beginsWithJoint_linksText leftRest) (beginsWithJoint_linksText rightRest) hbehind with
            ⟨hoperand, hrest⟩ | ⟨short, more, hshort, hlong, hover⟩ |
              ⟨short, more, hshort, hlong, hover⟩
          · cases hoperand
            refine (ih hleftRest hrightRest hrest).imp (congrArg _) ?_
            exact Or.imp (.later _) (.later _)
          · cases hshort
            cases hlong
            obtain ⟨next, rest, more, rfl, rfl⟩ := exists_opening_of_textRunsOver hleftRest hover
            exact .inr (.inl .here)
          · cases hshort
            cases hlong
            obtain ⟨next, rest, more, rfl, rfl⟩ := exists_opening_of_textRunsOver hrightRest hover
            exact .inr (.inr .here)

/-! ## The links of a filter -/

def groupLinks : List Meaning → List Link
  | [] => []
  | first :: rest => ⟨.or, first⟩ :: rest.map (⟨.and, ·⟩)

/-- The conditions of a filter, each behind its joint. -/
def Predicate.links (predicate : Predicate) : List Link :=
  predicate.meanings.flatMap groupLinks

theorem map_meaning_groupLinks (meanings : List Meaning) :
    (groupLinks meanings).map (·.meaning) = meanings := by
  cases meanings with
  | nil => rfl
  | cons first rest =>
      rw [groupLinks, List.map_cons, List.map_map]
      exact congrArg _ (List.map_id rest)

theorem Predicate.map_meaning_links (predicate : Predicate) :
    predicate.links.map (·.meaning) = predicate.conditions.map (·.meaning) := by
  rw [links, meanings, conditions, List.map_flatMap, List.map_flatMap, List.flatMap_map]
  exact List.flatMap_congr fun group _ => map_meaning_groupLinks _

/-- Groups put together again: the conditions that belong to a group in front, and the groups
behind them. -/
def regroup : List Link → List Meaning × List (List Meaning)
  | [] => ([], [])
  | ⟨.and, meaning⟩ :: rest => (meaning :: (regroup rest).1, (regroup rest).2)
  | ⟨.or, meaning⟩ :: rest => ([], (meaning :: (regroup rest).1) :: (regroup rest).2)

theorem regroup_and (meanings : List Meaning) (rest : List Link) :
    regroup (meanings.map (⟨.and, ·⟩) ++ rest) =
      (meanings ++ (regroup rest).1, (regroup rest).2) := by
  induction meanings with
  | nil => rfl
  | cons first more ih => rw [List.map_cons, List.cons_append, regroup, ih, List.cons_append]

theorem regroup_flatMap {groups : List (List Meaning)} (hne : ∀ group ∈ groups, group ≠ []) :
    regroup (groups.flatMap groupLinks) = ([], groups) := by
  induction groups with
  | nil => rfl
  | cons first rest ih =>
      obtain ⟨hfirst, hrest⟩ := List.forall_mem_cons.mp hne
      obtain ⟨meaning, more, rfl⟩ := List.exists_cons_of_ne_nil hfirst
      rw [List.flatMap_cons, groupLinks, List.cons_append, regroup, regroup_and, ih hrest,
        List.append_nil]

variable {left right predicate : Predicate}

theorem ne_nil_of_mem_meanings (htyped : ∀ group ∈ predicate.groups, group.IsTyped) :
    ∀ meanings ∈ predicate.meanings, meanings ≠ [] := by
  intro meanings hmem
  obtain ⟨group, hgroup, rfl⟩ := List.mem_map.mp hmem
  exact fun heq => (htyped group hgroup).conditions_ne_nil (List.map_eq_nil_iff.mp heq)

/-- The links tell the groups. -/
theorem meanings_eq_of_links_eq (hleft : ∀ group ∈ left.groups, group.IsTyped)
    (hright : ∀ group ∈ right.groups, group.IsTyped) (heq : left.links = right.links) :
    left.meanings = right.meanings := by
  have hregroup := regroup_flatMap (ne_nil_of_mem_meanings hleft)
  rw [show left.meanings.flatMap groupLinks = right.links from heq, Predicate.links,
    regroup_flatMap (ne_nil_of_mem_meanings hright)] at hregroup
  exact (Prod.mk.inj hregroup).2.symm

/-- Every link is that of a condition. -/
theorem exists_condition_of_mem_links {link : Link} (hmem : link ∈ predicate.links) :
    ∃ condition ∈ predicate.conditions, condition.meaning = link.meaning := by
  rw [← List.mem_map, ← predicate.map_meaning_links]
  exact List.mem_map_of_mem hmem

theorem isTyped_of_mem_links (htyped : ∀ group ∈ predicate.groups, group.IsTyped) {link : Link}
    (hmem : link ∈ predicate.links) : link.IsTyped := by
  obtain ⟨condition, hcondition, hmeaning⟩ := exists_condition_of_mem_links hmem
  obtain ⟨group, hgroup, hcondition⟩ := List.mem_flatMap.mp hcondition
  have hcondition := (htyped group hgroup).conditions_typed condition hcondition
  exact ⟨hmeaning ▸ hcondition.column_word, hmeaning ▸ hcondition.number_numeric⟩

/-- No text of the filter has a quotation mark in it. -/
def Predicate.IsQuoteFree (predicate : Predicate) : Prop :=
  ∀ condition ∈ predicate.conditions, ∀ value, condition.operand.value = .text value →
    '"' ∉ value

/-- A text runs over a link with a quotation mark only. -/
theorem exists_quote_of_textRunsOver {left right : List Link} (hover : TextRunsOver left right) :
    ∃ link ∈ right, ∃ value, link.meaning.operand = .text value ∧ '"' ∈ value := by
  induction hover with
  | here => exact ⟨_, List.mem_cons_self, _, rfl, by simp⟩
  | later link hrest ih =>
      obtain ⟨found, hmem, hquote⟩ := ih
      exact ⟨found, List.mem_cons_of_mem _ hmem, hquote⟩

theorem Predicate.IsQuoteFree.not_textRunsOver (hfree : predicate.IsQuoteFree) (links : List Link) :
    ¬ TextRunsOver links predicate.links := by
  intro hover
  obtain ⟨link, hmem, value, hvalue, hquote⟩ := exists_quote_of_textRunsOver hover
  obtain ⟨condition, hcondition, hmeaning⟩ := exists_condition_of_mem_links hmem
  have hoperand : condition.operand.value = .text value :=
    (congrArg Meaning.operand hmeaning).trans hvalue
  exact hfree condition hcondition value hoperand hquote

/-! ## Previews as rows of links -/

theorem Link.text_of_condition (joint : Joint) (condition : Condition) :
    Link.text ⟨joint, condition.meaning⟩ = joint.text ++ condition.preview := by
  simp [Link.text, Link.opening, Condition.preview, Condition.meaning]

theorem linksText_groupLinks {group : Group} (hne : group.conditions ≠ []) :
    linksText (groupLinks (group.conditions.map (·.meaning))) = " OR " ++ group.preview := by
  obtain ⟨first, rest, hconditions⟩ := List.exists_cons_of_ne_nil hne
  rw [Group.preview, hconditions, List.map_cons, List.map_cons, Sql.intercalate_cons, groupLinks,
    linksText, List.flatMap_cons, Link.text_of_condition, List.map_map, List.flatMap_map,
    List.flatMap_map, List.append_assoc]
  refine congrArg (fun shown : Text => " OR ".toList ++ (first.preview ++ shown)) ?_
  exact List.flatMap_congr fun condition _ => Link.text_of_condition .and condition

/-- A preview is the row of the links of its filter without the first joint. -/
theorem exists_preview_eq (hne : predicate.groups ≠ [])
    (htyped : ∀ group ∈ predicate.groups, group.IsTyped) :
    ∃ shown, predicate.preview = "WHERE " ++ shown ∧
      linksText predicate.links = " OR " ++ shown := by
  refine ⟨_, rfl, ?_⟩
  obtain ⟨first, rest, hgroups⟩ := List.exists_cons_of_ne_nil hne
  have htext : linksText predicate.links =
      predicate.groups.flatMap fun group => " OR ".toList ++ group.preview := by
    rw [linksText, Predicate.links, Predicate.meanings, List.flatMap_assoc, List.flatMap_map]
    exact List.flatMap_congr fun group hgroup =>
      linksText_groupLinks (htyped group hgroup).conditions_ne_nil
  rw [htext, hgroups, List.map_cons, Sql.intercalate_cons, List.flatMap_cons, List.flatMap_map,
    List.append_assoc]

/-- Filters with one preview have the same links unless one of them runs over a link of the
other. -/
theorem links_eq_or_textRunsOver (hleftNe : left.groups ≠ [])
    (hleft : ∀ group ∈ left.groups, group.IsTyped) (hrightNe : right.groups ≠ [])
    (hright : ∀ group ∈ right.groups, group.IsTyped) (heq : left.preview = right.preview) :
    left.links = right.links ∨ TextRunsOver left.links right.links ∨
      TextRunsOver right.links left.links := by
  obtain ⟨leftShown, hleftPreview, hleftText⟩ := exists_preview_eq hleftNe hleft
  obtain ⟨rightShown, hrightPreview, hrightText⟩ := exists_preview_eq hrightNe hright
  rw [hleftPreview, hrightPreview] at heq
  refine eq_or_textRunsOver_of_linksText (fun _ => isTyped_of_mem_links hleft)
    (fun _ => isTyped_of_mem_links hright) ?_
  rw [hleftText, hrightText, List.append_cancel_left heq]

end TableBrowser.Filter
