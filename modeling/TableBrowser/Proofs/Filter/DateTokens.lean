import Mathlib.Data.Nat.Digits.Defs
import TableBrowser.Proofs.Filter.UuidText
import TableBrowser.Proofs.Sql.ConditionRow

/-!
# Date tokens

A date token is an at sign and, in either letter case, a keyword or digits with the letter of a
unit.  The digits may begin with any number of zeros, but their value has to fit in 32 bits.
These texts are read as the dates they spell.  Every other text that begins with an at sign is
an ordinary text, in every column and behind every operator.
-/

namespace TableBrowser.Filter

open TableBrowser.Text (digitValue digitsValue isDigit lower lowerChar sameLetters)

/-! ## Characters -/

theorem lowerChar_eq_iff_of_isDigit {d : Char} (hd : isDigit d = true) :
    ∀ c : Char, lowerChar c = d ↔ c = d := by
  have hsame : ∀ c : Char, isDigit c = true → lowerChar c = c := by
    refine Text.forall_char (by decide +kernel) fun c hc _ => Text.lowerChar_eq_self hc
  intro c
  constructor
  · intro heq
    rw [← hsame c (by rw [← Text.isDigit_lowerChar, heq, hd]), heq]
  · rintro rfl
    exact hsame c hd

/-- Digits have one case. -/
theorem lower_eq_iff_of_digits {digits : Text} (hdigits : ∀ c ∈ digits, isDigit c = true)
    {t : Text} : lower t = digits ↔ t = digits := by
  induction digits generalizing t with
  | nil => exact List.map_eq_nil_iff
  | cons d digits ih =>
      obtain ⟨hd, hrest⟩ := List.forall_mem_cons.mp hdigits
      cases t with
      | nil => exact iff_of_false nofun nofun
      | cons c t =>
          have hlower : lower (c :: t) = lowerChar c :: lower t := rfl
          rw [hlower, List.cons.injEq, List.cons.injEq, lowerChar_eq_iff_of_isDigit hd, ih hrest]

theorem digitsValue_eq_ofDigits (digits : Text) :
    digitsValue 0 digits = Nat.ofDigits 10 (digits.reverse.map digitValue) := by
  rw [Nat.ofDigits_eq_foldr, List.foldr_map, List.foldr_reverse]
  simp only [digitsValue, Nat.cast_id, add_comm]

/-- The bytes of the last character are those behind the other ones. -/
theorem takeBytes?_dropLast {t : Text} {c : Char} (hlast : t.getLast? = some c) :
    Text.takeBytes? t (t.byteSize - c.utf8Size) = some t.dropLast := by
  obtain ⟨before, rfl⟩ := List.getLast?_eq_some_iff.mp hlast
  have hsize : Text.byteSize (before ++ [c]) - c.utf8Size = Text.byteSize before := by
    rw [Text.byteSize_append, Text.byteSize_cons, Text.byteSize_nil, Nat.add_zero,
      Nat.add_sub_cancel]
  rw [hsize, List.dropLast_concat]
  exact Text.takeBytes?_append before [c]

/-! ## Spelled dates -/

/-- The letter of a unit. -/
def DateUnit.letter : DateUnit → Char
  | .hour => 'h'
  | .day => 'd'
  | .week => 'w'
  | .month => 'm'
  | .year => 'y'

theorem DateUnit.ofLetter?_eq_some_iff {c : Char} {unit : DateUnit} :
    ofLetter? c = some unit ↔ c = unit.letter := by
  unfold ofLetter?
  constructor
  · intro hunit
    split at hunit
    · next hc => cases hunit; exact hc
    split at hunit
    · next hc => cases hunit; exact hc
    split at hunit
    · next hc => cases hunit; exact hc
    split at hunit
    · next hc => cases hunit; exact hc
    split at hunit
    · next hc => cases hunit; exact hc
    · cases hunit
  · rintro rfl
    cases unit <;> rfl

namespace RelativeDate

/-- A text spells a date: behind an at sign it is, up to the case of ASCII letters, a keyword,
or the amount in decimal digits and the letter of the unit. -/
inductive IsSpelledBy : RelativeDate → Text → Prop
  | now {word : Text} (hword : sameLetters word "now" = true) : IsSpelledBy .now ('@' :: word)
  | today {word : Text} (hword : sameLetters word "today" = true) :
      IsSpelledBy .today ('@' :: word)
  | yesterday {word : Text} (hword : sameLetters word "yesterday" = true) :
      IsSpelledBy .yesterday ('@' :: word)
  | ago {digits : Text} {letter : Char} {amount : UInt32} {unit : DateUnit}
      (hne : digits ≠ []) (hdigits : ∀ c ∈ digits, isDigit c = true)
      (hamount : Nat.ofDigits 10 (digits.reverse.map digitValue) = amount.toNat)
      (hletter : lowerChar letter = unit.letter) :
      IsSpelledBy (.ago amount unit) ('@' :: (digits ++ [letter]))

/-- The shortest spelling of a date, in lower case. -/
def token : RelativeDate → Text
  | .now => "@now"
  | .today => "@today"
  | .yesterday => "@yesterday"
  | .ago amount unit => '@' :: (Text.ofNat amount.toNat ++ [unit.letter])

theorem isSpelledBy_token (date : RelativeDate) : date.IsSpelledBy date.token := by
  cases date with
  | now => exact .now rfl
  | today => exact .today rfl
  | yesterday => exact .yesterday rfl
  | ago amount unit =>
      refine .ago (Text.ofNat_ne_nil _) (Text.isDigit_of_mem_ofNat _) ?_ ?_
      · rw [← digitsValue_eq_ofDigits, Text.digitsValue_ofNat]
      · cases unit <;> rfl

/-! ## Reading a token -/

theorem ofAmount?_eq_some_iff {body : Text} {date : RelativeDate} :
    ofAmount? body = some date ↔
      ∃ (digits : Text) (unit : DateUnit) (amount : UInt32),
        body = digits ++ [unit.letter] ∧ digits ≠ [] ∧ (∀ c ∈ digits, isDigit c = true) ∧
          digitsValue 0 digits = amount.toNat ∧ date = .ago amount unit := by
  constructor
  · intro hread
    obtain ⟨letter, hlast, hread⟩ := Option.bind_eq_some_iff.mp hread
    obtain ⟨unit, hunit, hread⟩ := Option.bind_eq_some_iff.mp hread
    obtain ⟨amount, hamount, hdate⟩ := Option.bind_eq_some_iff.mp hread
    obtain ⟨digits, rfl⟩ := List.getLast?_eq_some_iff.mp hlast
    rw [DateUnit.ofLetter?_eq_some_iff] at hunit
    rw [List.dropLast_concat, Text.toNatBelow?, Option.filter_eq_some_iff, Text.toNat?] at hamount
    obtain ⟨hvalue, hbound⟩ := hamount
    split at hvalue
    · cases hvalue
    · next hdigits =>
        cases hvalue
        simp only [Bool.or_eq_true, not_or, List.isEmpty_iff, Bool.not_eq_true',
          Bool.not_eq_false, List.all_eq_true] at hdigits
        refine ⟨digits, unit, _, by rw [hunit], hdigits.1, hdigits.2, ?_,
          (Option.some.inj hdate).symm⟩
        exact (UInt32.toNat_ofNat_of_lt (of_decide_eq_true hbound)).symm
  · rintro ⟨digits, unit, amount, rfl, hne, hdigits, hvalue, rfl⟩
    have hbelow : Text.toNatBelow? UInt32.size digits = some amount.toNat := by
      rw [Text.toNatBelow?, Text.toNat?, List.all_eq_true.mpr hdigits,
        List.isEmpty_eq_false_iff.mpr hne, hvalue]
      simpa using amount.toNat_lt
    rw [ofAmount?, List.getLast?_concat, List.dropLast_concat, hbelow]
    simp [DateUnit.ofLetter?_eq_some_iff.mpr rfl]

theorem isSpelledBy_ago_of_lower {rest digits : Text} {unit : DateUnit} {amount : UInt32}
    (hlower : lower rest = digits ++ [unit.letter]) (hne : digits ≠ [])
    (hdigits : ∀ c ∈ digits, isDigit c = true) (hvalue : digitsValue 0 digits = amount.toNat) :
    (RelativeDate.ago amount unit).IsSpelledBy ('@' :: rest) := by
  obtain ⟨front, back, rfl, hfront, hback⟩ := List.map_eq_append_iff.mp hlower
  obtain ⟨letter, rfl, hletter⟩ := List.map_eq_singleton_iff.mp hback
  rw [show front = digits from (lower_eq_iff_of_digits hdigits).mp hfront]
  exact .ago hne hdigits (by rw [← digitsValue_eq_ofDigits, hvalue]) hletter

theorem beginsWithDigit_append {digits : Text} (hne : digits ≠ [])
    (hdigits : ∀ c ∈ digits, isDigit c = true) (behind : Text) :
    (digits ++ behind).head?.any isDigit = true := by
  obtain ⟨c, rest, rfl⟩ := List.exists_cons_of_ne_nil hne
  exact hdigits c List.mem_cons_self

/-- What begins with a digit is no keyword, in neither letter case. -/
theorem lower_ne_of_beginsWithDigit {t : Text} (ht : t.head?.any isDigit = true) {keyword : Text}
    (hkeyword : keyword.head?.any isDigit = false) : lower t ≠ keyword := by
  rintro rfl
  rw [Text.beginsWithDigit_lower, ht] at hkeyword
  cases hkeyword

/-- A text is read as a date exactly if it spells the date. -/
theorem ofToken?_eq_some_iff {t : Text} {date : RelativeDate} :
    ofToken? t = some date ↔ date.IsSpelledBy t := by
  constructor
  · intro hread
    unfold ofToken? at hread
    split at hread
    · next rest =>
        dsimp only at hread
        split at hread
        · next hword => cases hread; exact .now (Text.sameLetters_iff.mpr hword)
        split at hread
        · next hword => cases hread; exact .today (Text.sameLetters_iff.mpr hword)
        split at hread
        · next hword => cases hread; exact .yesterday (Text.sameLetters_iff.mpr hword)
        · obtain ⟨digits, unit, amount, hlower, hne, hdigits, hvalue, rfl⟩ :=
            ofAmount?_eq_some_iff.mp hread
          exact isSpelledBy_ago_of_lower hlower hne hdigits hvalue
    · cases hread
  · intro hspelled
    cases hspelled with
    | @now word hword =>
        have hlower : lower word = "now".toList := Text.sameLetters_iff.mp hword
        rw [ofToken?, if_pos hlower]
    | @today word hword =>
        have hlower : lower word = "today".toList := Text.sameLetters_iff.mp hword
        rw [ofToken?, if_neg (by rw [hlower]; decide), if_pos hlower]
    | @yesterday word hword =>
        have hlower : lower word = "yesterday".toList := Text.sameLetters_iff.mp hword
        rw [ofToken?, if_neg (by rw [hlower]; decide), if_neg (by rw [hlower]; decide),
          if_pos hlower]
    | @ago digits letter amount unit hne hdigits hamount hletter =>
        have hlower : lower (digits ++ [letter]) = digits ++ [unit.letter] := by
          rw [Text.lower_append, (lower_eq_iff_of_digits hdigits).mpr rfl, ← hletter]
          rfl
        have hne_keyword {keyword : Text} (hkeyword : keyword.head?.any isDigit = false) :
            lower (digits ++ [letter]) ≠ keyword :=
          lower_ne_of_beginsWithDigit (beginsWithDigit_append hne hdigits _) hkeyword
        rw [ofToken?, if_neg (hne_keyword rfl), if_neg (hne_keyword rfl),
          if_neg (hne_keyword rfl), hlower, ofAmount?_eq_some_iff]
        exact ⟨digits, unit, amount, rfl, hne, hdigits,
          (digitsValue_eq_ofDigits digits).trans hamount, rfl⟩

/-- The reading of an amount that cuts the letter off by the number of its bytes; it has no
outcome if the cut falls inside a character. -/
def cutAmount? (body : Text) : Option (Option RelativeDate) :=
  match body.getLast? with
  | none => some none
  | some letter =>
    match DateUnit.ofLetter? letter with
    | none => some none
    | some unit =>
      (Text.takeBytes? body (body.byteSize - letter.utf8Size)).map fun digits =>
        (Text.toNatBelow? UInt32.size digits).map fun amount => .ago (UInt32.ofNat amount) unit

/-- The cut never falls inside a character. -/
theorem cutAmount?_eq (body : Text) : cutAmount? body = some (ofAmount? body) := by
  unfold cutAmount? ofAmount?
  cases hlast : body.getLast? with
  | none => rfl
  | some letter =>
      cases hunit : DateUnit.ofLetter? letter with
      | none => simp [hunit]
      | some unit =>
          simp only [hunit, takeBytes?_dropLast hlast, Option.map_some]
          cases Text.toNatBelow? UInt32.size body.dropLast <;> simp [hunit]

/-! ## Texts that spell no date -/

/-- Digits of too large a value spell no date, whatever the letter behind them. -/
theorem not_isSpelledBy_of_large {digits : Text} (hdigits : ∀ c ∈ digits, isDigit c = true)
    (hlarge : UInt32.size ≤ Nat.ofDigits 10 (digits.reverse.map digitValue)) (letter : Char)
    (date : RelativeDate) : ¬ date.IsSpelledBy ('@' :: (digits ++ [letter])) := by
  have hne : digits ≠ [] := by
    rintro rfl
    exact absurd hlarge (by decide)
  have hne_keyword {keyword : Text} (hkeyword : keyword.head?.any isDigit = false) :
      lower (digits ++ [letter]) ≠ keyword :=
    lower_ne_of_beginsWithDigit (beginsWithDigit_append hne hdigits _) hkeyword
  intro hspelled
  generalize hword : digits ++ [letter] = word at hspelled
  rw [hword] at hne_keyword
  cases hspelled with
  | now hkeyword => exact hne_keyword rfl (Text.sameLetters_iff.mp hkeyword)
  | today hkeyword => exact hne_keyword rfl (Text.sameLetters_iff.mp hkeyword)
  | yesterday hkeyword => exact hne_keyword rfl (Text.sameLetters_iff.mp hkeyword)
  | @ago other _ amount _ _ _ hamount =>
      obtain ⟨rfl, -⟩ := List.append_inj' hword rfl
      rw [hamount] at hlarge
      exact absurd amount.toNat_lt (Nat.not_lt.mpr hlarge)

/-- What begins with an at sign is no number. -/
theorem isNumeric_at (rest : Text) : Operand.isNumeric ('@' :: rest) = false := by
  refine Bool.eq_false_iff.mpr fun hnumeric => ?_
  have hat := Sql.mem_of_isNumeric hnumeric List.mem_cons_self
  revert hat
  decide

/-- What begins with an at sign is a text in every column, unless it is a date. -/
theorem classify_at (type? : Option Text) (rest : Text) :
    Operand.classify type? ('@' :: rest) = .text ('@' :: rest) := by
  have hbytes : Uuid.ofText? ('@' :: rest) = none := by
    rw [Option.eq_none_iff_forall_ne_some]
    intro uuid hread
    obtain ⟨first, behind, hcons, hfirst, -⟩ :=
      Uuid.exists_hyphen (Uuid.ofText?_eq_some_iff.mp hread)
    cases hcons
    exact absurd hfirst (by decide)
  rw [Operand.classify, isNumeric_at, if_neg Bool.false_ne_true, hbytes]
  exact ite_self _

theorem operand_at (columns : List Column) {parts : ConditionParts} {rest : Text}
    (hvalue : parts.value.value = '@' :: rest)
    (hundated : ∀ date : RelativeDate, ¬ date.IsSpelledBy ('@' :: rest)) :
    parts.operand columns = .ok (.text ('@' :: rest)) := by
  have hnone : ofToken? ('@' :: rest) = none := by
    rw [Option.eq_none_iff_forall_ne_some]
    exact fun date hread => hundated date (ofToken?_eq_some_iff.mp hread)
  rw [ConditionParts.operand, hvalue, hnone]
  dsimp only
  rw [classify_at, ite_self]

/-- Exactly the texts that spell a date are read as one, as the date that they spell, and every
date is spelled by some text.  Digits of a value beyond 32 bits spell none, and all texts with
an at sign in front that spell none stand for themselves.  The letter that is cut off the
amount is never cut apart. -/
theorem spelled_dates_are_read :
    (∀ (t : Text) (date : RelativeDate), ofToken? t = some date ↔ date.IsSpelledBy t) ∧
      (∀ date : RelativeDate, date.IsSpelledBy date.token) ∧
      (∀ (digits : Text) (letter : Char), (∀ c ∈ digits, isDigit c = true) →
        2 ^ 32 ≤ Nat.ofDigits 10 (digits.reverse.map digitValue) →
          ∀ date : RelativeDate, ¬ date.IsSpelledBy ('@' :: (digits ++ [letter]))) ∧
      (∀ (columns : List Column) (parts : ConditionParts) (rest : Text),
        parts.value.value = '@' :: rest →
          (∀ date : RelativeDate, ¬ date.IsSpelledBy ('@' :: rest)) →
            parts.operand columns = .ok (.text ('@' :: rest))) ∧
      ∀ body : Text, cutAmount? body = some (ofAmount? body) :=
  ⟨fun _ _ => ofToken?_eq_some_iff, isSpelledBy_token,
    fun _ letter hdigits hlarge => not_isSpelledBy_of_large hdigits hlarge letter,
    fun columns _ _ hvalue hundated => operand_at columns hvalue hundated, cutAmount?_eq⟩

/-- Zeros in front change nothing, and a keyword that ends in the letter of a unit is a keyword. -/
example : ofToken? "@000000000000007D" = some (.ago 7 .day) ∧
    ofToken? "@yesterdaY" = some .yesterday ∧ ofToken? "@4294967296h" = none := by
  decide

end RelativeDate

end TableBrowser.Filter
