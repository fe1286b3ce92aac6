import TableBrowser.Proofs.Database.Kept
import TableBrowser.Proofs.Sql.ConditionRow

/-!
# Numbers next to text

A value that has the form of a number is compared as a number, whatever its column holds.
A column of text is then compared with the text of that number.  This is the value itself
for whole numbers of 64 bits without superfluous zeros and signs, and for no other whole
number, since any other number is written with a point or with letters.
-/

namespace TableBrowser

open TableBrowser.Database (fitsInteger)
open TableBrowser.Filter TableBrowser.Text

/-- The value of a whole number that is written with digits and a sign. -/
def wholeNumber (literal : Text) : Int :=
  match literal with
  | '-' :: digits => -(digitsValue 0 digits : Int)
  | digits => digitsValue 0 digits

/-- What is documented of the texts of numbers: a whole number of 64 bits is written with its
digits, and one that does not fit as a floating-point number, with a point or with letters. -/
structure WritesNumbers (written : Text → Text) : Prop where
  fits : ∀ literal, Operand.isNumeric literal = true → '.' ∉ literal →
    fitsInteger (wholeNumber literal) = true → written literal = ofInt (wholeNumber literal)
  exceeds : ∀ literal, Operand.isNumeric literal = true → '.' ∉ literal →
    fitsInteger (wholeNumber literal) = false →
      Operand.isNumeric (written literal) = true → '.' ∈ written literal

/-- What a column of text is compared with for a value. -/
def soughtText (written : Text → Text) (value : Text) : Text :=
  if Operand.isNumeric value then written value else value

section Sought

variable {written : Text → Text} {value : Text}

theorem soughtText_of_isNumeric (hnumeric : Operand.isNumeric value = true) :
    soughtText written value = written value :=
  if_pos hnumeric

theorem soughtText_of_not_isNumeric (hplain : Operand.isNumeric value = false) :
    soughtText written value = value := by
  rw [soughtText, hplain, if_neg Bool.false_ne_true]

theorem head?_ofNat_ne (n : Nat) {c : Char} (hc : isDigit c = false) (rest : Text) :
    ofNat n ≠ c :: rest := by
  intro heq
  have hdigit := isDigit_of_mem_ofNat n c (by rw [heq]; exact List.mem_cons_self)
  rw [hc] at hdigit
  cases hdigit

theorem wholeNumber_ofInt (n : Int) : wholeNumber (ofInt n) = n := by
  cases n with
  | ofNat n =>
      rw [ofInt, wholeNumber]
      · rw [digitsValue_ofNat]
        rfl
      · exact head?_ofNat_ne n (by decide)
  | negSucc n =>
      rw [ofInt, wholeNumber, digitsValue_ofNat]
      rfl

/-- A whole number is compared as the text that was typed exactly if it is written in 64 bits
as it was typed. -/
theorem soughtText_eq_self_iff (hwritten : WritesNumbers written)
    (hnumeric : Operand.isNumeric value = true) (hwhole : '.' ∉ value) :
    soughtText written value = value ↔ ∃ n, fitsInteger n = true ∧ value = ofInt n := by
  rw [soughtText_of_isNumeric hnumeric]
  constructor
  · intro hsame
    cases hfits : fitsInteger (wholeNumber value) with
    | true => exact ⟨_, hfits, hsame.symm.trans (hwritten.fits value hnumeric hwhole hfits)⟩
    | false =>
        have hpoint := hwritten.exceeds value hnumeric hwhole hfits
        rw [hsame] at hpoint
        exact absurd (hpoint hnumeric) hwhole
  · rintro ⟨n, hfits, rfl⟩
    have hvalue := wholeNumber_ofInt n
    rw [hwritten.fits _ hnumeric hwhole (hvalue.symm ▸ hfits), hvalue]

end Sought

namespace Database

/-! ## The texts of numbers in a database in memory -/

/-- The text of a number that stands in a clause. -/
def numberLiteralText (literal : Text) : Text :=
  match numeralCell literal with
  | .integer n => ofInt n
  | .real number => numberText number
  | _ => []

/-- The cell of a whole number: the number itself if it fits, or else the nearest that can
be held. -/
theorem numeralCell_of_whole {value : Text} (hwhole : '.' ∉ value) :
    numeralCell value =
      (Numeral.mk (signOf value).1 (signOf value).2 none none).toCell := by
  have hfree : '.' ∉ (signOf value).2 := by
    unfold signOf
    split
    · exact fun hmem => hwhole (List.mem_cons_of_mem _ hmem)
    · exact fun hmem => hwhole (List.mem_cons_of_mem _ hmem)
    · exact hwhole
  simp only [numeralCell, splitOnce?_of_not_mem hfree]

/-- A number of a filter has no sign but a minus. -/
theorem signed_signOf {literal : Text} (hnumeric : Operand.isNumeric literal = true) :
    Binary64.signed (signOf literal).1 (digitsValue 0 (signOf literal).2) =
      wholeNumber literal := by
  unfold signOf
  split
  · rfl
  · rcases Sql.mem_of_isNumeric hnumeric List.mem_cons_self with hdigit | heq | heq
    · exact absurd hdigit (by decide)
    · exact absurd heq (by decide)
    · exact absurd heq (by decide)
  · next hminus hplus =>
      unfold wholeNumber
      split
      · exact absurd rfl (hminus _)
      · rfl

theorem toInt?_of_whole {literal : Text} (hnumeric : Operand.isNumeric literal = true) :
    (Numeral.mk (signOf literal).1 (signOf literal).2 none none).toInt? =
      some (wholeNumber literal) :=
  congrArg some (signed_signOf hnumeric)

/-! ## The text of a floating-point number -/

theorem point_mem_layOut (d : Binary64.Decimal) : '.' ∈ layOut d := by
  unfold layOut
  dsimp only
  split
  · simp
  · split <;> simp

/-- The text of a floating-point number is no whole number. -/
theorem point_mem_numberText {number : Binary64}
    (hnumeric : Operand.isNumeric (numberText number) = true) : '.' ∈ numberText number := by
  cases number with
  | nan => exact absurd hnumeric (by decide)
  | infinite negative => cases negative <;> exact absurd hnumeric (by decide +kernel)
  | finite negative significand exponent =>
      rw [numberText]
      have hpoint := point_mem_layOut (fifteenDigits significand exponent)
      split
      · decide +kernel
      · cases negative with
        | true => exact List.mem_cons_of_mem _ hpoint
        | false => exact hpoint

/-- A database in memory writes numbers as it is documented. -/
theorem writesNumbers_numberLiteralText : WritesNumbers numberLiteralText where
  fits := by
    intro literal hnumeric hwhole hfits
    have hcell : numeralCell literal = .integer (wholeNumber literal) := by
      rw [numeralCell_of_whole hwhole, Numeral.toCell, toInt?_of_whole hnumeric]
      simp only [Option.filter, hfits, if_true]
    rw [numberLiteralText, hcell]
  exceeds := by
    intro literal hnumeric hwhole hexceeds hwritten
    have hcell : ∃ number, numeralCell literal = .real number := by
      rw [numeralCell_of_whole hwhole, Numeral.toCell, toInt?_of_whole hnumeric]
      simp only [Option.filter, hexceeds]
      exact ⟨_, rfl⟩
    obtain ⟨number, hcell⟩ := hcell
    rw [numberLiteralText, hcell] at hwritten ⊢
    exact point_mem_numberText hwritten

/-- A numeral is a number, which has a text. -/
theorem textIfNumber_numeralCell (literal : Text) :
    Affinity.textIfNumber (numeralCell literal) = .text (numberLiteralText literal) := by
  have hcell (numeral : Numeral) : (∃ n, numeral.toCell = .integer n) ∨
      ∃ number, numeral.toCell = .real number := by
    unfold Numeral.toCell
    split
    · exact .inl ⟨_, rfl⟩
    · exact .inr ⟨_, rfl⟩
  have hnumber : (∃ n, numeralCell literal = .integer n) ∨
      ∃ number, numeralCell literal = .real number := by
    unfold numeralCell
    dsimp only
    split <;> exact hcell _
  rcases hnumber with ⟨n, hn⟩ | ⟨number, hn⟩
  · rw [numberLiteralText, hn, Affinity.textIfNumber]
  · rw [numberLiteralText, hn, Affinity.textIfNumber]

example :
    ["-12", "-0", "007", "9223372036854775808", "1.50"].map
        (soughtText numberLiteralText ·.toList) =
      ["-12", "0", "7", "9.22337203685478e+18", "1.5"].map (·.toList) := by
  decide +kernel

end Database

end TableBrowser
