import Mathlib.Data.List.Basic
import TableBrowser.Text.Basic

/-!
# Letter case

Only the letters of ASCII have two cases.  What is claimed of every character is shown for
the characters of ASCII one by one, and for the others from having one case.
-/

namespace TableBrowser.Text

/-- What holds of ASCII and of all characters behind it holds of every character. -/
theorem forall_char {P : Char → Prop} (hascii : ∀ n < 128, P (Char.ofNat n))
    (hbeyond : ∀ c : Char, 128 ≤ c.toNat → P c) (c : Char) : P c := by
  by_cases hc : c.toNat < 128
  · have hchar := hascii c.toNat hc
    rwa [Char.ofNat_toNat] at hchar
  · exact hbeyond c (Nat.le_of_not_lt hc)

theorem lowerChar_eq_self {c : Char} (hc : 128 ≤ c.toNat) : lowerChar c = c := by
  refine if_neg fun hupper => ?_
  have hle : c.toNat ≤ 'Z'.toNat := Char.le_def.mp hupper.2
  exact absurd (Nat.le_trans hc hle) (by decide)

theorem sameLetters_iff {left right : Text} :
    sameLetters left right = true ↔ lower left = lower right :=
  beq_iff_eq

theorem sameLetters_refl (t : Text) : sameLetters t t = true :=
  sameLetters_iff.mpr rfl

theorem sameLetters_comm (left right : Text) : sameLetters left right = sameLetters right left :=
  BEq.comm

theorem sameLetters_congr {left right : Text} (hsame : sameLetters left right = true)
    (other : Text) : sameLetters other left = sameLetters other right := by
  rw [sameLetters, sameLetters, sameLetters_iff.mp hsame]

theorem lower_append (left right : Text) : lower (left ++ right) = lower left ++ lower right :=
  List.map_append

theorem lower_take (n : Nat) (t : Text) : lower (t.take n) = (lower t).take n :=
  List.map_take

theorem lower_drop (n : Nat) (t : Text) : lower (t.drop n) = (lower t).drop n :=
  List.map_drop

theorem lowerChar_eq_hyphen_iff : ∀ c : Char, lowerChar c = '-' ↔ c = '-' := by
  refine forall_char (by decide +kernel) fun c hc => ?_
  rw [lowerChar_eq_self hc]

theorem isDigit_lowerChar : ∀ c : Char, isDigit (lowerChar c) = isDigit c := by
  refine forall_char (by decide +kernel) fun c hc => ?_
  rw [lowerChar_eq_self hc]

theorem beginsWithDigit_lower (t : Text) :
    (lower t).head?.any isDigit = t.head?.any isDigit := by
  cases t with
  | nil => rfl
  | cons c rest => exact isDigit_lowerChar c

end TableBrowser.Text
