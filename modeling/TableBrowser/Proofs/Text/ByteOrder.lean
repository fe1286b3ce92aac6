import Mathlib.Data.List.Basic
import TableBrowser.Text.Utf8

/-!
# The order of bytes

The bytes of two different characters first differ where neither of them is at its end, and
there the character of the smaller code has the smaller byte.  So texts are ordered by their
UTF-8 bytes as they are ordered by the codes of their characters.
-/

namespace TableBrowser.Text

/-- Where two lists first differ, the left one has the smaller byte. -/
def FirstDiffers : List UInt8 → List UInt8 → Prop
  | a :: left, b :: right => a < b ∨ a = b ∧ FirstDiffers left right
  | _, _ => False

/-- What stands behind a difference does not change the order. -/
theorem FirstDiffers.append_lt {left right : List UInt8} (hdiffers : FirstDiffers left right)
    (leftRest rightRest : List UInt8) : left ++ leftRest < right ++ rightRest := by
  induction left generalizing right with
  | nil => exact hdiffers.elim
  | cons a left ih =>
      cases right with
      | nil => exact hdiffers.elim
      | cons b right =>
          rw [List.cons_append, List.cons_append, List.cons_lt_cons_iff]
          exact hdiffers.imp_right fun ⟨heq, hrest⟩ => ⟨heq, ih hrest⟩

theorem toNat_lt_of_char (c : Char) : c.toNat < 0x110000 := by
  rcases c.valid with hlow | ⟨-, hhigh⟩
  · exact Nat.lt_trans hlow (by decide)
  · exact hhigh

theorem not_firstDiffers_nil (right : List UInt8) : ¬ FirstDiffers [] right := nofun

theorem firstDiffers_cons {m n : Nat} (hm : m < 256) (hn : n < 256) {left right : List UInt8} :
    FirstDiffers (UInt8.ofNat m :: left) (UInt8.ofNat n :: right) ↔
      m < n ∨ m = n ∧ FirstDiffers left right := by
  rw [FirstDiffers, UInt8.lt_iff_toNat_lt, ← UInt8.toNat_inj, UInt8.toNat_ofNat_of_lt' hm,
    UInt8.toNat_ofNat_of_lt' hn]

/-- Of two numbers the smaller one has the smaller digit to the base 64 where they first differ. -/
theorem digits_lt {v w : Nat} (hlt : v < w) :
    v / 262144 < w / 262144 ∨ v / 262144 = w / 262144 ∧
      (v / 4096 % 64 < w / 4096 % 64 ∨ v / 4096 % 64 = w / 4096 % 64 ∧
        (v / 64 % 64 < w / 64 % 64 ∨ v / 64 % 64 = w / 64 % 64 ∧ v % 64 < w % 64)) := by
  have hdigit {m n : Nat} (hlt : m < n) : m / 64 < n / 64 ∨ m / 64 = n / 64 ∧ m % 64 < n % 64 := by
    omega
  have htwo (n : Nat) : n / 64 / 64 = n / 4096 := Nat.div_div_eq_div_mul n 64 64
  have hthree (n : Nat) : n / 4096 / 64 = n / 262144 := Nat.div_div_eq_div_mul n 4096 64
  rcases hdigit hlt with hlt | ⟨hlast, hlt⟩
  · rcases hdigit hlt with hlt | ⟨hthird, hlt⟩
    · rw [htwo, htwo] at hlt
      rcases hdigit hlt with hlt | ⟨hsecond, hlt⟩
      · exact .inl (by rwa [hthree, hthree] at hlt)
      · rw [hthree, hthree] at hsecond
        exact .inr ⟨hsecond, .inl hlt⟩
    · rw [htwo, htwo] at hthird
      rw [← hthree, ← hthree, hthird]
      exact .inr ⟨rfl, .inr ⟨rfl, .inl hlt⟩⟩
  · rw [← hthree, ← hthree, ← htwo, ← htwo, hlast]
    exact .inr ⟨rfl, .inr ⟨rfl, .inr ⟨rfl, hlt⟩⟩⟩

theorem firstDiffers_utf8EncodeChar {c d : Char} (hlt : c.toNat < d.toNat) :
    FirstDiffers (String.utf8EncodeChar c) (String.utf8EncodeChar d) := by
  have hbound := toNat_lt_of_char d
  simp only [String.utf8EncodeChar, Char.toNat_val]
  generalize c.toNat = v at hlt
  generalize d.toNat = w at hlt hbound
  by_cases hlong : v ≤ 65535
  · split_ifs <;> simp (disch := omega) only [firstDiffers_cons, not_firstDiffers_nil] <;> omega
  · -- Both characters have four bytes, which hold the digits of their codes.
    have hdigits := digits_lt hlt
    rw [if_neg (by omega), if_neg (by omega), if_neg hlong, if_neg (by omega), if_neg (by omega),
      if_neg (by omega)]
    simp (disch := omega) only [firstDiffers_cons, not_firstDiffers_nil, and_false, or_false,
      Nat.mod_eq_of_lt (show v / 262144 < 8 by omega),
      Nat.mod_eq_of_lt (show w / 262144 < 8 by omega), Nat.add_lt_add_iff_right,
      Nat.add_right_cancel_iff]
    exact hdigits

theorem toUtf8_lt_of_codes_lt {left right : Text}
    (hlt : left.map (·.toNat) < right.map (·.toNat)) : left.toUtf8 < right.toUtf8 := by
  induction left generalizing right with
  | nil =>
      cases right with
      | nil => exact absurd hlt (List.lt_irrefl _)
      | cons d right =>
          have hne : toUtf8 (d :: right) ≠ [] := by
            simp [toUtf8, String.utf8EncodeChar_ne_nil]
          obtain ⟨b, rest, hcons⟩ := List.exists_cons_of_ne_nil hne
          rw [hcons]
          exact List.nil_lt_cons b rest
  | cons c left ih =>
      cases right with
      | nil => exact absurd hlt (List.not_lt_nil _)
      | cons d right =>
          rw [List.map_cons, List.map_cons, List.cons_lt_cons_iff] at hlt
          have hleft : toUtf8 (c :: left) = String.utf8EncodeChar c ++ toUtf8 left := rfl
          have hright : toUtf8 (d :: right) = String.utf8EncodeChar d ++ toUtf8 right := rfl
          rw [hleft, hright]
          rcases hlt with hlt | ⟨heq, hlt⟩
          · exact (firstDiffers_utf8EncodeChar hlt).append_lt _ _
          · rw [Char.toNat_inj.mp heq]
            exact List.append_left_lt (ih hlt)

end TableBrowser.Text
