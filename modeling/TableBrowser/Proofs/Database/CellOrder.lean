import Mathlib.Algebra.Order.Field.Rat
import Mathlib.Data.List.Lex
import Mathlib.Data.Prod.Lex
import Mathlib.Data.Rat.Cast.Order
import Mathlib.Order.Compare
import TableBrowser.Database.Cell

/-!
# The order of cells

Cells are put in order by comparing them pair by pair, and numbers are compared by
exact whole-number arithmetic.  Each cell has a key in a linear order, and the order of
two cells is that of their keys: first the kind, then the value of a number, with
numbers that are not finite on either side, or the codes of a text.  So sorting cells
puts them in order.
-/

namespace TableBrowser

open Binary64 (signed twoTo)

/-- What values are ordered by: a rank, then a number, then a row of codes. -/
abbrev CellKey := ℕ ×ₗ ℚ ×ₗ List ℕ

namespace CellKey

def ofRank (rank : ℕ) : CellKey :=
  toLex (rank, toLex (0, []))

/-- The key of a number: numbers that are not finite stand on either side. -/
def ofValue (value : ℚ) : CellKey :=
  toLex (3, toLex (value, []))

def ofCodes (rank : ℕ) (codes : List ℕ) : CellKey :=
  toLex (rank, toLex (0, codes))

theorem lt_of_rank {a b : CellKey} (hrank : (ofLex a).1 < (ofLex b).1) : a < b :=
  Prod.Lex.toLex_lt_toLex.mpr (.inl hrank)

theorem ofValue_strictMono : StrictMono ofValue := by
  intro a b hlt
  exact Prod.Lex.toLex_lt_toLex.mpr (.inr ⟨rfl, Prod.Lex.toLex_lt_toLex.mpr (.inl hlt)⟩)

theorem ofCodes_strictMono (rank : ℕ) : StrictMono (ofCodes rank) := by
  intro a b hlt
  exact Prod.Lex.toLex_lt_toLex.mpr (.inr ⟨rfl, Prod.Lex.toLex_lt_toLex.mpr (.inr ⟨rfl, hlt⟩)⟩)

end CellKey

/-! ## Orders that compare keys -/

theorem compares_map {α β : Type} [Preorder α] [Preorder β] {f : α → β} (hf : StrictMono f)
    {order : Ordering} {a b : α} (hcompares : order.Compares a b) : order.Compares (f a) (f b) := by
  cases order with
  | lt => exact hf hcompares
  | eq => exact congrArg f hcompares
  | gt => exact hf hcompares

theorem compares_compare {α : Type} [LinearOrder α] (a b : α) :
    (compare a b).Compares a b := by
  rw [← cmp_eq_compare]
  exact cmp_compares a b

theorem compares_compareOfLessAndEq {α : Type} [LinearOrder α] [DecidableEq α] (a b : α)
    [Decidable (a < b)] : (compareOfLessAndEq a b).Compares a b := by
  unfold compareOfLessAndEq
  split
  · next hlt => exact hlt
  · next hlt =>
      split
      · next heq => exact heq
      · next hne => exact lt_of_le_of_ne (not_lt.mp hlt) (Ne.symm hne)

/-! ## Numbers -/

namespace Binary64

/-- The value of `m * 2 ^ e`. -/
def scaledValue (m e : Int) : ℚ := m * 2 ^ e

theorem compareScaled_compares (m e n f : Int) :
    (compareScaled m e n f).Compares (scaledValue m e) (scaledValue n f) := by
  have hscale : ∀ k g : Int, min e f ≤ g →
      scaledValue k g = ((k * twoTo (g - min e f).toNat : Int) : ℚ) * 2 ^ (min e f) := by
    intro k g hle
    have hexponent : ((g - min e f).toNat : ℤ) = g - min e f :=
      Int.toNat_of_nonneg (Int.sub_nonneg_of_le hle)
    have hpower : ((twoTo (g - min e f).toNat : ℕ) : ℚ) = 2 ^ (g - min e f) := by
      rw [twoTo, Nat.pow_eq, Nat.cast_pow, Nat.cast_ofNat, ← zpow_natCast, hexponent]
    rw [Int.cast_mul, Int.cast_natCast, hpower, mul_assoc, ← zpow_add₀ two_ne_zero,
      sub_add_cancel, scaledValue]
  rw [hscale m e (min_le_left _ _), hscale n f (min_le_right _ _)]
  have hmono : StrictMono fun k : Int => (k : ℚ) * 2 ^ (min e f) := by
    intro a b hlt
    have hpos : (0 : ℚ) < 2 ^ (min e f) := zpow_pos two_pos _
    exact mul_lt_mul_of_pos_right (by exact_mod_cast hlt) hpos
  exact compares_map hmono (compares_compare _ _)

/-- The key by which a number is ordered. -/
def key : Binary64 → CellKey
  | .nan => .ofRank 1
  | .infinite true => .ofRank 2
  | .finite negative significand exponent =>
    .ofValue (scaledValue (signed negative significand) exponent)
  | .infinite false => .ofRank 4

theorem order_compares (a b : Binary64) : (order a b).Compares a.key b.key := by
  cases a with
  | finite =>
      cases b with
      | finite => exact compares_map CellKey.ofValue_strictMono (compareScaled_compares _ _ _ _)
      | infinite negative => cases negative <;> exact CellKey.lt_of_rank (of_decide_eq_true rfl)
      | nan => exact CellKey.lt_of_rank (of_decide_eq_true rfl)
  | infinite left =>
      cases b with
      | finite => cases left <;> exact CellKey.lt_of_rank (of_decide_eq_true rfl)
      | infinite right =>
          cases left <;> cases right <;>
            first | rfl | exact CellKey.lt_of_rank (of_decide_eq_true rfl)
      | nan => cases left <;> exact CellKey.lt_of_rank (of_decide_eq_true rfl)
  | nan =>
      cases b with
      | infinite negative => cases negative <;> exact CellKey.lt_of_rank (of_decide_eq_true rfl)
      | finite => exact CellKey.lt_of_rank (of_decide_eq_true rfl)
      | nan => rfl

theorem orderInt_compares (n : Int) (b : Binary64) :
    (orderInt n b).Compares (CellKey.ofValue n) b.key := by
  cases b with
  | finite negative significand exponent =>
      have hvalue : scaledValue n 0 = n := by rw [scaledValue, zpow_zero, mul_one]
      have hcompares := compareScaled_compares n 0 (signed negative significand) exponent
      rw [hvalue] at hcompares
      exact compares_map CellKey.ofValue_strictMono hcompares
  | infinite negative => cases negative <;> exact CellKey.lt_of_rank (of_decide_eq_true rfl)
  | nan => exact CellKey.lt_of_rank (of_decide_eq_true rfl)

end Binary64

/-! ## Cells -/

namespace Database.Cell

/-- What cells of one kind are ordered by. -/
def content : Cell → CellKey
  | .null => .ofRank 0
  | .integer value => .ofValue value
  | .real value => value.key
  | .text value => .ofCodes 0 (value.map (·.toNat))
  | .blob bytes => .ofCodes 0 (bytes.map (·.toNat))

/-- The key by which a cell is ordered. -/
def key (cell : Cell) : ℕ ×ₗ CellKey :=
  toLex (cell.kindRank, cell.content)

theorem compares_of_content {a b : Cell} {order : Ordering} (hkind : a.kindRank = b.kindRank)
    (hcontent : order.Compares a.content b.content) : order.Compares a.key b.key := by
  have hmono : StrictMono fun content : CellKey => toLex (b.kindRank, content) :=
    fun _ _ hlt => Prod.Lex.toLex_lt_toLex.mpr (.inr ⟨rfl, hlt⟩)
  rw [key, key, hkind]
  exact compares_map hmono hcontent

theorem compares_of_kindRank {a b : Cell} (hkind : a.kindRank ≠ b.kindRank) :
    (compare a.kindRank b.kindRank).Compares a.key b.key := by
  have hcompares := compares_compare a.kindRank b.kindRank
  cases horder : compare a.kindRank b.kindRank with
  | lt =>
      rw [horder] at hcompares
      exact Prod.Lex.toLex_lt_toLex.mpr (.inl hcompares)
  | eq =>
      rw [horder] at hcompares
      exact absurd hcompares hkind
  | gt =>
      rw [horder] at hcompares
      exact Prod.Lex.toLex_lt_toLex.mpr (.inl hcompares)

/-- Cells are ordered by their keys. -/
theorem order_compares (a b : Cell) : (a.order b).Compares a.key b.key := by
  cases a with
  | null =>
      cases b with
      | null => rfl
      | integer | real | text | blob => exact compares_of_kindRank (by simp [kindRank])
  | integer a =>
      cases b with
      | integer b =>
          refine compares_of_content rfl (compares_map CellKey.ofValue_strictMono ?_)
          exact compares_map Int.cast_strictMono (compares_compare a b)
      | real b => exact compares_of_content rfl (Binary64.orderInt_compares a b)
      | null | text | blob => exact compares_of_kindRank (by simp [kindRank])
  | real a =>
      cases b with
      | integer b => exact compares_of_content rfl (Binary64.orderInt_compares b a).swap
      | real b => exact compares_of_content rfl (Binary64.order_compares a b)
      | null | text | blob => exact compares_of_kindRank (by simp [kindRank])
  | text a =>
      cases b with
      | text b =>
          refine compares_of_content rfl (compares_map (CellKey.ofCodes_strictMono 0) ?_)
          exact compares_compareOfLessAndEq _ _
      | null | integer | real | blob => exact compares_of_kindRank (by simp [kindRank])
  | blob a =>
      cases b with
      | blob b =>
          refine compares_of_content rfl (compares_map (CellKey.ofCodes_strictMono 0) ?_)
          exact compares_compareOfLessAndEq _ _
      | null | integer | real | text => exact compares_of_kindRank (by simp [kindRank])

theorem order_isLE_iff (a b : Cell) : (a.order b).isLE = true ↔ a.key ≤ b.key := by
  rw [← (order_compares a b).ne_gt, Ordering.isLE_iff_ne_gt]

theorem order_isGE_iff (a b : Cell) : (a.order b).isGE = true ↔ b.key ≤ a.key := by
  rw [← (order_compares a b).ne_lt, Ordering.isGE_iff_ne_lt]

theorem order_isEq_iff (a b : Cell) : (a.order b).isEq = true ↔ a.key = b.key := by
  rw [← (order_compares a b).eq_eq, Ordering.isEq_iff_eq_eq]

/-- Unlike numbers, texts and bytes are told by their keys. -/
theorem eq_of_key_eq {a b : Cell} (hkind : 2 ≤ b.kindRank) (hkey : a.key = b.key) : a = b := by
  have hrank : a.kindRank = b.kindRank := congrArg (fun key => (ofLex key).1) hkey
  have hcontent : a.content = b.content := congrArg (fun key => (ofLex key).2) hkey
  cases b with
  | null | integer | real => exact absurd hkind (by simp [kindRank])
  | text t =>
      cases a with
      | text s =>
          have hcodes := (CellKey.ofCodes_strictMono 0).injective hcontent
          rw [List.map_injective_iff.mpr (fun _ _ => Char.toNat_inj.mp) hcodes]
      | null | integer | real | blob => cases hrank
  | blob bytes =>
      cases a with
      | blob stored =>
          have hcodes := (CellKey.ofCodes_strictMono 0).injective hcontent
          rw [List.map_injective_iff.mpr (fun _ _ => UInt8.toNat_inj.mp) hcodes]
      | null | integer | real | text => cases hrank

variable {α : Type}

/-- Sorting by cells sorts by their keys. -/
theorem pairwise_mergeSort_isLE (cell : α → Cell) (items : List α) :
    (items.mergeSort fun a b => ((cell a).order (cell b)).isLE).Pairwise
      fun a b => (cell a).key ≤ (cell b).key := by
  refine (List.pairwise_mergeSort ?_ ?_ items).imp fun hle => (order_isLE_iff _ _).mp hle
  · intro a b c hab hbc
    rw [order_isLE_iff] at hab hbc ⊢
    exact hab.trans hbc
  · intro a b
    rw [Bool.or_eq_true, order_isLE_iff, order_isLE_iff]
    exact le_total _ _

theorem pairwise_mergeSort_isGE (cell : α → Cell) (items : List α) :
    (items.mergeSort fun a b => ((cell a).order (cell b)).isGE).Pairwise
      fun a b => (cell b).key ≤ (cell a).key := by
  refine (List.pairwise_mergeSort ?_ ?_ items).imp fun hle => (order_isGE_iff _ _).mp hle
  · intro a b c hab hbc
    rw [order_isGE_iff] at hab hbc ⊢
    exact hbc.trans hab
  · intro a b
    rw [Bool.or_eq_true, order_isGE_iff, order_isGE_iff]
    exact le_total _ _

/-- Items whose cells compare equal stay in their places when they are sorted. -/
theorem mergeSort_of_key_eq (cell : α → Cell) {items : List α}
    (hequal : items.Pairwise fun a b => (cell a).key = (cell b).key) :
    (items.mergeSort fun a b => ((cell a).order (cell b)).isLE) = items :=
  List.mergeSort_of_pairwise (hequal.imp fun heq => (order_isLE_iff _ _).mpr heq.le)

end Database.Cell

end TableBrowser
