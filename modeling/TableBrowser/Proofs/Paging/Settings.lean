import TableBrowser.Paging.Config

/-!
# Sizes made by settings

Each setting writes one part of a configuration, so the last setting of a part holds.  No
setting makes an empty page, and neither does the advice.
-/

namespace TableBrowser.Paging

namespace Setting

def fixedRows? : Setting → Option Nat
  | .fixedSize rows => some rows
  | _ => none

def initialRows? : Setting → Option Nat
  | .initialSize rows => some rows
  | _ => none

end Setting

/-- Where each step writes a value or leaves the one before, the last value written is
found in the end. -/
theorem read_foldl {σ α β γ : Type} {step : σ → α → σ} {read : σ → β} {value : γ → β}
    {write? : α → Option γ}
    (hstep : ∀ state item,
      read (step state item) = ((write? item).map value).getD (read state))
    (items : List α) (state : σ) :
    read (items.foldl step state) =
      ((items.filterMap write?).getLast?.map value).getD (read state) := by
  induction items generalizing state with
  | nil => rfl
  | cons item items ih =>
      rw [List.foldl_cons, ih, hstep]
      cases hwrite : write? item with
      | none => simp [hwrite]
      | some written =>
          rw [List.filterMap_cons, hwrite, List.getLast?_cons]
          cases (items.filterMap write?).getLast? <;> rfl

theorem advisedSize_pos (total : Nat) : 0 < advisedSize total := by
  grind [advisedSize]

namespace Config

theorem fixedSize?_ofSettings (settings : List Setting) :
    (ofSettings settings).fixedSize? =
      (settings.filterMap Setting.fixedRows?).getLast?.map (max · 1) := by
  have hlast : (ofSettings settings).fixedSize? =
      ((settings.filterMap Setting.fixedRows?).getLast?.map fun rows =>
        some (max rows 1)).getD standard.fixedSize? :=
    read_foldl (fun config setting => by cases setting <;> rfl) settings standard
  rw [hlast]
  cases (settings.filterMap Setting.fixedRows?).getLast? <;> rfl

theorem initialSize_ofSettings (settings : List Setting) :
    (ofSettings settings).initialSize =
      ((settings.filterMap Setting.initialRows?).getLast?.map (max · 1)).getD
        defaultInitialSize :=
  read_foldl (fun config setting => by cases setting <;> rfl) settings standard

/-- A size that is fixed, or else one that is not empty either. -/
theorem fixedSize?_getD_pos (settings : List Setting) {size : Nat} (hsize : 0 < size) :
    0 < (ofSettings settings).fixedSize?.getD size := by
  rw [fixedSize?_ofSettings]
  cases (settings.filterMap Setting.fixedRows?).getLast? with
  | none => exact hsize
  | some rows => exact Nat.le_max_right rows 1

theorem startingSize_pos (settings : List Setting) :
    0 < (ofSettings settings).startingSize := by
  apply fixedSize?_getD_pos
  rw [initialSize_ofSettings]
  cases (settings.filterMap Setting.initialRows?).getLast? with
  | none => decide
  | some rows => exact Nat.le_max_right rows 1

theorem nextSize_pos (settings : List Setting) (total : Nat) :
    0 < (ofSettings settings).nextSize total :=
  fixedSize?_getD_pos settings (advisedSize_pos total)

end Config

end TableBrowser.Paging
