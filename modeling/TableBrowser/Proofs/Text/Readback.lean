import TableBrowser.Text.Digits
import TableBrowser.Text.Span

/-!
# Parts of a text read back

Text that was put together from parts can be taken apart again: a run of
characters ends where the next part begins, a part stands at the bytes behind
what was written before it, and a number is the value of its digits.
-/

namespace TableBrowser.Text

/-- The text does not begin with a character of a class. -/
def StopsRun (class? : Char → Bool) (behind : Text) : Prop :=
  ∀ c ∈ behind.head?, class? c = false

theorem takeWhile_append_of_stopsRun {class? : Char → Bool} {run behind : Text}
    (hrun : ∀ c ∈ run, class? c = true) (hstop : StopsRun class? behind) :
    (run ++ behind).takeWhile class? = run := by
  rw [List.takeWhile_append_of_pos hrun]
  cases behind with
  | nil => simp
  | cons c rest =>
      have hc : class? c = false := hstop c (by simp)
      simp [hc]

theorem dropWhile_append_of_stopsRun {class? : Char → Bool} {run behind : Text}
    (hrun : ∀ c ∈ run, class? c = true) (hstop : StopsRun class? behind) :
    (run ++ behind).dropWhile class? = behind := by
  rw [List.dropWhile_append_of_pos hrun]
  cases behind with
  | nil => simp
  | cons c rest =>
      have hc : class? c = false := hstop c (by simp)
      simp [hc]

/-- A run of characters is told from what stands behind it. -/
theorem append_inj_of_stopsRun {class? : Char → Bool} {left right leftBehind rightBehind : Text}
    (hleft : ∀ c ∈ left, class? c = true) (hright : ∀ c ∈ right, class? c = true)
    (hleftStop : StopsRun class? leftBehind) (hrightStop : StopsRun class? rightBehind)
    (heq : left ++ leftBehind = right ++ rightBehind) :
    left = right ∧ leftBehind = rightBehind := by
  constructor
  · rw [← takeWhile_append_of_stopsRun hleft hleftStop, heq,
      takeWhile_append_of_stopsRun hright hrightStop]
  · rw [← dropWhile_append_of_stopsRun hleft hleftStop, heq,
      dropWhile_append_of_stopsRun hright hrightStop]

/-! ## Slices -/

theorem dropBytes?_append (before behind : Text) :
    dropBytes? (before ++ behind) before.byteSize = some behind := by
  induction before with
  | nil => cases behind <;> rfl
  | cons c rest ih =>
      have hpos : 0 < c.utf8Size := c.utf8Size_pos
      obtain ⟨n, hn⟩ : ∃ n, c.utf8Size + byteSize rest = n + 1 :=
        ⟨c.utf8Size + byteSize rest - 1, by omega⟩
      rw [List.cons_append, byteSize_cons, hn, dropBytes?, if_pos (by omega), ← hn,
        Nat.add_sub_cancel_left]
      exact ih

theorem takeBytes?_append (part behind : Text) :
    takeBytes? (part ++ behind) part.byteSize = some part := by
  induction part with
  | nil => cases behind <;> rfl
  | cons c rest ih =>
      have hpos : 0 < c.utf8Size := c.utf8Size_pos
      obtain ⟨n, hn⟩ : ∃ n, c.utf8Size + byteSize rest = n + 1 :=
        ⟨c.utf8Size + byteSize rest - 1, by omega⟩
      rw [List.cons_append, byteSize_cons, hn, takeBytes?, if_pos (by omega), ← hn,
        Nat.add_sub_cancel_left, ih]
      rfl

/-- A part stands at the bytes between what was written before it and what was
written behind it. -/
theorem slice?_append (before part behind : Text) :
    slice? (before ++ (part ++ behind))
        ⟨before.byteSize, before.byteSize + part.byteSize⟩ = some part := by
  simp [slice?, dropBytes?_append, takeBytes?_append]

/-! ## Parts around a separator -/

theorem eq_of_splitOnce? {separator : Char} {t before behind : Text}
    (hsplit : splitOnce? separator t = some (before, behind)) :
    t = before ++ separator :: behind := by
  induction t generalizing before behind with
  | nil => simp [splitOnce?] at hsplit
  | cons c rest ih =>
      rw [splitOnce?] at hsplit
      by_cases hc : c = separator
      · rw [if_pos hc] at hsplit
        cases hsplit
        simp [hc]
      · rw [if_neg hc] at hsplit
        obtain ⟨⟨inner, outer⟩, hinner, heq⟩ := Option.map_eq_some_iff.mp hsplit
        cases heq
        rw [ih hinner, List.cons_append]

theorem splitOnce?_append {separator : Char} {before : Text} (behind : Text)
    (hbefore : ∀ c ∈ before, c ≠ separator) :
    splitOnce? separator (before ++ separator :: behind) = some (before, behind) := by
  induction before with
  | nil => simp [splitOnce?]
  | cons c rest ih =>
      have hc : c ≠ separator := hbefore c (by simp)
      have hrest : ∀ d ∈ rest, d ≠ separator := fun d hd => hbefore d (by simp [hd])
      rw [List.cons_append, splitOnce?, if_neg hc, ih hrest]
      rfl

theorem splitOnce?_of_not_mem {separator : Char} {t : Text} (hfree : separator ∉ t) :
    splitOnce? separator t = none := by
  rw [Option.eq_none_iff_forall_ne_some]
  rintro ⟨before, behind⟩ hsplit
  rw [eq_of_splitOnce? hsplit] at hfree
  exact hfree (by simp)

/-! ## Words -/

/-- A text of word characters, with at least one of them. -/
structure IsWord (t : Text) : Prop where
  ne_nil : t ≠ []
  chars : ∀ c ∈ t, isWordChar c = true

theorem isWord_iff (t : Text) : (!t.isEmpty && t.all isWordChar) = true ↔ IsWord t := by
  rw [Bool.and_eq_true, List.all_eq_true, Bool.not_eq_true', List.isEmpty_eq_false_iff]
  constructor
  · rintro ⟨hne, hchars⟩
    exact ⟨hne, hchars⟩
  · rintro ⟨hne, hchars⟩
    exact ⟨hne, hchars⟩

instance : DecidablePred IsWord := fun t => decidable_of_iff _ (isWord_iff t)

/-! ## Numbers -/

theorem isWordChar_of_isDigit {c : Char} (hc : isDigit c = true) : isWordChar c = true := by
  simp [isWordChar, hc]

theorem isDigit_digitChar (n : Nat) : isDigit (digitChar n) = true := by
  have hdigits : ∀ d < 10, isDigit (Char.ofNat ('0'.toNat + d)) = true := by decide
  exact hdigits (n % 10) (Nat.mod_lt n (by decide))

theorem digitValue_digitChar (n : Nat) : digitValue (digitChar n) = n % 10 := by
  have hdigits : ∀ d < 10, digitValue (Char.ofNat ('0'.toNat + d)) = d := by decide
  exact hdigits (n % 10) (Nat.mod_lt n (by decide))

theorem isDigit_of_mem_ofNat (n : Nat) : ∀ c ∈ ofNat n, isDigit c = true := by
  induction n using ofNat.induct with
  | case1 n hn =>
      intro c hc
      rw [ofNat, if_pos hn, List.mem_singleton] at hc
      rw [hc]
      exact isDigit_digitChar n
  | case2 n hn ih =>
      intro c hc
      rw [ofNat, if_neg hn, List.mem_append, List.mem_singleton] at hc
      rcases hc with hc | hc
      · exact ih c hc
      · rw [hc]
        exact isDigit_digitChar n

theorem ofNat_ne_nil (n : Nat) : ofNat n ≠ [] := by
  rw [ofNat]
  split <;> simp

theorem isWord_ofNat (n : Nat) : IsWord (ofNat n) where
  ne_nil := ofNat_ne_nil n
  chars := fun c hc => isWordChar_of_isDigit (isDigit_of_mem_ofNat n c hc)

theorem digitsValue_ofNat (n : Nat) : digitsValue 0 (ofNat n) = n := by
  induction n using ofNat.induct with
  | case1 n hn =>
      rw [ofNat, if_pos hn]
      simp only [digitsValue, List.foldl_cons, List.foldl_nil, digitValue_digitChar]
      omega
  | case2 n hn ih =>
      have hstep : digitsValue 0 (ofNat (n / 10) ++ [digitChar n]) =
          10 * digitsValue 0 (ofNat (n / 10)) + digitValue (digitChar n) := by
        simp [digitsValue]
      rw [ofNat, if_neg hn, hstep, ih, digitValue_digitChar]
      omega

theorem toNat?_ofNat (n : Nat) : toNat? (ofNat n) = some n := by
  have hall : (ofNat n).all isDigit = true :=
    List.all_eq_true.mpr (isDigit_of_mem_ofNat n)
  simp [toNat?, ofNat_ne_nil, hall, digitsValue_ofNat]

end TableBrowser.Text
