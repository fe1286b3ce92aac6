import Mathlib.Data.List.Infix
import Mathlib.Data.List.TakeWhile
import TableBrowser.Database.Pattern
import TableBrowser.Filter.Operator
import TableBrowser.Proofs.Text.LetterCase

/-!
# What patterns are like

A text is like a pattern if the pattern can be laid over it: a percent sign over any run of
characters, an underscore over one, and every other character over itself in either letter
case.  The search that compares them gives up early, but finds every way to lay a pattern:
where it is exhausted, no shorter rest of the text is like what is left of the pattern.
-/

namespace TableBrowser.Database

open TableBrowser.Text (lowerChar lowerChar_eq_self sameLetters sameLetters_iff)

/-- A text is like a pattern. -/
inductive Like : Text → Text → Prop
  | nil : Like [] []
  | run (run : Text) {pattern t : Text} (hrest : Like pattern t) : Like ('%' :: pattern) (run ++ t)
  | one (c : Char) {pattern t : Text} (hrest : Like pattern t) : Like ('_' :: pattern) (c :: t)
  | same {p c : Char} {pattern t : Text} (hpercent : p ≠ '%') (hunderscore : p ≠ '_')
      (hsame : lowerChar p = lowerChar c) (hrest : Like pattern t) : Like (p :: pattern) (c :: t)

namespace Like

variable {pattern t : Text} {p c : Char}

theorem nil_iff : Like [] t ↔ t = [] := by
  constructor
  · intro hlike
    cases hlike
    rfl
  · rintro rfl
    exact .nil

theorem run_iff : Like ('%' :: pattern) t ↔ ∃ rest, rest <:+ t ∧ Like pattern rest := by
  constructor
  · intro hlike
    cases hlike with
    | run run hrest => exact ⟨_, List.suffix_append run _, hrest⟩
    | same hpercent => exact absurd rfl hpercent
  · rintro ⟨rest, ⟨run, rfl⟩, hrest⟩
    exact .run run hrest

theorem run_cons_iff :
    Like ('%' :: pattern) (c :: t) ↔ Like pattern (c :: t) ∨ Like ('%' :: pattern) t := by
  simp only [run_iff, List.suffix_cons_iff, or_and_right, exists_or, exists_eq_left]

/-- Where a pattern does not begin with a percent sign, its first character stands for one. -/
theorem cons_iff (hpercent : p ≠ '%') :
    Like (p :: pattern) t ↔
      ∃ c rest, t = c :: rest ∧ (p = '_' ∨ lowerChar p = lowerChar c) ∧ Like pattern rest := by
  constructor
  · intro hlike
    cases hlike with
    | run => exact absurd rfl hpercent
    | one c hrest => exact ⟨c, _, rfl, .inl rfl, hrest⟩
    | same _ _ hsame hrest => exact ⟨_, _, rfl, .inr hsame, hrest⟩
  · rintro ⟨c, rest, rfl, hfits, hrest⟩
    by_cases hunderscore : p = '_'
    · rw [hunderscore]
      exact .one c hrest
    · exact .same hpercent hunderscore (hfits.resolve_left hunderscore) hrest

theorem cons_cons_iff (hpercent : p ≠ '%') :
    Like (p :: pattern) (c :: t) ↔ (p = '_' ∨ lowerChar p = lowerChar c) ∧ Like pattern t := by
  rw [cons_iff hpercent]
  constructor
  · rintro ⟨c, rest, heq, hfits, hrest⟩
    cases heq
    exact ⟨hfits, hrest⟩
  · rintro ⟨hfits, hrest⟩
    exact ⟨c, t, rfl, hfits, hrest⟩

/-- One pattern behind another is laid over two parts of a text. -/
theorem append_iff {left right : Text} :
    Like (left ++ right) t ↔
      ∃ front back, t = front ++ back ∧ Like left front ∧ Like right back := by
  induction left generalizing t with
  | nil =>
      simp only [List.nil_append, nil_iff]
      constructor
      · exact fun hlike => ⟨[], t, rfl, rfl, hlike⟩
      · rintro ⟨front, back, rfl, rfl, hlike⟩
        exact hlike
  | cons p left ih =>
      by_cases hpercent : p = '%'
      · subst hpercent
        simp only [List.cons_append, run_iff, ih]
        constructor
        · rintro ⟨rest, ⟨run, rfl⟩, front, back, rfl, hfront, hback⟩
          exact ⟨run ++ front, back, (List.append_assoc _ _ _).symm,
            ⟨front, List.suffix_append run front, hfront⟩, hback⟩
        · rintro ⟨front, back, rfl, ⟨rest, ⟨run, rfl⟩, hfront⟩, hback⟩
          exact ⟨rest ++ back, ⟨run, (List.append_assoc _ _ _).symm⟩, rest, back, rfl, hfront,
            hback⟩
      · simp only [List.cons_append, cons_iff hpercent, ih]
        constructor
        · rintro ⟨c, rest, rfl, hfits, front, back, rfl, hfront, hback⟩
          exact ⟨c :: front, back, rfl, ⟨c, front, rfl, hfits, hfront⟩, hback⟩
        · rintro ⟨-, back, rfl, ⟨c, front, rfl, hfits, hfront⟩, hback⟩
          exact ⟨c, front ++ back, rfl, hfits, front, back, rfl, hfront, hback⟩

/-- A percent sign is laid over everything. -/
theorem percent (t : Text) : Like ['%'] t :=
  run_iff.mpr ⟨[], List.nil_suffix, .nil⟩

theorem begins_iff : Like (pattern ++ ['%']) t ↔ ∃ part, part <+: t ∧ Like pattern part := by
  rw [append_iff]
  constructor
  · rintro ⟨front, back, rfl, hfront, -⟩
    exact ⟨front, List.prefix_append front back, hfront⟩
  · rintro ⟨part, ⟨back, rfl⟩, hpart⟩
    exact ⟨part, back, rfl, hpart, percent back⟩

theorem contains_iff :
    Like ('%' :: (pattern ++ ['%'])) t ↔ ∃ part, part <:+: t ∧ Like pattern part := by
  simp only [run_iff, begins_iff]
  constructor
  · rintro ⟨rest, hrest, part, hpart, hlike⟩
    exact ⟨part, hpart.isInfix.trans hrest.isInfix, hlike⟩
  · rintro ⟨part, hinside, hlike⟩
    obtain ⟨rest, hpart, hrest⟩ := List.infix_iff_prefix_suffix.mp hinside
    exact ⟨rest, hrest, part, hpart, hlike⟩

/-- Without wildcards, what is like a pattern differs from it in letter case only. -/
theorem iff_sameLetters (hplain : '%' ∉ pattern ∧ '_' ∉ pattern) :
    Like pattern t ↔ sameLetters pattern t = true := by
  rw [sameLetters_iff]
  induction pattern generalizing t with
  | nil => rw [nil_iff]; exact List.map_eq_nil_iff.symm.trans eq_comm
  | cons p pattern ih =>
      simp only [List.mem_cons, not_or] at hplain
      obtain ⟨⟨hpercent, hrestPercent⟩, hunderscore, hrestUnderscore⟩ := hplain
      rw [cons_iff (Ne.symm hpercent)]
      constructor
      · rintro ⟨c, rest, rfl, hfits, hrest⟩
        exact congrArg₂ List.cons (hfits.resolve_left (Ne.symm hunderscore))
          ((ih ⟨hrestPercent, hrestUnderscore⟩).mp hrest)
      · intro hlower
        obtain ⟨c, rest, rfl, hhead, htail⟩ := List.map_eq_cons_iff.mp hlower.symm
        exact ⟨c, rest, rfl, .inr hhead.symm, (ih ⟨hrestPercent, hrestUnderscore⟩).mpr htail.symm⟩

end Like

/-! ## The search -/

theorem foldCase_toNat : ∀ c : Char, foldCase c.toNat = (lowerChar c).toNat := by
  refine Text.forall_char (by decide +kernel) fun c hc => ?_
  rw [lowerChar_eq_self hc, foldCase, if_neg (by omega)]

/-- What comes of comparing a pattern with a text tells whether the text is like it. -/
def Comparing.Tells (pattern t : Text) : Comparing → Prop
  | .fits => Like pattern t
  | .differs => ¬ Like pattern t
  | .exhausted => ∀ rest, rest <:+ t → ¬ Like pattern rest

theorem Comparing.Tells.fits_iff {pattern t : Text} {result : Comparing}
    (htells : result.Tells pattern t) : result = .fits ↔ Like pattern t := by
  cases result with
  | fits => exact iff_of_true rfl htells
  | differs => exact iff_of_false nofun htells
  | exhausted => exact iff_of_false nofun (htells t List.suffix_rfl)

/-- Characters in front that fit change nothing. -/
theorem Comparing.Tells.cons {pattern t : Text} {p c : Char} {result : Comparing}
    (hpercent : p ≠ '%') (hfits : p = '_' ∨ lowerChar p = lowerChar c)
    (htells : result.Tells pattern t) : result.Tells (p :: pattern) (c :: t) := by
  cases result with
  | fits => exact (Like.cons_cons_iff hpercent).mpr ⟨hfits, htells⟩
  | differs => exact fun hlike => htells ((Like.cons_cons_iff hpercent).mp hlike).2
  | exhausted =>
      intro rest hrest hlike
      obtain ⟨d, more, rfl, -, hmore⟩ := (Like.cons_iff hpercent).mp hlike
      rcases List.suffix_cons_iff.mp hrest with heq | hsuffix
      · exact htells more ((List.cons.inj heq).2 ▸ List.suffix_rfl) hmore
      · exact htells more ((List.suffix_cons d more).trans hsuffix) hmore

theorem tells_comparingSuffixes {pattern : Text} {compare : List Nat → Comparing}
    (hcompare : ∀ t : Text, (compare (t.map (·.toNat))).Tells pattern t) (t : Text) :
    (comparingSuffixes compare (t.map (·.toNat))).Tells ('%' :: pattern) t := by
  induction t with
  | nil =>
      have hempty := (hcompare []).fits_iff
      rw [List.map_nil] at hempty ⊢
      rw [comparingSuffixes]
      split
      · next hfits => exact .run [] (hempty.mp hfits)
      · next hfits =>
          intro rest hrest hlike
          rw [List.suffix_nil.mp hrest, Like.run_iff] at hlike
          obtain ⟨rest, hrest, hlike⟩ := hlike
          rw [List.suffix_nil.mp hrest] at hlike
          exact hfits (hempty.mpr hlike)
  | cons c t ih =>
      have hwhole := hcompare (c :: t)
      rw [List.map_cons] at hwhole ⊢
      rw [comparingSuffixes]
      cases hresult : compare (c.toNat :: t.map (·.toNat)) with
      | fits =>
          rw [hresult] at hwhole
          exact .run [] hwhole
      | differs =>
          rw [hresult] at hwhole
          have hshift : Like ('%' :: pattern) (c :: t) ↔ Like ('%' :: pattern) t := by
            rw [Like.run_cons_iff, or_iff_right hwhole]
          dsimp only
          generalize comparingSuffixes compare (t.map (·.toNat)) = result at ih
          cases result with
          | fits => exact hshift.mpr ih
          | differs => exact hshift.not.mpr ih
          | exhausted =>
              intro rest hrest
              rcases List.suffix_cons_iff.mp hrest with rfl | hrest
              · exact hshift.not.mpr (ih t List.suffix_rfl)
              · exact ih rest hrest
      | exhausted =>
          rw [hresult] at hwhole
          intro rest hrest hlike
          obtain ⟨shorter, hshorter, hlike⟩ := Like.run_iff.mp hlike
          exact hwhole shorter (hshorter.trans hrest) hlike

theorem tells_comparing (pattern t : Text) :
    (comparing (pattern.map (·.toNat)) (t.map (·.toNat))).Tells pattern t := by
  induction pattern generalizing t with
  | nil =>
      cases t with
      | nil => exact .nil
      | cons c t => exact fun hlike => List.cons_ne_nil c t (Like.nil_iff.mp hlike)
  | cons p pattern ih =>
      rw [List.map_cons, comparing.eq_def]
      by_cases hpercent : p = '%'
      · rw [hpercent]
        exact tells_comparingSuffixes ih t
      have hcode : p.toNat ≠ percentCode := fun heq => hpercent (Char.toNat_inj.mp heq)
      simp only [if_neg hcode]
      cases t with
      | nil =>
          intro rest hrest hlike
          obtain ⟨c, more, hcons, -⟩ := (Like.cons_iff hpercent).mp hlike
          rw [List.suffix_nil.mp hrest] at hcons
          cases hcons
      | cons c t =>
          have hunderscore : p.toNat = underscoreCode ↔ p = '_' := Char.toNat_inj (d := '_')
          have hfits : (p.toNat = underscoreCode ∨ foldCase p.toNat = foldCase c.toNat) ↔
              (p = '_' ∨ lowerChar p = lowerChar c) := by
            rw [foldCase_toNat, foldCase_toNat, Char.toNat_inj, hunderscore]
          simp only [List.map_cons, hfits]
          split
          · next hsame => exact (ih t).cons hpercent hsame
          · next hdiffers => exact fun hlike => hdiffers ((Like.cons_cons_iff hpercent).mp hlike).1

/-- A text matches a pattern exactly if it is like it. -/
theorem matchesPattern_iff (pattern t : Text) :
    matchesPattern (pattern.map (·.toNat)) (t.map (·.toNat)) = true ↔ Like pattern t := by
  rw [matchesPattern, beq_iff_eq]
  exact (tells_comparing pattern t).fits_iff

/-! ## What of a text is compared -/

/-- A character as it is compared: the last two of the first plane count as no characters. -/
def likedChar (c : Char) : Char :=
  if c.toNat / 2 = 0x7FFF then '\uFFFD' else c

/-- A text as it is compared with a pattern, which is up to its first zero. -/
def likedText (t : Text) : Text :=
  (t.takeWhile (·.toNat ≠ 0)).map likedChar

theorem comparedCode_toNat (c : Char) : comparedCode c.toNat = (likedChar c).toNat := by
  have hsurrogate : c.toNat / 0x800 ≠ 0x1B := by
    rcases c.valid with hlow | ⟨hhigh, -⟩
    · have hlow : c.toNat < 0xD800 := hlow
      omega
    · have hhigh : 0xDFFF < c.toNat := hhigh
      omega
  rw [comparedCode, likedChar]
  split
  · next hcode =>
      rw [if_pos (hcode.resolve_left hsurrogate)]
      rfl
  · next hcode => rw [if_neg fun hlast => hcode (.inr hlast)]

theorem codesOfText_eq (t : Text) : codesOfText t = (likedText t).map (·.toNat) := by
  rw [codesOfText, likedText, List.map_map]
  exact List.map_congr_left fun c _ => comparedCode_toNat c

/-- The character is compared as it is, and does not end the text. -/
def IsLikedChar (c : Char) : Prop :=
  c.toNat ≠ 0 ∧ c.toNat ≠ 0xFFFE ∧ c.toNat ≠ 0xFFFF

instance (c : Char) : Decidable (IsLikedChar c) :=
  inferInstanceAs (Decidable (_ ∧ _))

/-- All characters of the text are compared as they are. -/
def IsLikedText (t : Text) : Prop :=
  ∀ c ∈ t, IsLikedChar c

instance (t : Text) : Decidable (IsLikedText t) :=
  List.decidableBAll IsLikedChar t

/-- Most texts are compared as they are. -/
theorem likedText_eq_self {t : Text} (ht : IsLikedText t) : likedText t = t := by
  rw [likedText, List.takeWhile_eq_self_iff.mpr fun c hc => decide_eq_true (ht c hc).1]
  refine (List.map_congr_left fun c hc => if_neg ?_).trans (List.map_id t)
  obtain ⟨-, hfirst, hsecond⟩ := ht c hc
  omega

theorem matchesPattern_codesOfText_iff {pattern t : Text} (hpattern : IsLikedText pattern)
    (ht : IsLikedText t) :
    matchesPattern (codesOfText pattern) (codesOfText t) = true ↔ Like pattern t := by
  rw [codesOfText_eq, codesOfText_eq, likedText_eq_self hpattern, likedText_eq_self ht,
    matchesPattern_iff]

/-! ## Pattern tests -/

/-- The parts of a text that a pattern test looks at. -/
def LooksAt : Filter.Operator → Text → Text → Prop
  | .contains, part, t => part <:+: t
  | .startsWith, part, t => part <+: t
  | .endsWith, part, t => part <:+ t
  | _, _, _ => False

/-- The pattern of a test is like a text exactly if its value is like a part that it looks at. -/
theorem Like.pattern_iff {op : Filter.Operator} (hop : op.isPattern = true) {value t : Text} :
    Like ((op.pattern? value).getD value) t ↔ ∃ part, LooksAt op part t ∧ Like value part := by
  cases op with
  | contains => exact Like.contains_iff
  | startsWith => exact Like.begins_iff
  | endsWith => exact Like.run_iff
  | equal | notEqual | greater | greaterEqual | less | lessEqual => cases hop

end TableBrowser.Database
