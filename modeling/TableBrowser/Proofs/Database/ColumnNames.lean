import TableBrowser.Database.Evaluate
import TableBrowser.Proofs.Text.LetterCase

/-!
# Names of columns

A word on the left side of a comparison refers to the column that has it as its name, without
regard to letter case, unless it begins with a digit or stands for a constant.  Then it refers
to the constant, whatever the columns are called.
-/

namespace TableBrowser

open TableBrowser.Text (sameLetters sameLetters_iff)

namespace Database

/-! ## Words that differ in letter case -/

theorem ConstantWord.ofWord?_congr {left right : Text} (hsame : sameLetters left right = true) :
    ofWord? left = ofWord? right := by
  have htest : (fun word : ConstantWord => sameLetters word.name left) =
      fun word => sameLetters word.name right := by
    funext word
    exact Text.sameLetters_congr hsame word.name
  rw [ofWord?, ofWord?, htest]

/-- A word that is neither a number nor a constant. -/
structure IsName (word : Text) : Prop where
  not_number : word.head?.any Text.isDigit = false
  not_constant : ConstantWord.ofWord? word = none

theorem isName_iff (word : Text) :
    IsName word ↔ word.head?.any Text.isDigit = false ∧ ConstantWord.ofWord? word = none :=
  ⟨fun hname => ⟨hname.1, hname.2⟩, fun ⟨hnumber, hconstant⟩ => ⟨hnumber, hconstant⟩⟩

instance : DecidablePred IsName :=
  fun word => decidable_of_iff' _ (isName_iff word)

/-- Letter case plays no part in whether a word is a name. -/
theorem isName_congr {left right : Text} (hsame : sameLetters left right = true) :
    IsName left ↔ IsName right := by
  rw [isName_iff, isName_iff, ConstantWord.ofWord?_congr hsame, ← Text.beginsWithDigit_lower left,
    ← Text.beginsWithDigit_lower right, sameLetters_iff.mp hsame]

/-! ## What a word refers to -/

/-- The column at a place has a name that no other column has, whatever the letter case. -/
structure Source.HasColumn (source : Source) (column : Column) (place : Nat) : Prop where
  at_place : source.columns[place]? = some column
  unique : ∀ other namesake, source.columns[other]? = some namesake →
    sameLetters namesake.name column.name = true → other = place

variable {source : Source} {column : Column} {place : Nat} {word : Text} {now : Int}

theorem Source.HasColumn.column?_eq (hcolumn : source.HasColumn column place)
    (hword : sameLetters word column.name = true) :
    (Scope.ofSource source).column? word = some (.column place (.ofType column.type)) := by
  have hfirst : source.columns.findIdx? (sameLetters ·.name word) = some place := by
    cases hfind : source.columns.findIdx? (sameLetters ·.name word) with
    | none =>
        have hnone := List.findIdx?_eq_none_iff.mp hfind column
          (List.mem_of_getElem? hcolumn.at_place)
        rw [sameLetters, ← sameLetters_iff.mp hword, beq_self_eq_true] at hnone
        cases hnone
    | some other =>
        obtain ⟨hlt, hsame, -⟩ := List.findIdx?_eq_some_iff_getElem.mp hfind
        rw [Text.sameLetters_congr hword] at hsame
        rw [hcolumn.unique other _ (List.getElem?_eq_getElem hlt) hsame]
  simp only [Scope.column?, Scope.ofSource, hfirst, hcolumn.at_place, bind, Option.bind_some, pure]

/-- A name refers to the column that has it. -/
theorem Source.HasColumn.reference?_of_isName (hcolumn : source.HasColumn column place)
    (hword : sameLetters word column.name = true) (hname : IsName word) :
    (Scope.ofSource source).reference? now word =
      some (.column place (.ofType column.type)) := by
  rw [Scope.reference?, hname.not_number, if_neg Bool.false_ne_true, hname.not_constant]
  dsimp only
  rw [Scope.named?, hcolumn.column?_eq hword, Option.some_or, Option.some_or]

/-- Any other word refers to a constant. -/
theorem Scope.exists_constant {scope : Scope} (hname : ¬ IsName word) :
    ∃ constant, scope.reference? now word = some (.constant constant) := by
  rw [Scope.reference?]
  split
  · exact ⟨_, rfl⟩
  · next hnumber =>
      cases hconstant : ConstantWord.ofWord? word with
      | none => exact absurd ⟨Bool.eq_false_iff.mpr hnumber, hconstant⟩ hname
      | some constant => exact ⟨_, rfl⟩

end Database

end TableBrowser
