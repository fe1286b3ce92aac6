import Mathlib.Data.List.TakeWhile
import TableBrowser.Proofs.Database.Readable
import TableBrowser.Sql.Statement

/-!
# Statements without a zero

A database reads the text of a statement only up to its first zero.  The statements of a page
have a zero only if one of their names or their clause has it, and are read to their end
otherwise.
-/

namespace TableBrowser.Sql

open TableBrowser.Filter TableBrowser.Paging TableBrowser.Text

/-- Nothing in the text ends the reading of a statement. -/
def IsReadable (t : Text) : Prop :=
  zeroChar ∉ t

instance : DecidablePred IsReadable :=
  fun t => inferInstanceAs (Decidable (zeroChar ∉ t))

theorem IsReadable.append {left right : Text} (hleft : IsReadable left)
    (hright : IsReadable right) : IsReadable (left ++ right) :=
  fun hmem => (List.mem_append.mp hmem).elim hleft hright

theorem isReadable_of_class {class? : Char → Bool} (hzero : class? zeroChar = false) {t : Text}
    (hclass : ∀ c ∈ t, class? c = true) : IsReadable t := by
  intro hmem
  rw [hclass zeroChar hmem] at hzero
  cases hzero

theorem isReadable_quoted {mark : Char} (hmark : zeroChar ≠ mark) {t : Text}
    (ht : IsReadable t) : IsReadable (quoted mark t) := by
  intro hmem
  rw [quoted, List.cons_append, List.mem_cons, List.mem_append, List.mem_singleton] at hmem
  rcases hmem with heq | hmem | heq
  · exact hmark heq
  · obtain ⟨c, hc, hzero⟩ := List.mem_flatMap.mp hmem
    split at hzero
    · simp only [List.mem_cons, List.not_mem_nil, or_false, or_self] at hzero
      exact hmark hzero
    · rw [List.mem_singleton] at hzero
      exact ht (hzero ▸ hc)
  · exact hmark heq

theorem isReadable_quotedName {name : Text} (hname : IsReadable name) :
    IsReadable (quotedName name) :=
  isReadable_quoted (by decide) hname

theorem isReadable_whereText {clause? : Option Text}
    (hclause : ∀ clause, clause? = some clause → IsReadable clause) :
    IsReadable (whereText clause?) := by
  cases clause? with
  | none => exact List.not_mem_nil
  | some clause =>
      have hkeyword : IsReadable " WHERE ".toList := by decide +kernel
      exact hkeyword.append (hclause clause rfl)

theorem isReadable_countText {table : Text} {clause? : Option Text} (htable : IsReadable table)
    (hclause : ∀ clause, clause? = some clause → IsReadable clause) :
    IsReadable (countText table clause?) := by
  have hhead : IsReadable "SELECT COUNT(*) FROM ".toList := by decide +kernel
  exact (hhead.append (isReadable_quotedName htable)).append (isReadable_whereText hclause)

theorem isReadable_orderText {orderBy? : Option Text} (direction? : Option Direction)
    (horder : ∀ column, orderBy? = some column → IsReadable column) :
    IsReadable (orderText orderBy? direction?) := by
  cases orderBy? with
  | none => exact List.not_mem_nil
  | some column =>
      have hkeyword : IsReadable " ORDER BY ".toList := by decide +kernel
      have hblank : IsReadable " ".toList := by decide +kernel
      have hdirection : IsReadable (direction?.getD .ascending).keyword := by
        cases direction?.getD .ascending <;> decide +kernel
      exact ((hkeyword.append (isReadable_quotedName (horder column rfl))).append
        hblank).append hdirection

theorem isReadable_pageText {table : Text} {clause? orderBy? : Option Text}
    (direction? : Option Direction) (htable : IsReadable table)
    (hclause : ∀ clause, clause? = some clause → IsReadable clause)
    (horder : ∀ column, orderBy? = some column → IsReadable column) :
    IsReadable (pageText table clause? orderBy? direction?) := by
  have hhead : IsReadable "SELECT * FROM ".toList := by decide +kernel
  have hending : IsReadable " LIMIT ?1 OFFSET ?2".toList := by decide +kernel
  exact (((hhead.append (isReadable_quotedName htable)).append
    (isReadable_whereText hclause)).append (isReadable_orderText direction? horder)).append
      hending

/-- Both statements of a page are read to their end. -/
structure AreReadable (table : Text) (request : PageRequest) : Prop where
  counts : IsReadable (countText table request.clause?)
  selects : IsReadable (pageText table request.clause? request.orderBy? request.direction?)

theorem areReadable_of_names {table clause : Text} {request : PageRequest}
    (htable : IsReadable table) (hclause : IsReadable clause)
    (horder : ∀ column, request.orderBy? = some column → IsReadable column) :
    AreReadable table { request with clause? := some clause } where
  counts := isReadable_countText htable fun _ heq => Option.some.inj heq ▸ hclause
  selects := isReadable_pageText request.direction? htable
    (fun _ heq => Option.some.inj heq ▸ hclause) horder

theorem readableText_eq_self {t : Text} (ht : IsReadable t) : Database.readableText t = t := by
  refine List.takeWhile_eq_self_iff.mpr fun c hc => ?_
  rw [decide_eq_true_iff]
  intro hzero
  exact ht (Database.eq_zeroChar_of_toNat hzero ▸ hc)

end TableBrowser.Sql
