import Mathlib.Data.List.Chain
import TableBrowser.Filter.Token
import TableBrowser.Proofs.Text.Readback

/-!
# Where a source is cut into tokens

The tokens of a text stand one behind the other, and each goes as far as it can.  A reader
that shows and takes them one at a time gives them in this order: what it has shown is no
longer in the unread text, but still to be taken.
-/

namespace TableBrowser.Filter

open TableBrowser.Text (StopsRun dropWhile_append_of_stopsRun takeWhile_append_of_stopsRun)

variable {t : Text}

/-- There are no combinators. -/
def IsPlain (t : Text) : Prop :=
  ∀ c ∈ t, isCombinator c = false

instance : DecidablePred IsPlain :=
  fun t => decidable_of_iff (t.all (!isCombinator ·) = true) (by simp [IsPlain])

theorem IsPlain.and_not_mem (hplain : IsPlain t) : '&' ∉ t :=
  fun hmem => Bool.noConfusion (hplain '&' hmem)

theorem IsPlain.or_not_mem (hplain : IsPlain t) : '|' ∉ t :=
  fun hmem => Bool.noConfusion (hplain '|' hmem)

theorem IsPlain.append {left right : Text} (hleft : IsPlain left) (hright : IsPlain right) :
    IsPlain (left ++ right) :=
  fun c hc => (List.mem_append.mp hc).elim (hleft c) (hright c)

/-- Characters of a class without the combinators. -/
theorem isPlain_of_class {class? : Char → Bool} (hand : class? '&' = false)
    (hor : class? '|' = false) (hclass : ∀ c ∈ t, class? c = true) : IsPlain t := by
  intro c hc
  rw [isCombinator, Bool.or_eq_false_iff, beq_eq_false_iff_ne, beq_eq_false_iff_ne]
  have hc := hclass c hc
  constructor
  · rintro rfl
    exact Bool.noConfusion (hand.symm.trans hc)
  · rintro rfl
    exact Bool.noConfusion (hor.symm.trans hc)

/-! ## Tokens and what stands behind them -/

namespace Token

variable {token : Token}

def isText : Token → Bool
  | .text _ => true
  | .and | .or => false

theorem exists_combinator (htoken : token.isText = false) :
    ∃ c, token.toText = [c] ∧ isCombinator c = true ∧
      token = if c = '&' then .and else .or := by
  cases token with
  | and => exact ⟨'&', rfl, rfl, rfl⟩
  | or => exact ⟨'|', rfl, rfl, rfl⟩
  | text content => cases htoken

theorem exists_text (htoken : token.isText = true) : ∃ content, token = .text content := by
  cases token with
  | and | or => cases htoken
  | text content => exact ⟨content, rfl⟩

/-- The token does not go on in the text behind it.  A combinator never does, and a text has
characters, none of them a combinator, up to the next combinator or to the end. -/
def EndsBefore (behind : Text) : Token → Prop
  | .and | .or => True
  | .text content => content ≠ [] ∧ IsPlain content ∧ StopsRun (!isCombinator ·) behind

end Token

/-- The text at a byte offset comes apart into tokens, each of which goes as far as it can and
begins where the one before it ends. -/
inductive CutInto : Nat → Text → List (Located Token) → Prop
  | nil (offset : Nat) : CutInto offset [] []
  | cons {offset : Nat} {token : Token} {rest : Text} {tokens : List (Located Token)}
      (hends : token.EndsBefore rest)
      (hrest : CutInto (offset + token.toText.byteSize) rest tokens) :
      CutInto offset (token.toText ++ rest)
        (⟨token, ⟨offset, offset + token.toText.byteSize⟩⟩ :: tokens)

/-! ## Cutting -/

section Cutting

variable {offset : Nat} {tokens : List (Located Token)}

/-- The first token is no text where the text begins with a combinator or has no characters. -/
theorem CutInto.stopsRun_iff (hcut : CutInto offset t tokens) :
    StopsRun (!isCombinator ·) t ↔ ∀ first ∈ tokens.head?, first.value.isText = false := by
  cases hcut with
  | nil => simp [StopsRun]
  | @cons _ token rest tokens hends hrest =>
      cases htoken : token.isText with
      | false =>
          obtain ⟨c, hc, hcombinator, -⟩ := Token.exists_combinator htoken
          simp [StopsRun, hc, hcombinator, htoken]
      | true =>
          obtain ⟨content, rfl⟩ := Token.exists_text htoken
          obtain ⟨hne, hplain, -⟩ := hends
          obtain ⟨c, more, rfl⟩ := List.exists_cons_of_ne_nil hne
          have hc : isCombinator c = false := hplain c (by simp)
          simp [StopsRun, Token.toText, Token.isText, hc]

/-- A character that is no combinator lengthens the text that follows. -/
theorem CutInto.cons_text {c : Char} (hc : isCombinator c = false) {content : Text} {span : Span}
    (hcut : CutInto (offset + c.utf8Size) t (⟨.text content, span⟩ :: tokens)) :
    CutInto offset (c :: t) (⟨.text (c :: content), ⟨offset, span.stop⟩⟩ :: tokens) := by
  cases hcut with
  | @cons _ _ rest _ hends hrest =>
      obtain ⟨-, hplain, hstop⟩ := hends
      have hends : (Token.text (c :: content)).EndsBefore rest :=
        ⟨by simp, (show IsPlain [c] by simpa [IsPlain] using hc).append hplain, hstop⟩
      have hstart : offset + c.utf8Size + content.byteSize =
          offset + (Token.text (c :: content)).toText.byteSize := Nat.add_assoc _ _ _
      rw [Token.toText, hstart] at hrest ⊢
      exact .cons hends hrest

theorem cutInto_tokensFrom (offset : Nat) (t : Text) :
    CutInto offset t (tokensFrom offset t) := by
  induction t generalizing offset with
  | nil => exact .nil offset
  | cons c rest ih =>
      rw [tokensFrom]
      by_cases hand : c = '&'
      · subst hand
        exact .cons (show Token.and.EndsBefore rest from trivial) (ih _)
      · by_cases hor : c = '|'
        · subst hor
          exact .cons (show Token.or.EndsBefore rest from trivial) (ih _)
        · have hc : isCombinator c = false := by simp [isCombinator, hand, hor]
          have hrest := ih (offset + c.utf8Size)
          rw [if_neg hand, if_neg hor]
          split
          · next content span more htokens =>
              rw [htokens] at hrest
              exact hrest.cons_text hc
          · next hnone =>
              -- No text follows, so the character is a text by itself.
              have hstop : StopsRun (!isCombinator ·) rest := by
                refine hrest.stopsRun_iff.mpr fun first hfirst => ?_
                obtain ⟨more, hmore⟩ := List.head?_eq_some_iff.mp hfirst
                obtain ⟨token, span⟩ := first
                cases token with
                | and | or => rfl
                | text content => exact absurd hmore (hnone content span more)
              have hends : (Token.text [c]).EndsBefore rest :=
                ⟨by simp, by simpa [IsPlain] using hc, hstop⟩
              exact .cons hends hrest

/-- No two texts stand side by side. -/
theorem CutInto.isChain (hcut : CutInto offset t tokens) :
    tokens.IsChain fun left right => ¬ (left.value.isText ∧ right.value.isText) := by
  induction hcut with
  | nil => exact .nil
  | @cons offset token rest tokens hends hrest ih =>
      refine ih.cons fun right hright ⟨htoken, htext⟩ => ?_
      obtain ⟨content, rfl⟩ := Token.exists_text htoken
      have hfirst := hrest.stopsRun_iff.mp hends.2.2 right hright
      exact Bool.noConfusion (hfirst.symm.trans htext)

end Cutting

/-! ## Tokens one at a time -/

namespace Lexer

variable {lexer : Lexer} {offset : Nat} {rest : Text} {coming : List (Located Token)}

/-- The token that is cut off is the one that ends before the rest. -/
theorem scan_append {token : Token} (hends : token.EndsBefore rest) (offset : Nat)
    (ahead? : Option (Option (Located Token))) :
    scan ⟨offset, token.toText ++ rest, ahead?⟩ =
      (some ⟨token, ⟨offset, offset + token.toText.byteSize⟩⟩,
        ⟨offset + token.toText.byteSize, rest, ahead?⟩) := by
  cases htoken : token.isText with
  | false =>
      obtain ⟨c, hc, hcombinator, rfl⟩ := Token.exists_combinator htoken
      simp [scan, hc, hcombinator]
  | true =>
      obtain ⟨content, rfl⟩ := Token.exists_text htoken
      obtain ⟨hne, hplain, hstop⟩ := hends
      have hrun : ∀ c ∈ content, (!isCombinator c) = true := by simpa [IsPlain] using hplain
      obtain ⟨c, more, rfl⟩ := List.exists_cons_of_ne_nil hne
      have hc : isCombinator c = false := hplain c (by simp)
      have htake := takeWhile_append_of_stopsRun hrun hstop
      have hdrop := dropWhile_append_of_stopsRun hrun hstop
      rw [List.cons_append] at htake hdrop
      simp only [Token.toText, List.cons_append, scan, hc, Bool.false_eq_true, if_false, htake,
        hdrop]

theorem exists_scan_eq (hcut : CutInto offset rest coming)
    (ahead? : Option (Option (Located Token))) :
    ∃ stop behind, scan ⟨offset, rest, ahead?⟩ = (coming.head?, ⟨stop, behind, ahead?⟩) ∧
      CutInto stop behind coming.tail := by
  cases hcut with
  | nil => exact ⟨offset, [], rfl, .nil offset⟩
  | cons hends hrest => exact ⟨_, _, scan_append hends offset ahead?, hrest⟩

/-- The tokens that a reader is going to give.  What was shown is the first of them, or that
there is none, and is no longer in the unread text. -/
inductive Awaits : Lexer → List (Located Token) → Prop
  | unread {offset : Nat} {rest : Text} {coming : List (Located Token)}
      (hcut : CutInto offset rest coming) : Awaits ⟨offset, rest, none⟩ coming
  | shown {offset : Nat} {rest : Text} {coming : List (Located Token)}
      (hcut : CutInto offset rest coming.tail) : Awaits ⟨offset, rest, some coming.head?⟩ coming

theorem awaits_ofText (source : Text) : (ofText source).Awaits (tokens source) :=
  .unread (cutInto_tokensFrom 0 source)

theorem Awaits.peek (hawaits : lexer.Awaits coming) :
    lexer.peek.1 = coming.head? ∧ lexer.peek.2.Awaits coming := by
  cases hawaits with
  | unread hcut =>
      obtain ⟨stop, behind, hscan, hbehind⟩ := exists_scan_eq hcut none
      simp only [Lexer.peek, hscan]
      exact ⟨trivial, .shown hbehind⟩
  | shown hcut => exact ⟨rfl, .shown hcut⟩

theorem Awaits.next (hawaits : lexer.Awaits coming) :
    lexer.next.1 = coming.head? ∧ lexer.next.2.Awaits coming.tail := by
  cases hawaits with
  | unread hcut =>
      obtain ⟨stop, behind, hscan, hbehind⟩ := exists_scan_eq hcut none
      simp only [Lexer.next, hscan]
      exact ⟨trivial, .unread hbehind⟩
  | shown hcut => exact ⟨rfl, .unread hcut⟩

end Lexer

end TableBrowser.Filter
