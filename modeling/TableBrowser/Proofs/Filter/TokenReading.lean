import TableBrowser.Proofs.Filter.FailureReport
import TableBrowser.Proofs.Filter.TokenCuts

/-!
# Tokens of a source

The tokens of a source stand one behind the other, from its first byte to its last, and cut
no character.  Each combinator is a token by itself, and all that stands between two
combinators is one token, if it has any characters.

A reader may look at the next token as often as it likes before it takes it.  Looking ahead
changes nothing: the tokens taken are those of the source, in their order, however the calls
to look and to take follow each other.
-/

namespace TableBrowser

/-- The spans lead from an offset to `stop`, each of them from where the one before it ends. -/
def Span.Consecutive (stop : Nat) : Nat → List Span → Prop
  | start, [] => start = stop
  | start, span :: rest => span.start = start ∧ Consecutive stop span.stop rest

namespace Filter

open TableBrowser.Text (Cuts IsBoundary)

/-! ## Combinators -/

namespace Token

variable {token other : Token} {behind : Text}

/-- A combinator stands behind the first token of a text or in that token. -/
theorem append_eq_append (hother : other.isText = false) {rest before : Text}
    (heq : token.toText ++ rest = before ++ (other.toText ++ behind)) :
    (∃ front, before = token.toText ++ front ∧ rest = front ++ (other.toText ++ behind)) ∨
      ∃ back, token.toText = before ++ (other.toText ++ back) := by
  obtain ⟨c, hc, -⟩ := exists_combinator hother
  rw [hc] at heq ⊢
  rcases List.append_eq_append_iff.mp heq with hfollows | ⟨back, htoken, hback⟩
  · exact .inl hfollows
  · cases back with
    | nil => exact .inl ⟨[], by simpa using htoken.symm, by simpa using hback.symm⟩
    | cons d more =>
        obtain rfl : c = d := List.head_eq_of_cons_eq hback
        exact .inr ⟨more, htoken⟩

/-- Where a combinator stands in a token, the token is that combinator. -/
theorem EndsBefore.eq_of_append (hends : token.EndsBefore behind) (hother : other.isText = false)
    {before back : Text} (htext : token.toText = before ++ (other.toText ++ back)) :
    before = [] ∧ token = other := by
  obtain ⟨c, hc, hcombinator, rfl⟩ := exists_combinator hother
  rw [hc] at htext
  cases htoken : token.isText with
  | false =>
      obtain ⟨d, hd, -, rfl⟩ := exists_combinator htoken
      rw [hd] at htext
      cases before with
      | nil =>
          obtain rfl : d = c := by simpa using List.head_eq_of_cons_eq htext
          exact ⟨rfl, rfl⟩
      | cons first rest => simp at htext
  | true =>
      obtain ⟨content, rfl⟩ := exists_text htoken
      have hcontent : content = before ++ ([c] ++ back) := htext
      have hplain := hends.2.1 c (by simp [hcontent])
      rw [hcombinator] at hplain
      cases hplain

end Token

/-! ## Places -/

section Cuts

variable {offset : Nat} {t : Text} {tokens : List (Located Token)} {located : Located Token}

theorem CutInto.consecutive (hcut : CutInto offset t tokens) :
    Span.Consecutive (offset + t.byteSize) offset (tokens.map (·.span)) := by
  induction hcut with
  | nil offset => rfl
  | cons hends hrest ih =>
      refine ⟨rfl, ?_⟩
      rwa [Text.byteSize_append, ← Nat.add_assoc]

/-- Each token is the part of the text at its span. -/
theorem CutInto.exists_append_of_mem (hcut : CutInto offset t tokens) (hmem : located ∈ tokens) :
    ∃ before behind, t = before ++ (located.value.toText ++ behind) ∧
      located.value.EndsBefore behind ∧
      located.span = ⟨offset + before.byteSize,
        offset + before.byteSize + located.value.toText.byteSize⟩ := by
  induction hcut with
  | nil => cases hmem
  | @cons offset token rest tokens hends hrest ih =>
      rcases List.mem_cons.mp hmem with rfl | hmem
      · exact ⟨[], rest, rfl, hends, rfl⟩
      · obtain ⟨before, behind, rfl, hbehind, hspan⟩ := ih hmem
        refine ⟨token.toText ++ before, behind, by simp, hbehind, ?_⟩
        rw [hspan, Text.byteSize_append, Nat.add_assoc offset]

/-- Each combinator of the text is a token. -/
theorem CutInto.mem_of_append (hcut : CutInto offset t tokens) {combinator : Token}
    (hcombinator : combinator.isText = false) {before behind : Text}
    (htext : t = before ++ (combinator.toText ++ behind)) :
    ⟨combinator, ⟨offset + before.byteSize,
      offset + before.byteSize + combinator.toText.byteSize⟩⟩ ∈ tokens := by
  induction hcut generalizing before with
  | nil =>
      obtain ⟨c, hc, -⟩ := Token.exists_combinator hcombinator
      simp [hc] at htext
  | @cons offset token rest tokens hends hrest ih =>
      rcases Token.append_eq_append hcombinator htext with ⟨front, rfl, hfront⟩ | ⟨back, htoken⟩
      · have hmem := ih hfront
        rw [Nat.add_assoc offset, ← Text.byteSize_append] at hmem
        exact List.mem_cons_of_mem _ hmem
      · obtain ⟨rfl, rfl⟩ := hends.eq_of_append hcombinator htoken
        exact List.mem_cons_self

/-! ## Whole sources -/

/-- The tokens cut up a source: they stand one behind the other over its whole length, each is
what its span cuts out, the combinators among them are all those of the source, and no two
texts stand side by side. -/
structure CutsUp (source : Text) (tokens : List (Located Token)) : Prop where
  consecutive : Span.Consecutive source.byteSize 0 (tokens.map (·.span))
  boundaries : ∀ located ∈ tokens,
    IsBoundary source located.span.start ∧ IsBoundary source located.span.stop
  cut : ∀ located ∈ tokens, source.slice? located.span = some located.value.toText
  and_mem_iff : ∀ span, ⟨.and, span⟩ ∈ tokens ↔ source.slice? span = some "&"
  or_mem_iff : ∀ span, ⟨.or, span⟩ ∈ tokens ↔ source.slice? span = some "|"
  text_plain : ∀ content span, ⟨.text content, span⟩ ∈ tokens →
    content ≠ [] ∧ '&' ∉ content ∧ '|' ∉ content
  texts_apart : tokens.IsChain fun left right => ¬ (left.value.isText ∧ right.value.isText)

variable {source : Text}

theorem CutInto.exists_cuts_of_mem (hcut : CutInto 0 source tokens) (hmem : located ∈ tokens) :
    ∃ before behind, Cuts source located.span before located.value.toText behind := by
  obtain ⟨before, behind, hsource, -, hspan⟩ := hcut.exists_append_of_mem hmem
  exact ⟨before, behind, hsource, by rw [hspan, Nat.zero_add]⟩

theorem CutInto.combinator_mem_iff (hcut : CutInto 0 source tokens) {combinator : Token}
    (hcombinator : combinator.isText = false) (span : Span) :
    ⟨combinator, span⟩ ∈ tokens ↔ source.slice? span = some combinator.toText := by
  rw [Text.slice?_eq_some_iff]
  constructor
  · exact hcut.exists_cuts_of_mem
  · rintro ⟨before, behind, hsource, rfl⟩
    have hmem := hcut.mem_of_append hcombinator hsource
    rwa [Nat.zero_add] at hmem

theorem CutInto.cutsUp (hcut : CutInto 0 source tokens) : CutsUp source tokens where
  consecutive := by simpa only [Nat.zero_add] using hcut.consecutive
  boundaries located hmem := by
    obtain ⟨before, behind, hcuts⟩ := hcut.exists_cuts_of_mem hmem
    exact (Text.exists_cuts_iff.mp ⟨before, _, behind, hcuts⟩).2
  cut located hmem := Text.slice?_eq_some_iff.mpr (hcut.exists_cuts_of_mem hmem)
  and_mem_iff := hcut.combinator_mem_iff rfl
  or_mem_iff := hcut.combinator_mem_iff rfl
  text_plain content span hmem := by
    obtain ⟨-, behind, -, ⟨hne, hplain, -⟩, -⟩ := hcut.exists_append_of_mem hmem
    exact ⟨hne, hplain.and_not_mem, hplain.or_not_mem⟩
  texts_apart := hcut.isChain

end Cuts

/-! ## Calls -/

namespace Lexer

inductive Call
  | peek
  | next
  deriving DecidableEq

def answer (lexer : Lexer) : Call → Option (Located Token) × Lexer
  | .peek => lexer.peek
  | .next => lexer.next

/-- The reader behind a sequence of calls. -/
def after (lexer : Lexer) (calls : List Call) : Lexer :=
  calls.foldl (fun lexer call => (lexer.answer call).2) lexer

/-- The tokens that are taken in a sequence of calls, in the order of the calls. -/
def taken (lexer : Lexer) : List Call → List (Located Token)
  | [] => []
  | .peek :: calls => lexer.peek.2.taken calls
  | .next :: calls => lexer.next.1.toList ++ lexer.next.2.taken calls

/-! ## Answers -/

variable {lexer : Lexer} {coming : List (Located Token)}

/-- Every call answers with the first of the tokens to come, and only a taken one is gone. -/
theorem Awaits.answer (hawaits : lexer.Awaits coming) (call : Call) :
    (lexer.answer call).1 = coming.head? ∧
      (lexer.answer call).2.Awaits (coming.drop ([call].count .next)) := by
  cases call with
  | peek => exact hawaits.peek
  | next =>
      obtain ⟨hanswer, hrest⟩ := hawaits.next
      refine ⟨hanswer, ?_⟩
      rwa [List.count_singleton_self, List.drop_one]

/-! ## Sequences of calls -/

theorem Awaits.after (hawaits : lexer.Awaits coming) (calls : List Call) :
    (lexer.after calls).Awaits (coming.drop (calls.count .next)) := by
  induction calls generalizing lexer coming with
  | nil => exact hawaits
  | cons call calls ih =>
      have hrest := ih (hawaits.answer call).2
      -- What the first call takes and what the others take add up.
      rwa [List.drop_drop, ← List.count_append] at hrest

theorem Awaits.taken (hawaits : lexer.Awaits coming) (calls : List Call) :
    lexer.taken calls = coming.take (calls.count .next) := by
  induction calls generalizing lexer coming with
  | nil => rfl
  | cons call calls ih =>
      cases call with
      | peek => exact ih hawaits.peek.2
      | next =>
          obtain ⟨hanswer, hrest⟩ := hawaits.next
          rw [Lexer.taken, ih hrest, hanswer, List.count_cons_self]
          cases coming with
          | nil => simp
          | cons first others => rfl

/-- The answer to a call is the token whose number is that of the tokens taken before. -/
theorem answer_after (source : Text) (calls : List Call) (call : Call) :
    (((ofText source).after calls).answer call).1 = (tokens source)[calls.count .next]? := by
  have hanswer := (((awaits_ofText source).after calls).answer call).1
  rwa [List.head?_drop] at hanswer

end Lexer

/-- The tokens of a source cut it up.  A reader takes them in their order, as many as it has
calls to take one, and what it shows is what the next call to take a token gives, however
often it is looked at in between. -/
theorem tokens_cut_source_and_are_taken_in_order (source : Text) :
    CutsUp source (tokens source) ∧
      ∀ calls : List Lexer.Call,
        (Lexer.ofText source).taken calls = (tokens source).take (calls.count .next) ∧
          ∀ peeks : Nat,
            ((Lexer.ofText source).after calls).peek.1 =
              ((Lexer.ofText source).after
                (calls ++ List.replicate (peeks + 1) .peek)).next.1 := by
  refine ⟨(cutInto_tokensFrom 0 source).cutsUp, fun calls => ⟨?_, fun peeks => ?_⟩⟩
  · exact (Lexer.awaits_ofText source).taken calls
  · have hcount : (calls ++ List.replicate (peeks + 1) Lexer.Call.peek).count .next =
        calls.count .next := by
      simp [List.count_replicate]
    calc ((Lexer.ofText source).after calls).peek.1
        = (tokens source)[calls.count .next]? := Lexer.answer_after source calls .peek
      _ = (tokens source)[(calls ++ List.replicate (peeks + 1) Lexer.Call.peek).count .next]? := by
          rw [hcount]
      _ = ((Lexer.ofText source).after (calls ++ List.replicate (peeks + 1) .peek)).next.1 :=
          (Lexer.answer_after source _ .next).symm

example :
    (Lexer.ofText "é=1&|b").taken [.peek, .peek, .next, .next, .peek, .next] =
      [⟨.text "é=1", ⟨0, 4⟩⟩, ⟨.and, ⟨4, 5⟩⟩, ⟨.or, ⟨5, 6⟩⟩] := by
  decide

end Filter

end TableBrowser
