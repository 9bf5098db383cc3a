import TemplateFrontend.Proofs.Lexeme.Classes
import TemplateFrontend.Proofs.Restarting

/-!
Contract: tokens without delimiters are as long as their class allows.

Owns:
- `munched_tokens`, which says of every token of a window that starts with no quote and
  as no comment does: it is the longest spelling of the first class that has one there.
-/

namespace TemplateFrontend

open Lexeme (isOpen tokenClasses)
open Lexeme.TokenClass (FirstMunches)

/-- Where a token of a window starts with no string and no comment, it is the longest
spelling of the first class that has one there, in what the window has from there on. At
most one named opener stands at any place. -/
theorem munched_tokens (text : Text) (window : Span) (admitted : text.Admits window) :
    ∃ tokens, text.HasTokens window tokens ∧ ∀ token ∈ tokens, ∃ ahead spelling,
      text.slice ⟨token.span.start, window.stop⟩ = .ok ahead ∧
      text.slice token.span = .ok spelling ∧
      (isOpen ahead = false → ¬ ['/', '/'] <+: ahead →
        FirstMunches tokenClasses ahead spelling token.kind) ∧
      ∀ entry ∈ Kind.markupOpeners, ∀ other ∈ Kind.markupOpeners,
        entry.1 <+: ahead → other.1 <+: ahead → entry = other := by
  obtain ⟨tokens, has, each⟩ := admitted.exists_lexemes
  refine ⟨tokens, has, ?_⟩
  intro token member
  obtain ⟨first, rest, found⟩ := each token member
  refine ⟨first :: rest, _, found.ahead, found.spelling, ?_, ?_⟩
  · rw [found.kind_eq]
    exact Lexeme.firstMunches_munch
  · intro entry listed other otherListed
    exact Lexeme.markupOpener_unique listed otherListed

/-- An at sign that opens nothing, and a number whose type the window cuts off. -/
theorem munched_tokens_before_cut_type :
    Text.Admits "é@e+.5f".toList ⟨2, 7⟩ ∧
      Text.HasTokens "é@e+.5f".toList ⟨2, 7⟩ [⟨.atSign, ⟨2, 3⟩⟩, ⟨.identifier, ⟨3, 4⟩⟩,
        ⟨.plus, ⟨4, 5⟩⟩, ⟨.number, ⟨5, 7⟩⟩] ∧
      FirstMunches tokenClasses "@e+.5".toList "@".toList .atSign ∧
      FirstMunches tokenClasses ".5".toList ".5".toList .number := by
  have admitted : Text.Admits "é@e+.5f".toList ⟨2, 7⟩ :=
    { ordered := by decide
      start_boundary := ⟨"é".toList, "@e+.5f".toList, by decide, by decide⟩
      stop_boundary := ⟨"é@e+.5".toList, "f".toList, by decide, by decide⟩ }
  have tokensEq : tokenize "é@e+.5f".toList ⟨2, 7⟩ = .ok [⟨.atSign, ⟨2, 3⟩⟩,
      ⟨.identifier, ⟨3, 4⟩⟩, ⟨.plus, ⟨4, 5⟩⟩, ⟨.number, ⟨5, 7⟩⟩] := by cbv
  have aheadSign : Text.slice "é@e+.5f".toList ⟨2, 7⟩ = .ok "@e+.5".toList := by cbv
  have aheadNumber : Text.slice "é@e+.5f".toList ⟨5, 7⟩ = .ok ".5".toList := by cbv
  have insideSign : Text.slice "é@e+.5f".toList ⟨2, 3⟩ = .ok "@".toList := by cbv
  obtain ⟨tokens, has, each⟩ := munched_tokens _ _ admitted
  cases has.tokenized.symm.trans tokensEq
  obtain ⟨_, _, slicedAhead, sliced, sign, _⟩ := each ⟨.atSign, ⟨2, 3⟩⟩ (by simp)
  cases slicedAhead.symm.trans aheadSign
  cases sliced.symm.trans insideSign
  obtain ⟨_, _, slicedAhead, sliced, number, _⟩ := each ⟨.number, ⟨5, 7⟩⟩ (by simp)
  cases slicedAhead.symm.trans aheadNumber
  cases sliced.symm.trans aheadNumber
  exact ⟨admitted, has, sign rfl (by decide), number rfl (by decide)⟩

end TemplateFrontend
