import TemplateFrontend.Proofs.Splitting

/-!
Contract: every token is the lexeme at its place.

Owns:
- `Scanner.exists_lexeme`, the place of a token in what a scanner reads;
- `exists_lexeme_of_token`, the same for the tokens of a window: what the text has from
  the start of the token to the end of the window, and what it has in the token.
-/

namespace TemplateFrontend

open Lexeme (munch)

/-- Every token of a scanner is the lexeme at its place. -/
theorem Scanner.exists_lexeme {scanner : Scanner} {token : Token}
    (member : token ∈ scanner.tokens) :
    ∃ front first rest, scanner.rest = front ++ first :: rest ∧
      token.kind = (munch first rest).kind ∧
      token.span = ⟨scanner.offset + Text.byteLength front,
        scanner.offset + Text.byteLength front +
          Text.byteLength (first :: rest.take (munch first rest).extra)⟩ := by
  obtain ⟨before, after, tokensEq⟩ := List.append_of_mem member
  obtain ⟨front, back, restEq, _, backTokens⟩ := exists_split tokensEq
  cases back with
  | nil =>
      rw [tokens_of_next?_eq_none rfl] at backTokens
      cases backTokens
  | cons first rest =>
      rw [tokens_of_next?_eq_some (next?_cons first rest _)] at backTokens
      cases backTokens
      exact ⟨front, first, rest, restEq, rfl, rfl⟩

/-- The token is the lexeme at the front of `first :: rest`, which is what the text has
from there to the end of the window at `stop`. -/
structure Token.IsLexemeAt (token : Token) (text : Text) (stop : Nat) (first : Char)
    (rest : Text) : Prop where
  ahead : text.slice ⟨token.span.start, stop⟩ = .ok (first :: rest)
  kind_eq : token.kind = (munch first rest).kind
  spelling : text.slice token.span = .ok (first :: rest.take (munch first rest).extra)
  stop_eq : rest.length ≤ (munch first rest).extra → token.span.stop = stop

/-- Each token of a window is the lexeme at its place. -/
theorem exists_lexeme_of_token {text : Text} {window : Span} {tokens : List Token}
    {token : Token} (admitted : text.Admits window)
    (tokenized : tokenize text window = .ok tokens) (member : token ∈ tokens) :
    ∃ first rest, token.IsLexemeAt text window.stop first rest := by
  obtain ⟨before, inside, after, rfl, rfl⟩ := admitted.split
  rw [tokenize_slice] at tokenized
  cases tokenized
  obtain ⟨front, first, rest, insideEq, kindEq, spanEq⟩ := Scanner.exists_lexeme member
  dsimp only at insideEq spanEq
  subst insideEq
  have stopEq : Text.byteLength before + Text.byteLength (front ++ first :: rest) =
      Text.byteLength (before ++ front) + Text.byteLength (first :: rest) := by
    rw [Text.byteLength_append, Text.byteLength_append, Nat.add_assoc]
  have startEq : Text.byteLength before + Text.byteLength front =
      Text.byteLength (before ++ front) := (Text.byteLength_append before front).symm
  rw [startEq] at spanEq
  refine ⟨first, rest, ?_, kindEq, ?_, ?_⟩
  · have textEq : before ++ (front ++ first :: rest ++ after) =
        (before ++ front) ++ ((first :: rest) ++ after) := by simp only [List.append_assoc]
    rw [textEq, stopEq, spanEq]
    exact Text.slice_append (before ++ front) _ _
  · have textEq : before ++ (front ++ first :: rest ++ after) =
        (before ++ front) ++ ((first :: rest.take (munch first rest).extra) ++
          (rest.drop (munch first rest).extra ++ after)) := by
      simp only [List.append_assoc, List.cons_append]
      rw [← List.append_assoc (rest.take _), List.take_append_drop]
    rw [textEq, spanEq]
    exact Text.slice_append (before ++ front) _ _
  · intro whole
    rw [spanEq, stopEq, List.take_of_length_le whole]

end TemplateFrontend
