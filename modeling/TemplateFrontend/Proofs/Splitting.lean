import TemplateFrontend.Proofs.Lexeme.Local
import TemplateFrontend.Proofs.Tiling

/-!
Contract: a window can be scanned in pieces that meet at the end of a token.

Owns:
- `Scanner.exists_split`, which cuts what a scanner reads where its row of tokens
  is cut;
- `tokenize_append`, the same for windows of a text: the tokens up to a seam are
  those of the window up to the seam, and the tokens from the seam on are those
  of the window from there on.
-/

namespace TemplateFrontend

namespace Scanner

/-- A step reads the same token when the text ends some characters after it. -/
theorem next?_take {first : Char} {rest : Text} {offset : Nat} {token : Token} {after : Scanner}
    (step : next? ⟨first :: rest, offset⟩ = some (token, after)) (count : Nat) :
    next? ⟨first :: rest.take ((Lexeme.munch first rest).extra + count), offset⟩ =
      some (token, ⟨after.rest.take count, after.offset⟩) := by
  rw [next?_cons] at step ⊢
  cases step
  rw [Lexeme.munch_take (Nat.le_add_right _ count), List.take_take,
    Nat.min_eq_left (Nat.le_add_right _ count), List.drop_take, Nat.add_sub_cancel_left]

/-- Where the tokens of a scanner are cut in two, what it reads is cut in two. -/
theorem exists_split {left right : List Token} {scanner : Scanner}
    (tokensEq : scanner.tokens = left ++ right) :
    ∃ front back, scanner.rest = front ++ back ∧
      tokens ⟨front, scanner.offset⟩ = left ∧
      tokens ⟨back, scanner.offset + Text.byteLength front⟩ = right := by
  induction left generalizing scanner with
  | nil => exact ⟨[], scanner.rest, rfl, tokens_of_next?_eq_none rfl, tokensEq⟩
  | cons token left inductionHypothesis =>
      obtain ⟨text, offset⟩ := scanner
      cases text with
      | nil =>
          rw [tokens_of_next?_eq_none rfl] at tokensEq
          cases tokensEq
      | cons first rest =>
          have step := next?_cons first rest offset
          rw [tokens_of_next?_eq_some step, List.cons_append, List.cons.injEq] at tokensEq
          obtain ⟨rfl, laterEq⟩ := tokensEq
          obtain ⟨front, back, restEq, frontTokens, backTokens⟩ := inductionHypothesis laterEq
          dsimp only at restEq frontTokens backTokens ⊢
          have frontEq : (rest.drop (Lexeme.munch first rest).extra).take front.length = front := by
            rw [restEq, List.take_left]
          have frontStep := next?_take step front.length
          dsimp only at frontStep
          rw [frontEq] at frontStep
          refine ⟨first :: rest.take ((Lexeme.munch first rest).extra + front.length), back, ?_, ?_,
            ?_⟩
          · rw [List.take_add, frontEq, List.cons_append, List.append_assoc, ← restEq,
              List.take_append_drop]
          · rw [tokens_of_next?_eq_some frontStep, frontTokens]
          · rw [List.take_add, frontEq, ← List.cons_append, Text.byteLength_append, ← Nat.add_assoc]
            exact backTokens

end Scanner

/-! ## Windows -/

/-- The tokens of a window are those of a scanner over what the window covers. -/
theorem tokenize_slice (before inside after : Text) :
    tokenize (before ++ (inside ++ after))
        ⟨Text.byteLength before, Text.byteLength before + Text.byteLength inside⟩ =
      .ok (Scanner.tokens ⟨inside, Text.byteLength before⟩) := by
  simp only [tokenize, Scanner.ofWindow, Text.slice_append]
  rfl

/-- A row of tokens that tiles a stretch fixes where the stretch stops. -/
theorem Tiles.stop_unique {start stop stop' : Nat} {tokens : List Token}
    (tiled : Tiles start tokens stop) (tiled' : Tiles start tokens stop') : stop = stop' := by
  induction tokens generalizing start with
  | nil => exact tiled.symm.trans tiled'
  | cons token later inductionHypothesis => exact inductionHypothesis tiled.2.2 tiled'.2.2

/-- A window that is cut where a token ends gives the tokens up to there and the
tokens from there on. -/
theorem tokenize_append {text : Text} {window : Span} {left right : List Token} {seam : Nat}
    (admitted : text.Admits window) (tokenized : tokenize text window = .ok (left ++ right))
    (tiled : Tiles window.start left seam) :
    text.Admits ⟨window.start, seam⟩ ∧ tokenize text ⟨window.start, seam⟩ = .ok left ∧
      text.Admits ⟨seam, window.stop⟩ ∧ tokenize text ⟨seam, window.stop⟩ = .ok right := by
  obtain ⟨before, inside, after, rfl, rfl⟩ := admitted.split
  rw [tokenize_slice] at tokenized
  obtain ⟨front, back, insideEq, frontTokens, backTokens⟩ :=
    Scanner.exists_split (Except.ok.inj tokenized)
  dsimp only at insideEq frontTokens backTokens tiled ⊢
  subst insideEq
  have seamEq : seam = Text.byteLength before + Text.byteLength front := by
    have scanned := Scanner.tiles_tokens ⟨front, Text.byteLength before⟩
    rw [frontTokens] at scanned
    exact tiled.stop_unique scanned
  have wholeEq : before ++ (front ++ back ++ after) = (before ++ front) ++ (back ++ after) := by
    simp only [List.append_assoc]
  have stopEq : Text.byteLength before + Text.byteLength (front ++ back) =
      Text.byteLength (before ++ front) + Text.byteLength back := by
    rw [Text.byteLength_append, Text.byteLength_append, Nat.add_assoc]
  subst seamEq
  refine ⟨?_, ?_, ?_, ?_⟩
  · rw [List.append_assoc]
    exact Text.admits_slice before front (back ++ after)
  · rw [List.append_assoc, tokenize_slice, frontTokens]
  · rw [wholeEq, stopEq, ← Text.byteLength_append]
    exact Text.admits_slice (before ++ front) back after
  · rw [wholeEq, stopEq, ← Text.byteLength_append, tokenize_slice, Text.byteLength_append,
      backTokens]

end TemplateFrontend
