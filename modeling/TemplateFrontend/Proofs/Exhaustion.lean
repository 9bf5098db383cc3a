import TemplateFrontend.Proofs.Recording.Reader
import TemplateFrontend.Proofs.Splitting
import Mathlib

/-!
Contract: what calls in a row return, past the end of the window too.

Owns:
- `nextTokens`, the answers of a number of calls of `next` and what is left behind
  them, for scanners and for readers;
- `nextTokens_eq`, which says that the tokens come first and then the empty token of
  the end, again and again;
- `InStep.nextTokens_eq`, which says that a reader answers like the scanner in its
  place;
- `calls_tile_window`: the tokens tile the window, and the position is the end of
  the last token that was returned.
-/

namespace TemplateFrontend

/-- Where the last token of a row ends, or `start` where the row is empty. -/
def Token.lastStop : (start : Nat) → List Token → Nat
  | start, [] => start
  | _, token :: later => lastStop token.span.stop later

/-- The empty token of the end of a window. -/
def Token.atEnd (stop : Nat) : Token := ⟨.endOfInput, .emptyAt stop⟩

/-- A row that tiles a stretch ends where the stretch does. -/
theorem Tiles.lastStop_eq {start stop : Nat} {tokens : List Token}
    (tiled : Tiles start tokens stop) : Token.lastStop start tokens = stop := by
  induction tokens generalizing start with
  | nil => exact tiled
  | cons token later inductionHypothesis => exact inductionHypothesis tiled.2.2

@[simp] theorem Token.lastStop_append (start : Nat) (left right : List Token) :
    lastStop start (left ++ right) = lastStop (lastStop start left) right := by
  induction left generalizing start with
  | nil => rfl
  | cons token later inductionHypothesis => exact inductionHypothesis token.span.stop

/-- The token of the end leaves the position where it is. -/
@[simp] theorem Token.lastStop_replicate_atEnd (stop count : Nat) :
    lastStop stop (List.replicate count (atEnd stop)) = stop := by
  induction count with
  | zero => rfl
  | succ count inductionHypothesis => exact inductionHypothesis

/-! ## Scanners -/

namespace Scanner

/-- What a number of calls in a row returns, and the scanner behind the last one. -/
def nextTokens : (count : Nat) → Scanner → List Token × Scanner
  | 0, scanner => ([], scanner)
  | count + 1, scanner =>
      let (token, after) := scanner.next
      let (later, last) := nextTokens count after
      (token :: later, last)

theorem rest_eq_nil_of_next?_eq_none {scanner : Scanner} (atEnd : scanner.next? = none) :
    scanner.rest = [] := by
  unfold next? at atEnd
  split at atEnd
  · assumption
  · cases atEnd

theorem next_of_next?_eq_none {scanner : Scanner} (atEnd : scanner.next? = none) :
    scanner.next = (Token.atEnd scanner.stop, scanner) := by
  rw [next, atEnd, stop, rest_eq_nil_of_next?_eq_none atEnd]
  rfl

theorem next_of_next?_eq_some {scanner after : Scanner} {token : Token}
    (step : scanner.next? = some (token, after)) : scanner.next = (token, after) := by
  rw [next, step]
  rfl

/-- A call moves the scanner to the end of the token that it returns, and keeps the
end of the window. -/
theorem offset_next (scanner : Scanner) :
    scanner.next.2.offset = scanner.next.1.span.stop ∧
      scanner.next.2.stop = scanner.stop := by
  cases step : scanner.next? with
  | none =>
      rw [next, step]
      exact ⟨rfl, rfl⟩
  | some result =>
      obtain ⟨_, _, stopEq, sameStop, _⟩ := next?_step step
      rw [next_of_next?_eq_some step]
      exact ⟨stopEq.symm, sameStop⟩

theorem offset_nextTokens (count : Nat) (scanner : Scanner) :
    (scanner.nextTokens count).2.offset =
      Token.lastStop scanner.offset (scanner.nextTokens count).1 := by
  induction count generalizing scanner with
  | zero => rfl
  | succ count inductionHypothesis =>
      rw [nextTokens]
      dsimp only
      rw [inductionHypothesis, (offset_next scanner).1, Token.lastStop]

theorem stop_nextTokens (count : Nat) (scanner : Scanner) :
    (scanner.nextTokens count).2.stop = scanner.stop := by
  induction count generalizing scanner with
  | zero => rfl
  | succ count inductionHypothesis =>
      rw [nextTokens]
      dsimp only
      rw [inductionHypothesis, (offset_next scanner).2]

/-- The calls return the tokens in order; those that are left over return the empty
token of the end. -/
theorem nextTokens_eq (count : Nat) (scanner : Scanner) :
    (scanner.nextTokens count).1 = scanner.tokens.take count ++
      List.replicate (count - scanner.tokens.length) (Token.atEnd scanner.stop) := by
  induction count generalizing scanner with
  | zero => simp [nextTokens]
  | succ count inductionHypothesis =>
      rw [nextTokens]
      dsimp only
      rw [inductionHypothesis, (offset_next scanner).2]
      cases step : scanner.next? with
      | none =>
          rw [next_of_next?_eq_none step, tokens_of_next?_eq_none step]
          simp [List.replicate_succ]
      | some result =>
          obtain ⟨token, after⟩ := result
          rw [next_of_next?_eq_some step, tokens_of_next?_eq_some step]
          simp

end Scanner

/-! ## Readers -/

/-- What a number of calls in a row returns, and the reader behind the last one. -/
def Reader.nextTokens : (count : Nat) → Reader → Except Breach (List Token × Reader)
  | 0, reader => .ok ([], reader)
  | count + 1, reader => do
      let (token, after) ← reader.next
      let (later, last) ← nextTokens count after
      return (token :: later, last)

namespace InStep

theorem offset_eq {reader : Reader} {scanner : Scanner} (reads : InStep reader scanner) :
    reader.offset = .ok scanner.offset := by
  apply Word.sub_of_add_eq
  rw [reads.stop_eq, Scanner.stop, reads.rest_eq]

/-- A reader returns what the scanner in its place returns, and stays in step. -/
theorem nextTokens_eq (count : Nat) {reader : Reader} {scanner : Scanner}
    (reads : InStep reader scanner) :
    ∃ after, reader.nextTokens count = .ok ((scanner.nextTokens count).1, after) ∧
      InStep after (scanner.nextTokens count).2 := by
  induction count generalizing reader scanner with
  | zero => exact ⟨reader, rfl, reads⟩
  | succ count inductionHypothesis =>
      obtain ⟨behind, nextEq, behindReads⟩ := reads.next_eq
      obtain ⟨after, laterEq, afterReads⟩ := inductionHypothesis behindReads
      refine ⟨after, ?_, afterReads⟩
      rw [Reader.nextTokens, nextEq]
      dsimp only [bind, Except.bind]
      rw [laterEq]
      rfl

end InStep

/-! ## Windows -/

/-- Both ends of a token lie between two characters of the text, and the span of the
token is a window with that token alone. -/
theorem tokenize_token {text : Text} {window : Span} {tokens : List Token} {token : Token}
    (admitted : text.Admits window) (tokenized : tokenize text window = .ok tokens)
    (member : token ∈ tokens) :
    text.Admits token.span ∧ tokenize text token.span = .ok [token] := by
  have tiled := tiles_of_tokenize admitted tokenized
  obtain ⟨before, after, rfl⟩ := List.append_of_mem member
  obtain ⟨seam, front, startEq, positive, _⟩ := Tiles.append_iff.mp tiled
  subst startEq
  obtain ⟨_, _, admittedBehind, behind⟩ := tokenize_append admitted tokenized front
  have single : Tiles token.span.start [token] token.span.stop := ⟨rfl, positive, rfl⟩
  obtain ⟨admittedToken, alone, _, _⟩ := tokenize_append admittedBehind behind single
  exact ⟨admittedToken, alone⟩

/-- Calls in a row return the tokens of the window, which tile it and end between two
characters, and then the empty token of the end of the window, however many calls
follow. The position behind the calls is where the last returned token ends; behind
the tokens it stays at the end of the window. -/
theorem calls_tile_window (text : Text) (window : Span) (admitted : text.Admits window) :
    ∃ scanner reader tokens, Scanner.ofWindow text window = .ok scanner ∧
      Reader.ofWindow text window = .ok reader ∧ tokenize text window = .ok tokens ∧
      Tiles window.start tokens window.stop ∧
      (∀ token ∈ tokens, token.kind ≠ .endOfInput ∧ text.IsBoundary token.span.start ∧
        text.IsBoundary token.span.stop) ∧
      ∀ count, ∃ returned after after', scanner.nextTokens count = (returned, after) ∧
        reader.nextTokens count = .ok (returned, after') ∧
        returned = tokens.take count ++
          List.replicate (count - tokens.length) (Token.atEnd window.stop) ∧
        after.offset = Token.lastStop window.start returned ∧
        after'.offset = .ok (Token.lastStop window.start returned) ∧
        (tokens.length ≤ count → Token.lastStop window.start returned = window.stop) := by
  obtain ⟨tokens, tokenized, tiled, kinds⟩ := tokenize_tiles admitted
  obtain ⟨reader, scanner, readerEq, scannerEq, reads, rfl⟩ := exists_inStep admitted
  obtain rfl : scanner.tokens = tokens := by
    rw [tokenize, scannerEq] at tokenized
    exact Except.ok.inj tokenized
  refine ⟨scanner, reader, scanner.tokens, scannerEq, readerEq, tokenized, tiled, ?_, ?_⟩
  · intro token member
    have admittedToken := (tokenize_token admitted tokenized member).1
    exact ⟨Lexeme.ne_endOfInput_of_isTokenKind (kinds token member),
      admittedToken.start_boundary, admittedToken.stop_boundary⟩
  · intro count
    obtain ⟨after, returnedEq, afterReads⟩ := reads.nextTokens_eq count
    have offsetEq := Scanner.offset_nextTokens count scanner
    refine ⟨_, _, after, rfl, returnedEq, Scanner.nextTokens_eq count scanner, offsetEq, ?_, ?_⟩
    · rw [afterReads.offset_eq, offsetEq]
    · intro exhausted
      have whole : (scanner.nextTokens count).1 = scanner.tokens ++
          List.replicate (count - scanner.tokens.length) (Token.atEnd scanner.stop) := by
        rw [Scanner.nextTokens_eq, List.take_of_length_le exhausted]
      rw [whole, Token.lastStop_append, tiled.lastStop_eq, Token.lastStop_replicate_atEnd]

/-- Five calls in a window that opens with a character of two bytes and leaves a
string open. -/
theorem calls_tile_window_of_open_string :
    Text.Admits "aé 'b".toList ⟨1, 6⟩ ∧
      ∃ scanner reader after after', Scanner.ofWindow "aé 'b".toList ⟨1, 6⟩ = .ok scanner ∧
        Reader.ofWindow "aé 'b".toList ⟨1, 6⟩ = .ok reader ∧
        scanner.nextTokens 5 = ([⟨.error, ⟨1, 3⟩⟩, ⟨.whitespace, ⟨3, 4⟩⟩, ⟨.error, ⟨4, 6⟩⟩,
          ⟨.endOfInput, ⟨6, 6⟩⟩, ⟨.endOfInput, ⟨6, 6⟩⟩], after) ∧
        reader.nextTokens 5 = .ok ([⟨.error, ⟨1, 3⟩⟩, ⟨.whitespace, ⟨3, 4⟩⟩, ⟨.error, ⟨4, 6⟩⟩,
          ⟨.endOfInput, ⟨6, 6⟩⟩, ⟨.endOfInput, ⟨6, 6⟩⟩], after') ∧
        after.offset = 6 ∧ after'.offset = .ok 6 := by
  have admitted : Text.Admits "aé 'b".toList ⟨1, 6⟩ :=
    { ordered := by decide
      start_boundary := ⟨"a".toList, "é 'b".toList, by decide, by decide⟩
      stop_boundary := ⟨"aé 'b".toList, [], by decide, by decide⟩ }
  have tokensEq : tokenize "aé 'b".toList ⟨1, 6⟩ =
      .ok [⟨.error, ⟨1, 3⟩⟩, ⟨.whitespace, ⟨3, 4⟩⟩, ⟨.error, ⟨4, 6⟩⟩] := by cbv
  obtain ⟨scanner, reader, tokens, scannerEq, readerEq, tokenized, _, _, calls⟩ :=
    calls_tile_window _ _ admitted
  cases tokenized.symm.trans tokensEq
  obtain ⟨_, after, after', returned, returned', rfl, offsetEq, offsetEq', _⟩ := calls 5
  exact ⟨admitted, scanner, reader, after, after', scannerEq, readerEq, returned, returned',
    offsetEq, offsetEq'⟩

end TemplateFrontend
