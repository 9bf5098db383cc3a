import TemplateFrontend.Proofs.Exhaustion
import TemplateFrontend.Proofs.Lexeme.Placed
import TemplateFrontend.Proofs.Shifting
import Mathlib

/-!
Contract: a window can be tokenized in pieces that meet at the end of a token.

Owns:
- `Text.HasTokens`, the tokens of a window by both readings of it;
- the place of a scanner and of a reader as all there is to know of them: a fresh one
  in the same place is the same one;
- `tokens_split`: a window is cut at any boundary between its tokens, tokenizing is
  taken up at any position that calls have reached, and the text of a token gives
  that token.
-/

namespace TemplateFrontend

/-- These are the tokens of a window, read off its slice and off the whole text. -/
structure Text.HasTokens (text : Text) (window : Span) (tokens : List Token) : Prop where
  tokenized : tokenize text window = .ok tokens
  read : readTokens text window = .ok tokens

theorem Text.hasTokens_of_tokenize {text : Text} {window : Span} {tokens : List Token}
    (admitted : text.Admits window) (tokenized : tokenize text window = .ok tokens) :
    text.HasTokens window tokens :=
  ⟨tokenized, readTokens_of_tokenize admitted tokenized⟩

/-- An admitted window has tokens, and each of them is the lexeme at its place. -/
theorem Text.Admits.exists_lexemes {text : Text} {window : Span} (admitted : text.Admits window) :
    ∃ tokens, text.HasTokens window tokens ∧ ∀ token ∈ tokens, ∃ first rest,
      token.IsLexemeAt text window.stop first rest := by
  obtain ⟨tokens, tokenized, _, _⟩ := tokenize_tiles admitted
  refine ⟨tokens, Text.hasTokens_of_tokenize admitted tokenized, ?_⟩
  exact fun token member => exists_lexeme_of_token admitted tokenized member

/-! ## Pieces of a window -/

/-- The start of a window and the ends of its tokens cut the window into pieces whose
tokens make up those of the window. -/
theorem hasTokens_pieces {text : Text} {window : Span} {tokens : List Token} {seam : Nat}
    (admitted : text.Admits window) (tokenized : tokenize text window = .ok tokens)
    (boundary : seam = window.start ∨ ∃ token ∈ tokens, seam = token.span.stop) :
    ∃ left right, tokens = left ++ right ∧ text.HasTokens ⟨window.start, seam⟩ left ∧
      text.HasTokens ⟨seam, window.stop⟩ right := by
  have cut : ∃ left right, tokens = left ++ right ∧ Tiles window.start left seam := by
    rcases boundary with rfl | ⟨token, member, rfl⟩
    · exact ⟨[], tokens, rfl, rfl⟩
    · have tiled := tiles_of_tokenize admitted tokenized
      obtain ⟨before, after, rfl⟩ := List.append_of_mem member
      obtain ⟨start, front, startEq, positive, _⟩ := Tiles.append_iff.mp tiled
      refine ⟨before ++ [token], after, by simp, ?_⟩
      exact Tiles.append_iff.mpr ⟨start, front, startEq, positive, rfl⟩
  obtain ⟨left, right, rfl, front⟩ := cut
  obtain ⟨admittedLeft, leftTokens, admittedRight, rightTokens⟩ :=
    tokenize_append admitted tokenized front
  exact ⟨left, right, rfl, Text.hasTokens_of_tokenize admittedLeft leftTokens,
    Text.hasTokens_of_tokenize admittedRight rightTokens⟩

/-- The text of a token, on its own, is that token and nothing else. -/
theorem hasTokens_spelling {text : Text} {window : Span} {tokens : List Token} {token : Token}
    (admitted : text.Admits window) (tokenized : tokenize text window = .ok tokens)
    (member : token ∈ tokens) :
    ∃ spelling, text.slice token.span = .ok spelling ∧
      spelling.HasTokens spelling.whole [⟨token.kind, spelling.whole⟩] := by
  obtain ⟨admittedToken, alone⟩ := tokenize_token admitted tokenized member
  obtain ⟨spelling, sliced⟩ := Text.admits_iff_slice.mp admittedToken
  obtain ⟨found, foundEq, shifted⟩ := tokenize_slice_shift sliced
  obtain ⟨single, rfl, singleEq⟩ : ∃ single, found = [single] ∧
      single.shift token.span.start = token :=
    List.map_eq_singleton_iff.mp (Except.ok.inj (shifted.symm.trans alone))
  obtain ⟨startEq, _, stopEq⟩ := tiles_of_tokenize spelling.admits_whole foundEq
  obtain rfl : single = ⟨token.kind, spelling.whole⟩ := by
    rw [← singleEq]
    obtain ⟨kind, start, stop⟩ := single
    cases startEq
    cases stopEq
    rfl
  exact ⟨spelling, sliced, Text.hasTokens_of_tokenize spelling.admits_whole foundEq⟩

/-! ## Taking up again -/

namespace Reader

theorem text_of_markup {reader after : Reader} {kind : Kind}
    (read : reader.markup = .ok (kind, after)) : after.text = reader.text := by
  obtain ⟨token, _, read⟩ := exists_of_bind_eq_ok read
  obtain ⟨ahead, _, read⟩ := exists_of_bind_eq_ok read
  split at read
  · cases read
    rfl
  · split at read
    · cases read
      rfl
    · cases read
      rfl

theorem text_of_word {reader after : Reader} {kind : Kind}
    (read : reader.word = .ok (kind, after)) : after.text = reader.text := by
  obtain ⟨token, _, read⟩ := exists_of_bind_eq_ok read
  obtain ⟨spelling, _, read⟩ := exists_of_bind_eq_ok read
  cases read
  rfl

theorem text_of_scan {reader after : Reader} {kind : Kind}
    (read : reader.scan = .ok (kind, after)) : after.text = reader.text := by
  unfold scan at read
  split at read
  · cases read
    rfl
  · split at read
    · cases read
      rfl
    · split at read
      · exact (text_of_markup read).trans rfl
      · split at read
        · exact (text_of_word read).trans rfl
        · cases read
          rfl

theorem text_of_next {reader after : Reader} {token : Token}
    (read : reader.next = .ok (token, after)) : after.text = reader.text := by
  obtain ⟨⟨kind, scanned⟩, scanEq, read⟩ := exists_of_bind_eq_ok read
  obtain ⟨span, _, read⟩ := exists_of_bind_eq_ok read
  cases read
  rw [← text_of_scan scanEq]

/-- No call changes the text that is read. -/
theorem text_of_nextTokens {count : Nat} {reader after : Reader} {returned : List Token}
    (read : reader.nextTokens count = .ok (returned, after)) : after.text = reader.text := by
  induction count generalizing reader returned with
  | zero =>
      cases read
      rfl
  | succ count inductionHypothesis =>
      obtain ⟨⟨token, between⟩, nextEq, read⟩ := exists_of_bind_eq_ok read
      obtain ⟨⟨later, last⟩, laterEq, read⟩ := exists_of_bind_eq_ok read
      cases read
      exact (inductionHypothesis laterEq).trans (text_of_next nextEq)

end Reader

/-- A fresh scanner and a fresh reader in the place of others are the others. -/
theorem InStep.ofWindow_eq {reader : Reader} {scanner : Scanner} (reads : InStep reader scanner) :
    Scanner.ofWindow reader.text ⟨scanner.offset, scanner.stop⟩ = .ok scanner ∧
      Reader.ofWindow reader.text ⟨scanner.offset, scanner.stop⟩ = .ok reader := by
  obtain ⟨before, behind, textEq, offsetEq⟩ := reads.text_eq
  have sliced : reader.text.slice ⟨scanner.offset, scanner.stop⟩ = .ok reader.rest := by
    rw [textEq, Scanner.stop, reads.rest_eq, offsetEq]
    exact Text.slice_append before reader.rest behind
  constructor
  · rw [Scanner.ofWindow, sliced, ← reads.rest_eq]
    rfl
  · rw [Reader.ofWindow, sliced, ← reads.stop_eq]
    exact congrArg (fun mark => Except.ok { reader with mark := mark }) reads.mark_eq.symm

/-- However many calls have been made, tokenizing from the position that they have
reached goes on from the state that they have left. -/
theorem restart_eq {text : Text} {window : Span} (admitted : text.Admits window) :
    ∃ scanner reader, Scanner.ofWindow text window = .ok scanner ∧
      Reader.ofWindow text window = .ok reader ∧
      ∀ count, ∃ returned after after', scanner.nextTokens count = (returned, after) ∧
        reader.nextTokens count = .ok (returned, after') ∧
        after'.offset = .ok after.offset ∧
        Scanner.ofWindow text ⟨after.offset, window.stop⟩ = .ok after ∧
        Reader.ofWindow text ⟨after.offset, window.stop⟩ = .ok after' := by
  obtain ⟨reader, scanner, readerEq, scannerEq, reads, rfl⟩ := exists_inStep admitted
  refine ⟨scanner, reader, scannerEq, readerEq, ?_⟩
  intro count
  obtain ⟨after, returnedEq, afterReads⟩ := reads.nextTokens_eq count
  have textEq : reader.text = text := by
    obtain ⟨inside, _, opened⟩ := exists_of_bind_eq_ok readerEq
    cases opened
    rfl
  have fresh := afterReads.ofWindow_eq
  rw [Reader.text_of_nextTokens returnedEq, textEq, Scanner.stop_nextTokens] at fresh
  exact ⟨_, _, after, rfl, returnedEq, afterReads.offset_eq, fresh⟩

/-- Tokenizing splits at every boundary between tokens: the window up to the boundary
gives the tokens before it, and the window from there on gives those behind it. A
restart at the position of a scanner is the scanner, and the text of every token
gives that token alone. -/
theorem tokens_split (text : Text) (window : Span) (admitted : text.Admits window) :
    ∃ scanner reader tokens, Scanner.ofWindow text window = .ok scanner ∧
      Reader.ofWindow text window = .ok reader ∧ text.HasTokens window tokens ∧
      (∀ seam, (seam = window.start ∨ ∃ token ∈ tokens, seam = token.span.stop) →
        ∃ left right, tokens = left ++ right ∧ text.HasTokens ⟨window.start, seam⟩ left ∧
          text.HasTokens ⟨seam, window.stop⟩ right) ∧
      (∀ count, ∃ returned after after', scanner.nextTokens count = (returned, after) ∧
        reader.nextTokens count = .ok (returned, after') ∧
        after'.offset = .ok after.offset ∧
        Scanner.ofWindow text ⟨after.offset, window.stop⟩ = .ok after ∧
        Reader.ofWindow text ⟨after.offset, window.stop⟩ = .ok after') ∧
      ∀ token ∈ tokens, ∃ spelling, text.slice token.span = .ok spelling ∧
        spelling.HasTokens spelling.whole [⟨token.kind, spelling.whole⟩] := by
  obtain ⟨tokens, tokenized, _, _⟩ := tokenize_tiles admitted
  obtain ⟨scanner, reader, scannerEq, readerEq, restarts⟩ := restart_eq admitted
  refine ⟨scanner, reader, tokens, scannerEq, readerEq,
    Text.hasTokens_of_tokenize admitted tokenized, ?_, restarts, ?_⟩
  · exact fun seam boundary => hasTokens_pieces admitted tokenized boundary
  · exact fun token member => hasTokens_spelling admitted tokenized member

/-- A window that is cut behind a number, where a character that may open an exponent
follows, and taken up again two tokens later. -/
theorem tokens_split_behind_number :
    Text.Admits "1e+ 'a".toList ⟨0, 6⟩ ∧
      (∃ left right, [⟨.number, ⟨0, 1⟩⟩, ⟨.identifier, ⟨1, 2⟩⟩, ⟨.plus, ⟨2, 3⟩⟩,
          ⟨.whitespace, ⟨3, 4⟩⟩, ⟨.error, ⟨4, 6⟩⟩] = left ++ right ∧
        Text.HasTokens "1e+ 'a".toList ⟨0, 1⟩ left ∧
        Text.HasTokens "1e+ 'a".toList ⟨1, 6⟩ right) ∧
      (∃ scanner reader returned after after',
        Scanner.ofWindow "1e+ 'a".toList ⟨0, 6⟩ = .ok scanner ∧
        Reader.ofWindow "1e+ 'a".toList ⟨0, 6⟩ = .ok reader ∧
        scanner.nextTokens 3 = (returned, after) ∧
        reader.nextTokens 3 = .ok (returned, after') ∧
        Scanner.ofWindow "1e+ 'a".toList ⟨after.offset, 6⟩ = .ok after ∧
        Reader.ofWindow "1e+ 'a".toList ⟨after.offset, 6⟩ = .ok after') ∧
      Text.HasTokens "'a".toList ⟨0, 2⟩ [⟨.error, ⟨0, 2⟩⟩] := by
  have admitted : Text.Admits "1e+ 'a".toList ⟨0, 6⟩ := Text.admits_whole "1e+ 'a".toList
  have tokensEq : tokenize "1e+ 'a".toList ⟨0, 6⟩ = .ok [⟨.number, ⟨0, 1⟩⟩,
      ⟨.identifier, ⟨1, 2⟩⟩, ⟨.plus, ⟨2, 3⟩⟩, ⟨.whitespace, ⟨3, 4⟩⟩, ⟨.error, ⟨4, 6⟩⟩] := by cbv
  have sliced : Text.slice "1e+ 'a".toList ⟨4, 6⟩ = .ok "'a".toList := by cbv
  obtain ⟨scanner, reader, tokens, scannerEq, readerEq, has, pieces, restarts, alone⟩ :=
    tokens_split _ _ admitted
  cases has.tokenized.symm.trans tokensEq
  obtain ⟨returned, after, after', returnedEq, returnedEq', _, fresh⟩ := restarts 3
  obtain ⟨spelling, spelled, single⟩ := alone ⟨.error, ⟨4, 6⟩⟩ (by simp)
  cases spelled.symm.trans sliced
  refine ⟨admitted, pieces 1 (Or.inr ⟨⟨.number, ⟨0, 1⟩⟩, by simp⟩), ?_, single⟩
  exact ⟨scanner, reader, returned, after, after', scannerEq, readerEq, returnedEq, returnedEq',
    fresh⟩

end TemplateFrontend
