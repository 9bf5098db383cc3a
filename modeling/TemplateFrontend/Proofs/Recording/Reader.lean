import TemplateFrontend.Proofs.Tiling
import TemplateFrontend.Recording.Reader

/-!
Contract: a reader of a window is blind to what lies outside of the window.

Owns:
- `InStep`, a reader and a scanner in the same place;
- `InStep.next_eq`, which says that both read the same token and stay together;
- `readTokens_of_tokenize`, the same for whole windows.

In an admitted window no difference that a reader takes is below zero, and every
slice that it takes is one.
-/

namespace TemplateFrontend

theorem Breach.ofFault_slice (before inside after : Text) :
    Breach.ofFault (Text.slice (before ++ (inside ++ after))
      ⟨Text.byteLength before, Text.byteLength before + Text.byteLength inside⟩) = .ok inside := by
  rw [Text.slice_append]
  rfl

/-- The reader has left what the scanner has left, at the same place of its text.
The text may go on behind the window. -/
structure InStep (reader : Reader) (scanner : Scanner) : Prop where
  text_eq : ∃ before after, reader.text = before ++ (reader.rest ++ after) ∧
    scanner.offset = Text.byteLength before
  rest_eq : scanner.rest = reader.rest
  stop_eq : reader.stop = scanner.stop
  mark_eq : reader.mark = reader.rest.byteLength

namespace InStep

variable {reader : Reader} {scanner : Scanner} (reads : InStep reader scanner)

include reads

/-- Behind `front` the reader finds `front` as the token at hand, and a slice of
its text gives it back. -/
theorem span_moveTo (front : Text) {back : Text} (restEq : reader.rest = front ++ back) :
    (reader.moveTo back).span =
        .ok ⟨scanner.offset, scanner.offset + Text.byteLength front⟩ ∧
      Breach.ofFault (reader.text.slice
        ⟨scanner.offset, scanner.offset + Text.byteLength front⟩) = .ok front := by
  constructor
  · have stopEq : (reader.moveTo back).offset = .ok (scanner.offset + Text.byteLength front) := by
      apply Word.sub_of_add_eq
      rw [Reader.moveTo, reads.stop_eq, Scanner.stop, reads.rest_eq, restEq,
        Text.byteLength_append, Nat.add_assoc]
    have lengthEq : Word.sub (reader.moveTo back).mark (reader.moveTo back).rest.byteLength =
        .ok (Text.byteLength front) := by
      apply Word.sub_of_add_eq
      rw [Reader.moveTo, reads.mark_eq, restEq, Text.byteLength_append]
    rw [Reader.span, stopEq]
    dsimp only [bind, Except.bind]
    rw [lengthEq]
    dsimp only
    rw [Word.sub_of_add_eq rfl]
    rfl
  · obtain ⟨before, after, textEq, offsetEq⟩ := reads.text_eq
    rw [textEq, restEq, List.append_assoc, offsetEq]
    exact Breach.ofFault_slice before front (back ++ after)

/-- All that is left of the window is in front of the reader. -/
theorem slice_to_stop :
    Breach.ofFault (reader.text.slice ⟨scanner.offset, reader.stop⟩) = .ok reader.rest := by
  obtain ⟨before, after, textEq, offsetEq⟩ := reads.text_eq
  rw [reads.stop_eq, Scanner.stop, reads.rest_eq, offsetEq, textEq]
  exact Breach.ofFault_slice before reader.rest after

/-- Markup openers are found in front of the cursor. -/
theorem markup_eq {rest : Text} (restEq : reader.rest = '@' :: rest) :
    ∃ munch, Lexeme.markup? '@' rest = some munch ∧
      (reader.moveTo rest).markup = .ok (munch.kind, reader.moveTo (rest.drop munch.extra)) := by
  have atSign := (reads.span_moveTo ['@'] restEq).1
  have ahead := reads.slice_to_stop
  rw [restEq] at ahead
  unfold Reader.markup Lexeme.markup?
  rw [atSign]
  dsimp only [bind, Except.bind, Reader.moveTo] at ahead ⊢
  rw [ahead, if_pos rfl]
  dsimp only
  cases Kind.longestOpener? ('@' :: rest) with
  | some opener => exact ⟨_, rfl, rfl⟩
  | none =>
      dsimp only
      by_cases opens : ∃ later, rest = '\x7b' :: later
      · obtain ⟨later, rfl⟩ := opens
        exact ⟨_, rfl, rfl⟩
      · refine ⟨⟨.atSign, 0⟩, ?_, ?_⟩
        · split
          · exact absurd ⟨_, rfl⟩ opens
          · rfl
        · split
          · exact absurd ⟨_, rfl⟩ opens
          · rfl

/-- Reserved words are found behind the cursor. -/
theorem word_eq {front back : Text} (restEq : reader.rest = front ++ back) :
    (reader.moveTo back).word =
      .ok ((Kind.ofReservedWord? front).getD .identifier, reader.moveTo back) := by
  obtain ⟨spanEq, sliceEq⟩ := reads.span_moveTo front restEq
  unfold Reader.word
  rw [spanEq]
  dsimp only [bind, Except.bind]
  rw [show (reader.moveTo back).text = reader.text from rfl, sliceEq]
  rfl

theorem scan_eq {first : Char} {rest : Text} (restEq : reader.rest = first :: rest) :
    reader.scan = .ok ((Lexeme.munch first rest).kind,
      reader.moveTo (rest.drop (Lexeme.munch first rest).extra)) := by
  have munchEq : Lexeme.munch first rest =
      (((Lexeme.cursorRules.findSome? fun rule => rule first rest).or
        ((Lexeme.markup? first rest).or (Lexeme.word? first rest))).getD ⟨.error, 0⟩) := by
    rw [Lexeme.munch, show Lexeme.rules = Lexeme.cursorRules ++ [Lexeme.markup?, Lexeme.word?]
      from rfl, List.findSome?_append]
    simp only [List.findSome?_cons, List.findSome?_nil]
    cases Lexeme.markup? first rest <;> cases Lexeme.word? first rest <;> rfl
  rw [munchEq, Reader.scan, restEq]
  dsimp only
  cases Lexeme.cursorRules.findSome? fun rule => rule first rest with
  | some munch => rfl
  | none =>
      dsimp only
      by_cases isAt : first = '@'
      · subst isAt
        obtain ⟨munch, munchEq, markupEq⟩ := reads.markup_eq restEq
        rw [if_pos rfl, munchEq]
        exact markupEq
      · have noMarkup : Lexeme.markup? first rest = none := if_neg isAt
        rw [if_neg isAt, noMarkup]
        by_cases isWord : Lexeme.isWordStart first = true
        · have wordSplit : reader.rest =
              (first :: rest.take (Lexeme.runLength Lexeme.isWordPart rest)) ++
                rest.drop (Lexeme.runLength Lexeme.isWordPart rest) := by
            rw [List.cons_append, List.take_append_drop, restEq]
          rw [if_pos isWord, reads.word_eq wordSplit, Lexeme.word?, if_pos isWord]
          rfl
        · rw [if_neg isWord, Lexeme.word?, if_neg isWord]
          rfl

/-- Both read the same token and are in the same place behind it. -/
theorem next_eq :
    ∃ after, reader.next = .ok (scanner.next.1, after) ∧ InStep after scanner.next.2 := by
  obtain ⟨before, behind, textEq, offsetEq⟩ := reads.text_eq
  cases restEq : reader.rest with
  | nil =>
      have scannerEnd : scanner.next = (⟨.endOfInput, .emptyAt scanner.offset⟩, scanner) := by
        rw [Scanner.next, Scanner.next?, reads.rest_eq, restEq]
        rfl
      have readerEnd : reader.span = .ok (.emptyAt scanner.offset) :=
        (reads.span_moveTo [] rfl).1
      rw [scannerEnd]
      refine ⟨{ reader with mark := reader.rest.byteLength }, ?_, ?_⟩
      · rw [Reader.next, Reader.scan, restEq]
        dsimp only [bind, Except.bind]
        rw [readerEnd, restEq]
        rfl
      · exact ⟨reads.text_eq, reads.rest_eq, reads.stop_eq, rfl⟩
  | cons first rest =>
      obtain ⟨_, offset⟩ := scanner
      obtain rfl := reads.rest_eq.trans restEq
      generalize munchEq : Lexeme.munch first rest = munch
      have split : reader.rest = (first :: rest.take munch.extra) ++ rest.drop munch.extra := by
        rw [List.cons_append, List.take_append_drop, restEq]
      have spanEq := (reads.span_moveTo _ split).1
      have scanEq := reads.scan_eq restEq
      have step := Scanner.next?_cons first rest offset
      rw [munchEq] at scanEq step
      refine ⟨{ reader.moveTo (rest.drop munch.extra) with
        mark := Text.byteLength (rest.drop munch.extra) }, ?_, ?_⟩
      · rw [Reader.next, scanEq]
        dsimp only [bind, Except.bind]
        rw [spanEq, Scanner.next, step]
        rfl
      · rw [Scanner.next, step]
        constructor
        case text_eq =>
          refine ⟨before ++ (first :: rest.take munch.extra), behind, ?_, ?_⟩
          · rw [Reader.moveTo, textEq, split]
            simp only [List.append_assoc]
          · rw [Text.byteLength_append, ← offsetEq]
            rfl
        case rest_eq => rfl
        case stop_eq => exact reads.stop_eq.trans (Scanner.next?_step step).2.2.2.1.symm
        case mark_eq => rfl

end InStep

theorem Reader.drain_eq {reader : Reader} {scanner : Scanner} (reads : InStep reader scanner)
    (read : List Token) : reader.drain read = .ok (read.reverse ++ scanner.tokens) := by
  obtain ⟨after, nextEq, afterReads⟩ := reads.next_eq
  cases step : scanner.next? with
  | none =>
      have isEnd : scanner.next.1.kind = .endOfInput := by rw [Scanner.next, step]; rfl
      rw [drain, Scanner.tokens_of_next?_eq_none step, List.append_nil]
      split
      · next breach failed => cases nextEq.symm.trans failed
      · next token other found =>
          cases nextEq.symm.trans found
          rw [dif_pos isEnd]
  | some result =>
      obtain ⟨token, behind⟩ := result
      have scannerNext : scanner.next = (token, behind) := by rw [Scanner.next, step]; rfl
      rw [scannerNext] at nextEq afterReads
      have notEnd : token.kind ≠ .endOfInput :=
        Lexeme.ne_endOfInput_of_isTokenKind (Scanner.next?_step step).2.2.2.2
      have shorter := Scanner.rest_length_lt_of_next? step
      rw [drain, Scanner.tokens_of_next?_eq_some step]
      split
      · next breach failed => cases nextEq.symm.trans failed
      · next other behind found =>
          cases nextEq.symm.trans found
          rw [dif_neg notEnd, drain_eq afterReads (token :: read), List.reverse_cons,
            List.append_assoc, List.singleton_append]
termination_by scanner.rest.length

/-! ## Windows -/

theorem exists_inStep {text : Text} {window : Span} (admitted : text.Admits window) :
    ∃ reader scanner, Reader.ofWindow text window = .ok reader ∧
      Scanner.ofWindow text window = .ok scanner ∧ InStep reader scanner ∧
        window = ⟨scanner.offset, scanner.stop⟩ := by
  obtain ⟨before, inside, after, rfl, rfl⟩ := admitted.split
  refine ⟨⟨before ++ (inside ++ after), Text.byteLength before + Text.byteLength inside, inside,
    Text.byteLength inside⟩, ⟨inside, Text.byteLength before⟩, ?_, ?_, ?_, rfl⟩
  · rw [Reader.ofWindow, Breach.ofFault_slice]
    rfl
  · rw [Scanner.ofWindow, Text.slice_append]
    rfl
  · exact ⟨⟨before, after, rfl, rfl⟩, rfl, rfl, rfl⟩

/-- A reader of an admitted window reads the tokens of the window. -/
theorem readTokens_of_tokenize {text : Text} {window : Span} {tokens : List Token}
    (admitted : text.Admits window) (tokenized : tokenize text window = .ok tokens) :
    readTokens text window = .ok tokens := by
  obtain ⟨reader, scanner, readerEq, scannerEq, reads, _⟩ := exists_inStep admitted
  rw [tokenize, scannerEq] at tokenized
  cases tokenized
  rw [readTokens, readerEq]
  exact Reader.drain_eq reads []

end TemplateFrontend
