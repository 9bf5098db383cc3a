import TemplateFrontend.Lexeme
import TemplateFrontend.Recording.Breach
import TemplateFrontend.Token

/-!
Contract: reading tokens off a whole text.

Owns:
- `Reader`, which keeps the whole text, the end of the window and a cursor into
  it;
- `Reader.next`, one token, with the empty token of the end of the window again
  and again;
- `Reader.tokens`, all tokens before the end.

A reader stores no position: it works positions out backwards, from the end of the
window and from what the cursor has left. Reserved words and markup openers are
looked up in slices of the whole text, not in front of the cursor.
-/

namespace TemplateFrontend

/-- The rules that look at nothing but the cursor, in the order in which they are
tried. -/
def Lexeme.cursorRules : List (Char → Text → Option Lexeme.Munch) :=
  [blank?, lineComment?, blockComment?, string?, number?, operator?]

/-- A text, the end of a window of it, and a cursor: what is left of the window,
and how many bytes were left where the token at hand began. -/
structure Reader where
  text : Text
  stop : Nat
  rest : Text
  mark : Nat

namespace Reader

def ofWindow (text : Text) (window : Span) : Except Breach Reader := do
  let inside ← Breach.ofFault (text.slice window)
  return ⟨text, window.stop, inside, inside.byteLength⟩

def offset (reader : Reader) : Except Breach Nat :=
  Word.sub reader.stop reader.rest.byteLength

/-- What the cursor has read since the token at hand began. -/
def span (reader : Reader) : Except Breach Span := do
  let stop ← reader.offset
  let length ← Word.sub reader.mark reader.rest.byteLength
  let start ← Word.sub stop length
  return ⟨start, stop⟩

def moveTo (reader : Reader) (rest : Text) : Reader := { reader with rest := rest }

/-- Behind an at sign: a named opener, the anonymous opener, or nothing. -/
def markup (reader : Reader) : Except Breach (Kind × Reader) := do
  let token ← reader.span
  let ahead ← Breach.ofFault (reader.text.slice ⟨token.start, reader.stop⟩)
  match Kind.longestOpener? ahead with
  | some (spelling, kind) => return (kind, reader.moveTo (reader.rest.drop (spelling.length - 1)))
  | none =>
      match reader.rest with
      | '\x7b' :: rest => return (.markupOpen, reader.moveTo rest)
      | _ => return (.atSign, reader)

/-- Behind a word, which is reserved as a whole or a plain name. -/
def word (reader : Reader) : Except Breach (Kind × Reader) := do
  let token ← reader.span
  let spelling ← Breach.ofFault (reader.text.slice token)
  return ((Kind.ofReservedWord? spelling).getD .identifier, reader)

/-- Moves the cursor behind the next token and tells its kind. -/
def scan (reader : Reader) : Except Breach (Kind × Reader) :=
  match reader.rest with
  | [] => .ok (.endOfInput, reader)
  | first :: rest =>
      match Lexeme.cursorRules.findSome? fun rule => rule first rest with
      | some munch => .ok (munch.kind, reader.moveTo (rest.drop munch.extra))
      | none =>
          if first = '@' then
            (reader.moveTo rest).markup
          else if Lexeme.isWordStart first then
            (reader.moveTo (rest.drop (Lexeme.runLength Lexeme.isWordPart rest))).word
          else
            .ok (.error, reader.moveTo rest)

/-- The next token, and the reader at the beginning of the one after it. -/
def next (reader : Reader) : Except Breach (Token × Reader) := do
  let (kind, after) ← reader.scan
  let span ← after.span
  return (⟨kind, span⟩, { after with mark := after.rest.byteLength })

/-! ## Progress -/

theorem rest_length_le_of_markup {reader after : Reader} {kind : Kind}
    (read : reader.markup = .ok (kind, after)) : after.rest.length ≤ reader.rest.length := by
  obtain ⟨token, _, read⟩ := exists_of_bind_eq_ok read
  obtain ⟨ahead, _, read⟩ := exists_of_bind_eq_ok read
  split at read
  · cases read
    simp [moveTo]
  · split at read
    · next rest restEq =>
        cases read
        simp [moveTo, restEq]
    · cases read
      exact Nat.le_refl _

theorem rest_of_word {reader after : Reader} {kind : Kind}
    (read : reader.word = .ok (kind, after)) : after.rest = reader.rest := by
  obtain ⟨token, _, read⟩ := exists_of_bind_eq_ok read
  obtain ⟨spelling, _, read⟩ := exists_of_bind_eq_ok read
  cases read
  rfl

/-- Every token but that of the end takes a character, and the end takes none. -/
theorem rest_of_scan {reader after : Reader} {kind : Kind}
    (read : reader.scan = .ok (kind, after)) :
    after.rest = reader.rest ∧ kind = .endOfInput ∨ after.rest.length < reader.rest.length := by
  unfold scan at read
  split at read
  · cases read
    exact Or.inl ⟨rfl, rfl⟩
  · next first rest restEq =>
      right
      rw [restEq, List.length_cons, Nat.lt_succ_iff]
      split at read
      · cases read
        simp [moveTo]
      · split at read
        · exact rest_length_le_of_markup read
        · split at read
          · rw [rest_of_word read]
            simp [moveTo]
          · cases read
            exact Nat.le_refl _

theorem rest_of_next {reader after : Reader} {token : Token}
    (read : reader.next = .ok (token, after)) :
    after.rest = reader.rest ∧ token.kind = .endOfInput ∨
      after.rest.length < reader.rest.length := by
  obtain ⟨⟨kind, scanned⟩, scanEq, read⟩ := exists_of_bind_eq_ok read
  have scannedRest := rest_of_scan scanEq
  obtain ⟨span, _, read⟩ := exists_of_bind_eq_ok read
  cases read
  exact scannedRest

theorem rest_length_lt_of_next {reader after : Reader} {token : Token}
    (read : reader.next = .ok (token, after)) (notEnd : token.kind ≠ .endOfInput) :
    after.rest.length < reader.rest.length := by
  rcases rest_of_next read with ⟨_, isEnd⟩ | shorter
  · exact absurd isEnd notEnd
  · exact shorter

/-- Reads to the end of the window; `read` holds the tokens so far, the last one
first. -/
def drain (reader : Reader) (read : List Token) : Except Breach (List Token) :=
  match _step : reader.next with
  | .error breach => .error breach
  | .ok (token, after) =>
      if _isEnd : token.kind = .endOfInput then
        .ok read.reverse
      else
        after.drain (token :: read)
termination_by reader.rest.length
decreasing_by exact rest_length_lt_of_next _step _isEnd

def tokens (reader : Reader) : Except Breach (List Token) := reader.drain []

end Reader

/-- The tokens that a reader of a window gives. -/
def readTokens (text : Text) (window : Span) : Except Breach (List Token) := do
  let reader ← Reader.ofWindow text window
  reader.tokens

end TemplateFrontend
