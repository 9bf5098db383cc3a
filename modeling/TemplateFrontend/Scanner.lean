import TemplateFrontend.Lexeme
import TemplateFrontend.Token

/-!
Contract: the scanner, which cuts a window of a text into tokens.

A scanner is a value: keeping an old one is a snapshot of its position. It
never fails on what it reads, only on a window that is no slice of the text.
Tokens carry offsets into the text, not into the window.
-/

namespace TemplateFrontend

/-- What is left of the window, and the offset where it starts. -/
structure Scanner where
  rest : Text
  offset : Nat
deriving DecidableEq, Repr

namespace Scanner

def ofWindow (text : Text) (window : Span) : Except Fault Scanner := do
  let inside ← text.slice window
  return ⟨inside, window.start⟩

def stop (scanner : Scanner) : Nat := scanner.offset + scanner.rest.byteLength

/-- The next token and the scanner after it; `none` at the end of the window. -/
def next? (scanner : Scanner) : Option (Token × Scanner) :=
  match scanner.rest with
  | [] => none
  | first :: rest =>
      let lexeme := Lexeme.munch first rest
      let stop := scanner.offset + Text.byteLength (first :: rest.take lexeme.extra)
      some (⟨lexeme.kind, ⟨scanner.offset, stop⟩⟩, ⟨rest.drop lexeme.extra, stop⟩)

/-- Like `next?`, but the end of the window answers with an empty token of its
own kind, again and again. -/
def next (scanner : Scanner) : Token × Scanner :=
  scanner.next?.getD (⟨.endOfInput, .emptyAt scanner.offset⟩, scanner)

theorem rest_length_lt_of_next? {scanner after : Scanner} {token : Token}
    (read : scanner.next? = some (token, after)) :
    after.rest.length < scanner.rest.length := by
  unfold next? at read
  split at read
  · cases read
  · rename_i first rest restEq
    simp only [Option.some.injEq, Prod.mk.injEq] at read
    rw [← read.2, restEq]
    simp only [List.length_drop, List.length_cons]
    omega

/-- Reads to the end of the window; `read` holds the tokens so far, the last
one first. -/
def drain (scanner : Scanner) (read : List Token) : List Token :=
  match _step : scanner.next? with
  | none => read.reverse
  | some (token, after) => drain after (token :: read)
termination_by scanner.rest.length
decreasing_by exact rest_length_lt_of_next? _step

def tokens (scanner : Scanner) : List Token := scanner.drain []

def atStop (scanner : Scanner) : Scanner := ⟨[], scanner.stop⟩

end Scanner

/-- The tokens of a window of a text. -/
def tokenize (text : Text) (window : Span) : Except Fault (List Token) := do
  let scanner ← Scanner.ofWindow text window
  return scanner.tokens

end TemplateFrontend
