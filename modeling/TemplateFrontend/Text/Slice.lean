import TemplateFrontend.Fault

/-!
Contract: texts, their length in bytes, and their slices.

A text is a list of characters; every length and offset counts the bytes of
its UTF-8 encoding. `Text.slice` succeeds exactly on spans whose two ends are
boundaries of characters, in order.
-/

namespace TemplateFrontend

/-- Program text as a list of characters. -/
abbrev Text := List Char

namespace Text

/-- Number of bytes of the UTF-8 encoding. -/
def byteLength (text : Text) : Nat := text.foldr (fun char total => char.utf8Size + total) 0

/-- Moves characters that make up exactly `bytes` bytes from the front of the
second list to the (reversed) first one. Fails when the text is shorter or the
last byte falls inside a character. -/
def cutOnto (taken : Text) : (bytes : Nat) → (rest : Text) → Option (Text × Text)
  | 0, rest => some (taken.reverse, rest)
  | _ + 1, [] => none
  | bytes + 1, char :: rest =>
      if char.utf8Size ≤ bytes + 1 then
        cutOnto (char :: taken) (bytes + 1 - char.utf8Size) rest
      else
        none

/-- Splits a text after exactly `bytes` bytes. -/
def cut? (text : Text) (bytes : Nat) : Option (Text × Text) :=
  cutOnto [] bytes text

/-- The characters of `text` that `span` covers. -/
def slice? (text : Text) (span : Span) : Option Text :=
  if span.start ≤ span.stop then do
    let (_, fromStart) ← text.cut? span.start
    let (inside, _) ← fromStart.cut? span.length
    return inside
  else
    none

/-- `slice?`, with the refused span as the fault. -/
def slice (text : Text) (span : Span) : Except Fault Text :=
  match text.slice? span with
  | some inside => .ok inside
  | none => .error (.outsideText span)

def whole (text : Text) : Span := ⟨0, text.byteLength⟩

end Text

end TemplateFrontend
