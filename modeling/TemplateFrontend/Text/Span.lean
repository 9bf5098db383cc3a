/-!
Contract: ranges of byte offsets.

Offsets count the bytes of the UTF-8 encoding from the start of a text. A span
is plain data: whether it is a slice of some text is decided where it is used.
-/

namespace TemplateFrontend

/-- The bytes from `start` up to but excluding `stop`. -/
structure Span where
  start : Nat
  stop : Nat
deriving DecidableEq, Repr, Inhabited

namespace Span

def emptyAt (offset : Nat) : Span := ⟨offset, offset⟩

def length (span : Span) : Nat := span.stop - span.start

/-- The same bytes in a text that has `distance` more bytes in front. -/
def shift (distance : Nat) (span : Span) : Span :=
  ⟨distance + span.start, distance + span.stop⟩

/-- Spans are written as their two ends with two dots between. -/
def description (span : Span) : String :=
  toString span.start ++ ".." ++ toString span.stop

end Span

end TemplateFrontend
