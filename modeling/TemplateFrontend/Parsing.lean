import TemplateFrontend.Grammar.Program
import TemplateFrontend.Scanner

/-!
Contract: parsing a window of a text.

Parsing never fails on program text. The one fault a caller can cause is a
window that is no slice of the text.
-/

namespace TemplateFrontend

/-- The tree of a window, and the met ceilings in order. -/
structure Parsed where
  tree : Tree
  trips : List Trip

/-- Parses `window` of `text` under the given ceilings. -/
def parse (text : Text) (window : Span) (limits : Limits) : Except Fault Parsed := do
  let tokens ← tokenize text window
  let (outline, trips) := Grammar.program limits tokens window.stop
  let tree ← outline.build window.start
  return ⟨tree, trips⟩

end TemplateFrontend
