import TemplateFrontend.Grammar.Repetition
import TemplateFrontend.Limits

/-!
Contract: statements inside other constructs, and lists of them.

Owns:
- the answer of a statement rule, `Outcome`, and the type of such a rule;
- `separated`, the rule of every bracketed list: arguments, list literals,
  array literals and loop headers.

Lists recover from noise: an element that places nothing costs one token, and
the list goes on as long as separators follow.
-/

namespace TemplateFrontend.Grammar

/-- What a statement rule did. -/
inductive Outcome where
  | node
  /-- No significant token was placed; no statement begins here. -/
  | nothing
  /-- The depth ceiling was met; one token, if any was left, became a leaf. -/
  | skipped
deriving DecidableEq, Repr

abbrev StatementRule := Draft → Outcome × Draft

/-- Applies a rule where a statement may be missing. -/
def StatementRule.place (nested : StatementRule) (draft : Draft) : Draft := (nested draft).2

/-- Applies a rule, and places one token where no statement begins. -/
def StatementRule.placeOrAdvance (nested : StatementRule) (draft : Draft) : Draft :=
  match nested draft with
  | (.nothing, missed) => missed.advance
  | (_, placed) => placed

/-- A rule for an element of a list; it tells whether it placed a significant
token. -/
abbrev ElementRule := Draft → Bool × Draft

def statementElement (nested : StatementRule) : ElementRule := fun draft =>
  let (outcome, placed) := nested draft
  (outcome != .nothing, placed)

/-- Applies a rule for an element, and places one token where the rule placed
none. -/
def ElementRule.placeOrAdvance (element : ElementRule) (draft : Draft) : Draft :=
  match element draft with
  | (true, placed) => placed
  | (false, missed) => missed.advance

/-- One turn of a list: an element or a token of noise, then a separator if
the list is to go on. -/
def separatedTurn (separators : KindSet) (element : ElementRule) (draft : Draft) : Turn Draft :=
  let placed := element.placeOrAdvance draft
  match placed.takeIn? separators with
  | some next => .again next
  | none => .done placed

/-- The elements of a list whose opening token has been placed, up to and
including the closing token if it is there. -/
def separated (limits : Limits) (construct : Construct) (closing : Kind)
    (separators : KindSet) (element : ElementRule) (draft : Draft) : Draft :=
  let elements := repeatWhile
    (fun current => current.kind != closing && !current.atEnd)
    (separatedTurn separators element)
    (·.trip construct)
    limits.iterations draft
  elements.skip closing

end TemplateFrontend.Grammar
