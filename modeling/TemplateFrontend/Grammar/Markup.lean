import TemplateFrontend.Grammar.Separated

/-!
Contract: markup blocks.

A markup region holds ordinary statements up to the closing brace that brings
its brace count to zero. The count sees the braces that stand between
statements; braces inside a statement belong to that statement.
-/

namespace TemplateFrontend.Grammar

/-- The body of a markup region: its open braces, and the draft. -/
structure Region where
  braces : Nat
  draft : Draft

/-- One turn in a region: a brace, a statement, or a token of noise. -/
def regionTurn (nested : StatementRule) (region : Region) : Turn Region :=
  match region.draft.kind with
  | .leftBrace => .again ⟨region.braces + 1, region.draft.advance⟩
  | .rightBrace =>
      if region.braces ≤ 1 then .done ⟨0, region.draft.advance⟩
      else .again ⟨region.braces - 1, region.draft.advance⟩
  | _ => .again { region with draft := nested.placeOrAdvance region.draft }

/-- The body of a region whose opening brace has been placed. -/
def regionBody (limits : Limits) (nested : StatementRule) (draft : Draft) : Draft :=
  let region := repeatWhile
    (fun current => !current.draft.atEnd)
    (regionTurn nested)
    (fun current => { current with draft := current.draft.trip .markupRegion })
    limits.regionIterations ⟨1, draft⟩
  region.draft

/-- The parts of a markup block. An end marker has no region, and an at sign
has one only when a brace follows. -/
def templateParts (limits : Limits) (nested : StatementRule) (draft : Draft) : Draft :=
  match draft.kind with
  | .markupEnd => draft.advance.skip .rightBrace
  | .atSign =>
      match draft.advance.take? .leftBrace with
      | some inside => regionBody limits nested inside
      | none => draft.advance
  | _ => regionBody limits nested draft.advance

def templateBlock (limits : Limits) (nested : StatementRule) (draft : Draft) : Draft :=
  draft.node .templateBlock (templateParts limits nested)

end TemplateFrontend.Grammar
