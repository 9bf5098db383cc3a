import TemplateFrontend.Grammar.Statement

/-!
Contract: whole programs.

The root holds statements, tokens of noise between them, and whatever the
top-level ceiling or the end of the window left over.
-/

namespace TemplateFrontend.Grammar

def topLevel (limits : Limits) (draft : Draft) : Draft :=
  repeatWhile (fun current => !current.atEnd)
    (fun current => .again ((statement limits limits.depth).placeOrAdvance current))
    (·.trip .topLevel) limits.topLevelIterations draft

/-- Places every token that is left, trivia included. -/
def placeRest (draft : Draft) : Draft :=
  { draft with
    rest := []
    placed := draft.rest.foldl (fun placed token => .leaf token :: placed) draft.placed }

/-- The root of a run of tokens whose window ends at `stop`, and the met
ceilings in order. -/
def program (limits : Limits) (tokens : List Token) (stop : Nat) : Outline × List Trip :=
  let finished := placeRest (topLevel limits (.ofTokens tokens stop))
  (.node .root finished.placed.reverse, finished.trips.reverse)

end TemplateFrontend.Grammar
