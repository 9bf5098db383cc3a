import TemplateFrontend.Tree.Builder

/-!
Contract: outlines, the nesting that a grammar gives to a run of tokens before
any node has been measured.

`Outline.build` measures an outline by taking its build steps. Steps come from
a tree-shaped value, so they are balanced by construction; whether the spans
are in order still depends on the tokens.
-/

namespace TemplateFrontend

/-- Tokens grouped into nodes, without spans for the nodes. -/
inductive Outline where
  | leaf (token : Token)
  | node (kind : Kind) (parts : List Outline)
deriving Inhabited

namespace Outline

mutual

/-- Puts the build steps of an outline in front of `taken`, the last step
first. -/
def stepsOnto : Outline → (taken : List BuildStep) → List BuildStep
  | .leaf token, taken => .token token :: taken
  | .node kind parts, taken => .finish :: stepsAllOnto parts (.start kind :: taken)

def stepsAllOnto : List Outline → (taken : List BuildStep) → List BuildStep
  | [], taken => taken
  | part :: later, taken => stepsAllOnto later (part.stepsOnto taken)

end

/-- Start, the parts in order, finish; a token is one step. -/
def steps (outline : Outline) : List BuildStep := (outline.stepsOnto []).reverse

/-- The measured tree of an outline that begins at `offset`. -/
def build (outline : Outline) (offset : Nat) : Except Fault Tree := do
  let built ← (Builder.atOffset offset).run outline.steps
  built.finish

mutual

/-- Every token of an outline, in order. -/
def frontier : Outline → List Token
  | .leaf token => [token]
  | .node _ parts => frontierAll parts

def frontierAll : List Outline → List Token
  | [] => []
  | part :: later => part.frontier ++ frontierAll later

end

end Outline

end TemplateFrontend
