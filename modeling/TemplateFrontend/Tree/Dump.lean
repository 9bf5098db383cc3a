import TemplateFrontend.Text.Quoted
import TemplateFrontend.Tree.Walk

/-!
Contract: the dump of a tree, one line for each node and token.

A line shows kind and span, two spaces deeper for each node around it. Tokens
also show their text in quotes, nodes never do.
-/

namespace TemplateFrontend

/-- Kind and span, as listings show every element. -/
def Tree.heading (kind : Kind) (span : Span) : Text :=
  kind.name.toList ++ '@' :: span.description.toList

/-- A token's line: heading and quoted text. -/
def Token.line (token : Token) (text : Text) : Except Fault Text := do
  let spelling ← text.slice token.span
  return Tree.heading token.kind token.span ++ ' ' :: Text.Quoted.encode spelling

namespace Tree

def line (element : Tree) (text : Text) : Except Fault Text :=
  match element with
  | .leaf token => token.line text
  | .node kind span _ => .ok (heading kind span)

def Row.line (row : Row) (text : Text) : Except Fault Text := do
  let shown ← row.element.line text
  return List.replicate (2 * row.level) ' ' ++ shown

def linesOf (rows : List Row) (text : Text) : Except Fault (List Text) :=
  rows.mapM (·.line text)

/-- The dump of the element; it is its own outermost row. -/
def dump (tree : Tree) (text : Text) : Except Fault (List Text) :=
  linesOf tree.rows text

end Tree

end TemplateFrontend
