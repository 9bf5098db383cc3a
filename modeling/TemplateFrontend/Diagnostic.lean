import TemplateFrontend.Tree.Walk

/-!
Contract: what is wrong with the malformed tokens of a tree.

Every error token gives one diagnostic, in source order, with the span of the
token. What is wrong is read off the token's spelling alone.
-/

namespace TemplateFrontend

inductive Problem where
  | loneAmpersand
  | lonePipe
  | openString
  | openComment
  | strayCharacter
deriving DecidableEq, Repr

namespace Problem

def message : Problem → String
  | .loneAmpersand => "expected `&&`"
  | .lonePipe => "expected `||`"
  | .openString => "unterminated string literal"
  | .openComment => "unterminated block comment"
  | .strayCharacter => "unexpected character"

/-- A lone ampersand or pipe is the whole token; a string or comment that is
not closed is known by its opening. -/
def ofSpelling : Text → Problem
  | ['&'] => .loneAmpersand
  | ['|'] => .lonePipe
  | '"' :: _ => .openString
  | '\'' :: _ => .openString
  | '/' :: '*' :: _ => .openComment
  | _ => .strayCharacter

end Problem

structure Diagnostic where
  problem : Problem
  span : Span
deriving DecidableEq, Repr

/-- The diagnostic of an error token. -/
def Diagnostic.ofToken (text : Text) (token : Token) : Except Fault Diagnostic := do
  let spelling ← text.slice token.span
  return ⟨.ofSpelling spelling, token.span⟩

/-- The diagnostics of the error tokens below, in source order. -/
def Tree.diagnostics (tree : Tree) (text : Text) : Except Fault (List Diagnostic) :=
  (tree.leaves.filter fun token => token.kind = .error).mapM (Diagnostic.ofToken text)

end TemplateFrontend
