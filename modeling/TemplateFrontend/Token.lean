import TemplateFrontend.Kind
import TemplateFrontend.Text.Span

/-!
Contract: tokens, the leaves of every tree.
-/

namespace TemplateFrontend

/-- A kind and the bytes it covers, counted from the start of the text. -/
structure Token where
  kind : Kind
  span : Span
deriving DecidableEq, Repr, Inhabited

namespace Token

def isTrivia (token : Token) : Bool := token.kind.isTrivia

/-- The same token in a text that has `distance` more bytes in front. -/
def shift (distance : Nat) (token : Token) : Token :=
  { token with span := token.span.shift distance }

end Token

end TemplateFrontend
