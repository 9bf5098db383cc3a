import TemplateFrontend.Proofs.Grammar.Operands
import TemplateFrontend.Proofs.Grammar.WellFormed
import Mathlib.Computability.Language

/-!
Contract: the recovery grammar, which says what the children of every node may
look like in the tree of any text.

Owns:
- the words that operands, conditions, lists, primaries and regions can leave
  among the marks of a node;
- `production`, the words of the nodes of each kind.

Does not own: the rules that place children. Nothing here mentions a draft.

Every operand may be missing. At the depth ceiling, where a node has no level
left inside it, a single token stands in the place of an operand.
-/

namespace TemplateFrontend

open scoped Computability

namespace Production

/-! ## Children -/

/-- One token whose kind belongs. -/
def tokenOf (belongs : Kind → Prop) : Language Mark :=
  {marks | ∃ kind, belongs kind ∧ marks = [some kind]}

def token (kind : Kind) : Language Mark := tokenOf (· = kind)

def tokenIn (kinds : KindSet) : Language Mark := tokenOf fun kind => kinds.contains kind = true

def anyToken : Language Mark := tokenOf fun _ => True

def child : Language Mark := {[none]}

def optional (words : Language Mark) : Language Mark := 1 + words

/-! ## Operands -/

/-- What takes the place of an operand in a node with `levels` levels left
inside it. -/
def filling (levels : Nat) : Language Mark := if levels = 0 then anyToken else child

/-- The place of an operand. -/
def slot (levels : Nat) : Language Mark := optional (filling levels)

def condition (levels : Nat) : Language Mark :=
  optional (token .leftParen * slot levels * optional (token .rightParen))

/-! ## Lists -/

/-- An element: a statement, or the key and the value of an entry. -/
def element (levels : Nat) : Grammar.Listing → Language Mark
  | .entries => slot levels * optional (token .colon * slot levels)
  | _ => slot levels

/-- An element that is there, or a token of noise in its place. -/
def item (levels : Nat) (listing : Grammar.Listing) : Language Mark :=
  (element levels listing - 1) + tokenOf (· ≠ listing.closing)

/-- The inside of a list and its closing token. -/
def list (levels : Nat) (listing : Grammar.Listing) : Language Mark :=
  (item levels listing * tokenIn listing.separators)∗ * optional (item levels listing) *
    optional (token listing.closing)

/-! ## Expressions -/

def properties : Language Mark :=
  (token .dot * token .identifier)∗ * optional (token .dot)

def primary (levels : Nat) : Language Mark :=
  tokenIn Grammar.atoms * properties * optional (token .leftParen * list levels .arguments) +
    token .leftParen * slot levels * optional (token .rightParen) +
    token .leftBracket * list levels .entries +
    token .leftBrace * list levels .array

def operators (levels : Nat) : Language Mark :=
  (tokenIn Grammar.binaryOperators * primary levels)∗ * optional (tokenIn Grammar.binaryOperators)

/-! ## Regions -/

/-- Whether these can be the children of a region with so many open braces:
the brace that closes the last of them is the last child. Other tokens do not
count, and neither do nodes. -/
def fitsRegion : (braces : Nat) → List Mark → Bool
  | 0, marks => marks.isEmpty
  | _ + 1, [] => true
  | braces + 1, some .leftBrace :: later => fitsRegion (braces + 2) later
  | braces + 1, some .rightBrace :: later => fitsRegion braces later
  | braces + 1, _ :: later => fitsRegion (braces + 1) later

/-- The children of a region whose opening brace stands before them. -/
def region : Language Mark := {marks | fitsRegion 1 marks = true}

/-! ## Nodes -/

def header (levels : Nat) : Language Mark := optional (token .leftParen * list levels .header)

def parameters : Language Mark :=
  optional (token .leftParen * ((token .identifier * token .comma)∗ *
    optional (token .identifier)) * optional (token .rightParen))

/-- The openers of a region: those of markup other than the end marker, and an
at sign with a brace. -/
def regionOpener : Language Mark :=
  tokenOf (fun kind => kind.isMarkup = true ∧ kind ≠ .markupEnd) +
    token .atSign * token .leftBrace

end Production

open Production in
/-- The marks that the children of a node may have, by the kind of the node;
`levels` levels of nesting are left inside it. No other kind is that of a
node. -/
def production (levels : Nat) : Kind → Language Mark
  | .root => (child + anyToken)∗
  | .expression => primary levels * operators levels
  | .assignment => primary levels * token .assign * slot levels
  | .ifStmt =>
      token .ifKeyword * condition levels * slot levels *
        optional (token .elseKeyword * slot levels)
  | .forStmt => (token .forKeyword + token .foreachKeyword) * header levels * slot levels
  | .whileStmt =>
      token .whileKeyword * condition levels * slot levels +
        token .doKeyword * condition levels * slot levels *
          optional ((token .whileKeyword + token .untilKeyword) * condition levels)
  | .returnStmt => token .returnKeyword * slot levels
  | .statement =>
      tokenOf (· ∈ [Kind.newKeyword, .assertKeyword, .isdefKeyword, .withKeyword]) * slot levels
  | .functionDef =>
      (token .defKeyword + token .functionKeyword) * optional (token .identifier) * parameters *
        slot levels
  | .templateBlock =>
      token .markupEnd * optional (token .rightBrace) + token .atSign + regionOpener * region
  | _ => 0

end TemplateFrontend
