import TemplateFrontend.Fault
import TemplateFrontend.Text.Slice
import TemplateFrontend.Token

/-!
Contract: the tree of a parsed window.

Owns:
- the type `Tree`, whose leaves are tokens and whose nodes are tagged by kind;
- access to the parts of one node;
- the plain recursive listings that the stack-driven walk of
  `TemplateFrontend.Tree.Walk` is compared with;
- decidable equality.

A tree holds spans and no text; to show the text of an element, give the text
that the tree was parsed from.
-/

namespace TemplateFrontend

/-- A leaf is a token; a node has a kind, a span and its children in source
order. -/
inductive Tree where
  | leaf (token : Token)
  | node (kind : Kind) (span : Span) (children : List Tree)
deriving Inhabited

namespace Tree

def isNode : Tree → Bool
  | .leaf _ => false
  | .node _ _ _ => true

def kind : Tree → Kind
  | .leaf token => token.kind
  | .node kind _ _ => kind

def span : Tree → Span
  | .leaf token => token.span
  | .node _ span _ => span

/-- Nodes and tokens directly below; a leaf has none. -/
def children : Tree → List Tree
  | .leaf _ => []
  | .node _ _ children => children

def token? : Tree → Option Token
  | .leaf token => some token
  | .node _ _ _ => none

def childNodes (tree : Tree) : List Tree := tree.children.filter isNode

def childTokens (tree : Tree) : List Token := tree.children.filterMap token?

/-- The piece of `text` that the element covers. -/
def text (tree : Tree) (text : Text) : Except Fault Text := text.slice tree.span

/-- The element reached by taking a child at each index in turn; `none` where
an index is out of range. -/
def at? : Tree → (path : List Nat) → Option Tree
  | tree, [] => some tree
  | tree, index :: path =>
      match tree.children[index]? with
      | some child => child.at? path
      | none => none

/-! ## Recursive listings -/

mutual

/-- Every token below, in source order, by recursion. -/
def frontier : Tree → List Token
  | .leaf token => [token]
  | .node _ _ children => frontierAll children

def frontierAll : List Tree → List Token
  | [] => []
  | child :: later => child.frontier ++ frontierAll later

end

mutual

/-- Number of nodes on the longest way down from here, a leaf counting zero. -/
def nodeHeight : Tree → Nat
  | .leaf _ => 0
  | .node _ _ children => nodeHeightAll children + 1

def nodeHeightAll : List Tree → Nat
  | [] => 0
  | child :: later => max child.nodeHeight (nodeHeightAll later)

end

/-! ## Equality -/

mutual

def same : Tree → Tree → Bool
  | .leaf left, .leaf right => left == right
  | .node leftKind leftSpan left, .node rightKind rightSpan right =>
      leftKind == rightKind && leftSpan == rightSpan && sameAll left right
  | _, _ => false

def sameAll : List Tree → List Tree → Bool
  | [], [] => true
  | left :: lefts, right :: rights => left.same right && sameAll lefts rights
  | _, _ => false

end

mutual

theorem same_iff_eq : ∀ left right : Tree, left.same right = true ↔ left = right
  | .leaf _, .leaf _ => by simp [same]
  | .leaf _, .node _ _ _ => by simp [same]
  | .node _ _ _, .leaf _ => by simp [same]
  | .node _ _ left, .node _ _ right => by
      simp [same, sameAll_iff_eq left right, and_assoc]

theorem sameAll_iff_eq : ∀ left right : List Tree, sameAll left right = true ↔ left = right
  | [], [] => by simp [sameAll]
  | [], _ :: _ => by simp [sameAll]
  | _ :: _, [] => by simp [sameAll]
  | left :: lefts, right :: rights => by
      simp [sameAll, same_iff_eq left right, sameAll_iff_eq lefts rights]

end

instance : DecidableEq Tree := fun left right =>
  decidable_of_iff (left.same right = true) (same_iff_eq left right)

end Tree

end TemplateFrontend
