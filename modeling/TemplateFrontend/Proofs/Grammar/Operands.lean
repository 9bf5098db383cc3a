import TemplateFrontend.Grammar.Statement
import TemplateFrontend.Proofs.Grammar.Moves
import TemplateFrontend.Proofs.Tree.Measure

/-!
Contract: where the children of a node still await an operand.

Owns:
- `Mark`, how a significant child looks from outside, and the marks of the
  children of a node;
- `awaitsOperand`, which tells from the marks whether the rule of the node
  ended by offering the place of a statement that none took.

Operands may be missing everywhere, so the marks are read with the same
greed with which the rules place them: an optional condition, the elements of
a loop header, a closing token.
-/

namespace TemplateFrontend

/-- How a significant child of a node looks from outside: the kind of a token,
or `none` for a node. -/
abbrev Mark := Option Kind

namespace Outline

def isTriviaLeaf : Outline → Bool
  | .leaf token => token.isTrivia
  | .node _ _ => false

def mark : Outline → Mark
  | .leaf token => some token.kind
  | .node _ _ => none

def marks (parts : List Outline) : List Mark :=
  (parts.filter fun part => !part.isTriviaLeaf).map mark

@[simp] theorem marks_nil : marks [] = [] := rfl

@[simp] theorem marks_append (left right : List Outline) :
    marks (left ++ right) = marks left ++ marks right := by
  simp [marks]

theorem marks_reverse (parts : List Outline) : marks parts.reverse = (marks parts).reverse := by
  simp [marks]

theorem marks_cons (part : Outline) (later : List Outline)
    (significant : part.isTriviaLeaf = false) :
    marks (part :: later) = part.mark :: marks later := by
  simp [marks, significant]

theorem marks_leaves_of_trivia {tokens : List Token}
    (trivia : ∀ token ∈ tokens, token.isTrivia = true) : marks (Draft.leaves tokens) = [] := by
  simp only [marks, Draft.leaves, List.map_eq_nil_iff, List.filter_eq_nil_iff, List.mem_reverse,
    List.mem_map]
  rintro part ⟨token, member, rfl⟩
  simp [isTriviaLeaf, trivia token member]

end Outline

namespace Tree

def isTriviaLeaf : Tree → Bool
  | .leaf token => token.isTrivia
  | .node _ _ _ => false

def mark : Tree → Mark
  | .leaf token => some token.kind
  | .node _ _ _ => none

/-- The children that are not trivia. -/
def significant (children : List Tree) : List Tree :=
  children.filter fun child => !child.isTriviaLeaf

@[simp] theorem significant_nil : significant [] = [] := rfl

def marks (children : List Tree) : List Mark := (significant children).map mark

end Tree

namespace Outline

@[simp] theorem isTriviaLeaf_measure (part : Outline) (offset : Nat) :
    (part.measure offset).isTriviaLeaf = part.isTriviaLeaf := by
  cases part <;> simp [measure, Tree.isTriviaLeaf, isTriviaLeaf]

@[simp] theorem mark_measure (part : Outline) (offset : Nat) :
    (part.measure offset).mark = part.mark := by
  cases part <;> simp [measure, Tree.mark, mark]

theorem marks_measureAll (parts : List Outline) (offset : Nat) :
    Tree.marks (measureAll offset parts) = marks parts := by
  induction parts generalizing offset with
  | nil => simp [measureAll, Tree.marks, Tree.significant]
  | cons part later inductionHypothesis =>
      have rest := inductionHypothesis (part.measure offset).span.stop
      simp only [Tree.marks, Tree.significant, marks] at rest ⊢
      by_cases trivia : part.isTriviaLeaf = true <;> simp [measureAll, trivia, rest]

end Outline

namespace Grammar

/-! ## Reading marks from the front -/

/-- The marks after a statement that may be missing. -/
def afterStatement : List Mark → List Mark
  | none :: later => later
  | marks => marks

def afterToken (kind : Kind) (marks : List Mark) : List Mark :=
  if marks.head? = some (some kind) then marks.tail else marks

def afterCondition : List Mark → List Mark
  | some .leftParen :: later => afterToken .rightParen (afterStatement later)
  | marks => marks

/-- The marks after the elements of a loop header that takes at most `turns`
turns. An element is a statement or a token of noise; a turn follows another
one only after a separator. -/
def afterElements : (turns : Nat) → List Mark → List Mark
  | 0, marks => marks
  | _ + 1, [] => []
  | turns + 1, element :: later =>
      if element = some .rightParen then
        element :: later
      else
        match later with
        | some separator :: more =>
            if headerSeparators.contains separator then afterElements turns more else later
        | _ => later

def afterHeader (turns : Nat) : List Mark → List Mark
  | some .leftParen :: later => afterToken .rightParen (afterElements turns later)
  | marks => marks

/-! ## Awaited operands -/

/-- Tokens that open a primary with an inside. -/
def isOpening : Mark → Bool
  | some .leftParen | some .leftBracket | some .leftBrace => true
  | _ => false

/-- A parenthesis opens a primary at the start of an expression and after an
operator; after a name it opens arguments. The last mark comes first. -/
def startsPrimary : (earlier : List Mark) → Bool
  | [] => true
  | some kind :: _ => binaryOperators.contains kind
  | none :: _ => false

/-- An expression awaits an operand after the parenthesis of a primary, and
after the colon of an entry of a list literal. The last mark comes first. -/
def expressionAwaits : (backwards : List Mark) → Bool
  | some .leftParen :: earlier => startsPrimary earlier
  | some .colon :: earlier => earlier.find? isOpening = some (some .leftBracket)
  | _ => false

/-- The last mark, if there is one, is that of a token. -/
def endsInToken (marks : List Mark) : Bool :=
  match marks.getLast? with
  | some (some _) => true
  | _ => false

/-- The marks of a loop with its condition behind the body. -/
def hasTrailingCondition (marks : List Mark) : Bool :=
  marks.tail.contains (some .whileKeyword) || marks.tail.contains (some .untilKeyword)

/-- The rule of a node with these marks ended where a statement may stand, and
found none. -/
def awaitsOperand (limits : Limits) (kind : Kind) (marks : List Mark) : Bool :=
  match kind with
  | .templateBlock => false
  | .expression => expressionAwaits marks.reverse
  | .ifStmt =>
      marks.getLast? = some (some .elseKeyword) || (afterCondition marks.tail).isEmpty
  | .whileStmt =>
      if hasTrailingCondition marks then
        marks.getLast? = some (some .leftParen)
      else
        (afterCondition marks.tail).isEmpty
  | .forStmt => (afterHeader limits.iterations marks.tail).isEmpty
  | _ => endsInToken marks

end Grammar

end TemplateFrontend
