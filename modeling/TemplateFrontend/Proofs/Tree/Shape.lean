import TemplateFrontend.Proofs.Tree.Measure

/-!
Contract: what is left of a tree without its trivia and its spans.

Owns:
- `Shape`, a tree of kinds, and its spelling;
- the shapes of outlines and of trees, and that measuring keeps the shape.
-/

namespace TemplateFrontend

/-- A tree of kinds. -/
inductive Shape where
  | leaf (kind : Kind)
  | node (kind : Kind) (parts : List Shape)

namespace Shape

mutual

/-- The kinds of the tokens of a shape, in order. -/
def spelling : Shape → List Kind
  | .leaf kind => [kind]
  | .node _ parts => spellingAll parts

def spellingAll : List Shape → List Kind
  | [] => []
  | part :: later => part.spelling ++ spellingAll later

end

@[simp] theorem spellingAll_nil : spellingAll [] = [] := rfl

@[simp] theorem spellingAll_leaf_cons (kind : Kind) (later : List Shape) :
    spellingAll (.leaf kind :: later) = kind :: spellingAll later := rfl

@[simp] theorem spellingAll_node_cons (kind : Kind) (parts later : List Shape) :
    spellingAll (.node kind parts :: later) = spellingAll parts ++ spellingAll later := rfl

@[simp] theorem spellingAll_append (left right : List Shape) :
    spellingAll (left ++ right) = spellingAll left ++ spellingAll right := by
  induction left with
  | nil => rfl
  | cons part later inductionHypothesis => simp [spellingAll, inductionHypothesis]

end Shape

namespace Outline

mutual

/-- The shape of an element, if it is not trivia. -/
def shape? : Outline → Option Shape
  | .leaf token => if token.isTrivia then none else some (.leaf token.kind)
  | .node kind parts => some (.node kind (shapes parts))

/-- The shapes of the significant parts of a row. -/
def shapes : List Outline → List Shape
  | [] => []
  | part :: later => part.shape?.toList ++ shapes later

end

@[simp] theorem shapes_append (left right : List Outline) :
    shapes (left ++ right) = shapes left ++ shapes right := by
  induction left with
  | nil => rfl
  | cons part later inductionHypothesis => simp [shapes, inductionHypothesis]

theorem shapes_reverse (parts : List Outline) : shapes parts.reverse = (shapes parts).reverse := by
  induction parts with
  | nil => rfl
  | cons part later inductionHypothesis =>
      rw [List.reverse_cons, shapes_append, inductionHypothesis]
      cases found : part.shape? <;> simp [shapes, found]

theorem shapes_map_leaf (tokens : List Token) :
    shapes (tokens.map .leaf) =
      ((tokens.filter fun token => !token.isTrivia).map Token.kind).map .leaf := by
  induction tokens with
  | nil => rfl
  | cons token later inductionHypothesis =>
      by_cases trivia : token.isTrivia = true
      · simp [shapes, shape?, trivia, inductionHypothesis]
      · simp [shapes, shape?, trivia, inductionHypothesis]

theorem shapes_map_leaf_of_trivia {tokens : List Token}
    (trivia : ∀ token ∈ tokens, token.isTrivia = true) : shapes (tokens.map .leaf) = [] := by
  have nothing : (tokens.filter fun token => !token.isTrivia) = [] :=
    List.filter_eq_nil_iff.mpr fun token member => by simp [trivia token member]
  rw [shapes_map_leaf, nothing]
  rfl

end Outline

namespace Tree

mutual

def shape? : Tree → Option Shape
  | .leaf token => if token.isTrivia then none else some (.leaf token.kind)
  | .node kind _ children => some (.node kind (shapes children))

def shapes : List Tree → List Shape
  | [] => []
  | child :: later => child.shape?.toList ++ shapes later

end

end Tree

namespace Outline

mutual

theorem shape?_measure :
    ∀ (outline : Outline) (offset : Nat), (outline.measure offset).shape? = outline.shape?
  | .leaf token, _ => by simp only [measure, Tree.shape?, shape?]
  | .node kind parts, offset => by
      simp only [measure, Tree.shape?, shape?]
      rw [shapes_measureAll parts]

theorem shapes_measureAll :
    ∀ (parts : List Outline) (offset : Nat), Tree.shapes (measureAll offset parts) = shapes parts
  | [], _ => rfl
  | part :: later, offset => by
      simp only [measureAll, Tree.shapes, shapes]
      rw [shape?_measure part, shapes_measureAll later]

end

end Outline

end TemplateFrontend
