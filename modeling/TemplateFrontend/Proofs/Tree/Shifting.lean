import TemplateFrontend.Proofs.Tree.Measure

/-!
Contract: outlines and trees in a text that has more bytes in front.

Owns:
- `Outline.shift` and `Tree.shift`, which move every span by a distance;
- `measure_shift`: measuring a shifted outline gives the shifted tree.
-/

namespace TemplateFrontend

namespace Tree

mutual

def shift (distance : Nat) : Tree → Tree
  | .leaf token => .leaf (token.shift distance)
  | .node kind span children => .node kind (span.shift distance) (shiftAll distance children)

def shiftAll (distance : Nat) : List Tree → List Tree
  | [] => []
  | child :: later => child.shift distance :: shiftAll distance later

end

theorem span_shift (distance : Nat) (tree : Tree) :
    (tree.shift distance).span = tree.span.shift distance := by
  cases tree with
  | leaf token => rfl
  | node kind span children => rfl

theorem shiftAll_eq_map (distance : Nat) (children : List Tree) :
    shiftAll distance children = children.map (shift distance) := by
  induction children with
  | nil => rfl
  | cons child later inductionHypothesis =>
      rw [shiftAll, inductionHypothesis, List.map_cons]

theorem spanAll_shift (distance offset : Nat) (children : List Tree) :
    spanAll (distance + offset) (shiftAll distance children) =
      (spanAll offset children).shift distance := by
  rw [shiftAll_eq_map, spanAll, spanAll, List.head?_map, List.getLast?_map]
  cases children.head? with
  | none => rfl
  | some first =>
      cases children.getLast? with
      | none => rfl
      | some last =>
          simp only [Option.map_some, span_shift]
          rfl

end Tree

namespace Outline

mutual

def shift (distance : Nat) : Outline → Outline
  | .leaf token => .leaf (token.shift distance)
  | .node kind parts => .node kind (shiftAll distance parts)

def shiftAll (distance : Nat) : List Outline → List Outline
  | [] => []
  | part :: later => part.shift distance :: shiftAll distance later

end

theorem shiftAll_eq_map (distance : Nat) (parts : List Outline) :
    shiftAll distance parts = parts.map (shift distance) := by
  induction parts with
  | nil => rfl
  | cons part later inductionHypothesis =>
      rw [shiftAll, inductionHypothesis, List.map_cons]

theorem shiftAll_append (distance : Nat) (left right : List Outline) :
    shiftAll distance (left ++ right) = shiftAll distance left ++ shiftAll distance right := by
  simp only [shiftAll_eq_map, List.map_append]

theorem shiftAll_reverse (distance : Nat) (parts : List Outline) :
    shiftAll distance parts.reverse = (shiftAll distance parts).reverse := by
  simp only [shiftAll_eq_map, List.map_reverse]

theorem shiftAll_map_leaf (distance : Nat) (tokens : List Token) :
    shiftAll distance (tokens.map .leaf) = (tokens.map (Token.shift distance)).map .leaf := by
  rw [shiftAll_eq_map, List.map_map, List.map_map]
  rfl

mutual

theorem measure_shift :
    ∀ (outline : Outline) (distance offset : Nat),
      (outline.shift distance).measure (distance + offset) =
        (outline.measure offset).shift distance
  | .leaf _, _, _ => by simp only [shift, measure, Tree.shift]
  | .node kind parts, distance, offset => by
      simp only [shift, measure, Tree.shift]
      rw [measureAll_shift parts, Tree.spanAll_shift]

theorem measureAll_shift :
    ∀ (parts : List Outline) (distance offset : Nat),
      measureAll (distance + offset) (shiftAll distance parts) =
        Tree.shiftAll distance (measureAll offset parts)
  | [], _, _ => rfl
  | part :: later, distance, offset => by
      simp only [shiftAll, measureAll, Tree.shiftAll]
      rw [measure_shift part, Tree.span_shift]
      exact congrArg (_ :: ·) (measureAll_shift later distance (part.measure offset).span.stop)

end

end Outline

end TemplateFrontend
