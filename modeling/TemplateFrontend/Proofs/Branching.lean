import TemplateFrontend.Proofs.Grammar.Branching
import TemplateFrontend.Proofs.Parsing
import Mathlib

/-!
Contract: the ceilings on turns bound the children of every node of a tree.

Owns:
- the weights of the children of a node as numbers of children;
- `parse_branching`, which takes the bounds of the rules to every node of a parsed tree.
-/

namespace TemplateFrontend

open Production (within)

namespace Tree

theorem marks_cons_of_trivia {child : Tree} (trivia : child.isTriviaLeaf = true)
    (later : List Tree) : marks (child :: later) = marks later := by
  simp [marks, significant, trivia]

theorem marks_cons {child : Tree} (isSignificant : child.isTriviaLeaf = false)
    (later : List Tree) : marks (child :: later) = child.mark :: marks later := by
  simp [marks, significant, isSignificant]

/-- The nodes among some children weigh one each. -/
theorem sum_nodeWeight (children : List Tree) :
    ((marks children).map Mark.nodeWeight).sum = (children.filter isNode).length := by
  induction children with
  | nil => rfl
  | cons child later inductionHypothesis =>
      cases trivia : child.isTriviaLeaf with
      | true =>
          have notNode : ¬child.isNode = true := by
            cases child with
            | leaf token => exact nofun
            | node kind span inner => cases trivia
          rw [marks_cons_of_trivia trivia, inductionHypothesis, List.filter_cons_of_neg notNode]
      | false =>
          rw [marks_cons trivia, List.map_cons, List.sum_cons, inductionHypothesis]
          cases child with
          | leaf token => exact Nat.zero_add _
          | node kind span inner => exact Nat.add_comm 1 _

theorem sum_unitWeight (children : List Tree) :
    ((marks children).map Mark.unitWeight).sum = (significant children).length := by
  show ((marks children).map fun _ => 1).sum = _
  rw [List.map_const', List.sum_replicate, marks, List.length_map, smul_eq_mul, Nat.mul_one]

end Tree

/-- Under any ceilings a node has no more child nodes than the ceilings on turns allow
for its kind, and a markup block no more significant children than two for its opening
and one for each turn of its region. -/
theorem parse_branching (text : Text) (window : Span) (limits : Limits)
    (admitted : text.Admits window) :
    ∃ parsed, parse text window limits = .ok parsed ∧
      ∀ path kind span children, parsed.tree.at? path = some (.node kind span children) →
        (Tree.node kind span children).childNodes.length ≤ limits.branching kind ∧
        (kind = .templateBlock →
          (Tree.significant children).length ≤ limits.regionIterations + 2) := by
  obtain ⟨tokens, parts, parsed, reading⟩ := exists_reading limits admitted
  refine ⟨parsed, reading.parsed_eq, ?_⟩
  intro path kind span children reached
  have branching : Grammar.Branching limits kind (Tree.marks children) := by
    by_cases atRoot : path = []
    · rw [atRoot, reading.tree_eq] at reached
      cases reached
      rw [Outline.marks_measureAll]
      exact Grammar.program_branching reading.outline_eq
    · obtain ⟨levels, inner, before, after, _, origin, placed⟩ := reading.node_at atRoot reached
      rw [placed.children_eq, Outline.marks_measureAll]
      exact origin.branching
  obtain ⟨nodes, all⟩ := branching
  constructor
  · rw [Tree.childNodes, Tree.children, ← Tree.sum_nodeWeight]
    exact nodes
  · intro isTemplate
    rw [← Tree.sum_unitWeight]
    exact all isTemplate

/-- Under ceilings of zero a parenthesis still holds a node, and a markup block the two
tokens of its opening. -/
theorem parse_branching_under_zero :
    Text.Admits "(x)@ {}".toList ⟨0, 7⟩ ∧ ∃ parsed expression block,
      parse "(x)@ {}".toList ⟨0, 7⟩ ⟨2, 0, 0, 0, 2⟩ = .ok parsed ∧
      parsed.tree.at? [0] = some (.node .expression ⟨0, 3⟩ expression) ∧
      parsed.tree.at? [1] = some (.node .templateBlock ⟨3, 6⟩ block) ∧
      (expression.filter Tree.isNode).length = 1 ∧ (Tree.significant block).length = 2 ∧
      parsed.tree.childNodes.length ≤ 2 ∧ (expression.filter Tree.isNode).length ≤ 1 ∧
      (Tree.significant block).length ≤ 2 := by
  have admitted : Text.Admits "(x)@ {}".toList ⟨0, 7⟩ := Text.admits_whole "(x)@ {}".toList
  have parsedEq : parse "(x)@ {}".toList ⟨0, 7⟩ ⟨2, 0, 0, 0, 2⟩ =
      .ok ⟨.node .root ⟨0, 7⟩
        [.node .expression ⟨0, 3⟩
          [.leaf ⟨.leftParen, ⟨0, 1⟩⟩,
            .node .expression ⟨1, 2⟩ [.leaf ⟨.identifier, ⟨1, 2⟩⟩],
            .leaf ⟨.rightParen, ⟨2, 3⟩⟩],
          .node .templateBlock ⟨3, 6⟩
            [.leaf ⟨.atSign, ⟨3, 4⟩⟩, .leaf ⟨.whitespace, ⟨4, 5⟩⟩, .leaf ⟨.leftBrace, ⟨5, 6⟩⟩],
          .leaf ⟨.rightBrace, ⟨6, 7⟩⟩],
        [⟨.markupRegion, 6⟩, ⟨.topLevel, 6⟩]⟩ := by cbv
  obtain ⟨parsed, boundedEq, bounded⟩ := parse_branching _ _ _ admitted
  cases parsedEq.symm.trans boundedEq
  have root := (bounded [] .root _ _ rfl).1
  have primary := (bounded [0] .expression _ _ rfl).1
  have block := (bounded [1] .templateBlock _ _ rfl).2 rfl
  exact ⟨admitted, _, _, _, parsedEq, rfl, rfl, rfl, rfl, root, primary, block⟩

end TemplateFrontend
