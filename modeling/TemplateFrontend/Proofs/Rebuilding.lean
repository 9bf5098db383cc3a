import TemplateFrontend.Proofs.Tree.Building

/-!
Contract: builders and walks are inverse to each other.

Owns:
- `Builder.Builds`, the steps that a builder accepts and that finish a single root;
- `builds_iff`, which says that these are the walks of measured nodes;
- `walk_builds_back`: what has been built walks as it was built, and its walk builds
  it again.
-/

namespace TemplateFrontend

/-- From `offset` on a builder accepts the steps, and they finish `tree` and no other
node without an enclosing one. -/
structure Builder.Builds (offset : Nat) (steps : List BuildStep) (tree : Tree) : Prop where
  accepted : ∃ built, (Builder.atOffset offset).run steps = .ok built ∧ built.finish = .ok tree
  single : BuildStep.topLevelNodes 0 steps = 1

mutual

/-- The walk of a node finishes no node outside of it. -/
theorem Tree.topLevelNodes_walkSteps :
    ∀ (tree : Tree) (opened : Nat) (more : List BuildStep),
      BuildStep.topLevelNodes (opened + 1) (tree.walkSteps ++ more) =
        BuildStep.topLevelNodes (opened + 1) more
  | .leaf _, _, _ => by
      rw [walkSteps_leaf]
      rfl
  | .node kind span children, opened, more => by
      rw [walkSteps_node, List.cons_append, List.append_assoc, BuildStep.topLevelNodes,
        topLevelNodes_walkStepsAll children (opened + 1), List.singleton_append,
        BuildStep.topLevelNodes, if_neg (by omega), Nat.zero_add, Nat.add_sub_cancel]

theorem Tree.topLevelNodes_walkStepsAll :
    ∀ (row : List Tree) (opened : Nat) (more : List BuildStep),
      BuildStep.topLevelNodes (opened + 1) (walkStepsAll row ++ more) =
        BuildStep.topLevelNodes (opened + 1) more
  | [], _, _ => rfl
  | child :: later, opened, more => by
      rw [walkStepsAll, List.flatMap_cons, List.append_assoc, topLevelNodes_walkSteps child,
        ← walkStepsAll, topLevelNodes_walkStepsAll later]

end

/-- A builder builds a tree by the walk of the tree and by nothing else, and only a node
whose spans are those of its tokens. -/
theorem builds_iff {offset : Nat} {steps : List BuildStep} {tree : Tree} :
    Builder.Builds offset steps tree ↔
      tree.isNode = true ∧ tree.MeasuredFrom offset ∧ tree.walkSteps = steps := by
  constructor
  · rintro ⟨⟨built, ran, finishes⟩, single⟩
    obtain ⟨isNode, walkEq, measured⟩ :=
      Builder.walk_of_run (.atOffset offset) ran finishes single
    exact ⟨isNode, measured, walkEq⟩
  · rintro ⟨isNode, measured, rfl⟩
    cases tree with
    | leaf token => cases isNode
    | node kind span children =>
        refine ⟨⟨_, Tree.run_walkSteps_node measured, rfl⟩, ?_⟩
        rw [Tree.walkSteps_node, BuildStep.topLevelNodes, Tree.topLevelNodes_walkStepsAll]
        rfl

/-- The walk of a tree that has been built is the row of steps that built it, and its
walk builds it again from the same offset. Every node in it spans from the start of its
first child to the end of its last one; without children it is empty where the last
token before it ends, or at the offset where there is none. -/
theorem walk_builds_back (offset : Nat) (steps : List BuildStep) (tree : Tree)
    (builds : Builder.Builds offset steps tree) :
    tree.visits.map BuildStep.ofVisit = steps ∧
      Builder.Builds offset (tree.visits.map BuildStep.ofVisit) tree ∧
      ∀ front node later, tree.visits = front ++ .enter node :: later →
        (∀ first last, node.children.head? = some first → node.children.getLast? = some last →
          node.span = ⟨first.span.start, last.span.stop⟩) ∧
        (node.children = [] → node.span =
          .emptyAt (Token.lastStop offset (front.filterMap Tree.visitedToken?))) := by
  obtain ⟨isNode, measured, walkEq⟩ := builds_iff.mp builds
  refine ⟨walkEq, builds_iff.mpr ⟨isNode, measured, rfl⟩, ?_⟩
  intro front node later split
  rw [Tree.visits_eq_nestedVisits] at split
  have spanEq := Tree.span_of_visits_eq tree offset measured split
  constructor
  · intro first last firstEq lastEq
    simp only [spanEq, Tree.spanAll, firstEq, lastEq]
  · intro childless
    rw [spanEq, childless]
    rfl

/-- A node with a gap between its tokens and with two nodes that have no children, one
before the first token and one between the tokens. -/
theorem walk_builds_back_around_gap :
    let steps : List BuildStep := [.start .root, .start .expression, .finish,
      .token ⟨.identifier, ⟨7, 9⟩⟩, .start .statement, .finish, .token ⟨.string, ⟨12, 14⟩⟩, .finish]
    let tree : Tree := .node .root ⟨5, 14⟩ [.node .expression ⟨5, 5⟩ [],
      .leaf ⟨.identifier, ⟨7, 9⟩⟩, .node .statement ⟨9, 9⟩ [], .leaf ⟨.string, ⟨12, 14⟩⟩]
    Builder.Builds 5 steps tree ∧ tree.visits.map BuildStep.ofVisit = steps ∧
      Builder.Builds 5 (tree.visits.map BuildStep.ofVisit) tree := by
  intro steps tree
  have builds : Builder.Builds 5 steps tree := ⟨⟨_, rfl, rfl⟩, rfl⟩
  obtain ⟨walkEq, again, _⟩ := walk_builds_back 5 steps tree builds
  exact ⟨builds, walkEq, again⟩

end TemplateFrontend
