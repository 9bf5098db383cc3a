import TemplateFrontend.Tree.Walk

/-!
Contract: the stack-driven walk agrees with plain recursion.

Owns:
- `Walk.pending`, what recursion says a walk in progress has still to visit;
- `visits_eq_nestedVisits`, the agreement on whole trees;
- what follows for the leaves and the depth of a tree.
-/

namespace TemplateFrontend

namespace Walk

/-- The visits still to come, by recursion: the rest of every entered node
from the inside out, then the root if it has not been visited. -/
def pending (walk : Walk) : List Visit :=
  walk.entered.flatMap (fun (node, later) => Tree.nestedVisitsAll later ++ [.leave node]) ++
    (walk.unvisited.map Tree.nestedVisits).getD []

theorem pending_of_next?_eq_some {walk after : Walk} {visit : Visit}
    (step : walk.next? = some (visit, after)) : walk.pending = visit :: after.pending := by
  unfold next? at step
  split at step <;>
    simp only [Option.some.injEq, Prod.mk.injEq, reduceCtorEq] at step <;>
    (obtain ⟨rfl, rfl⟩ := step) <;>
    simp [pending, Tree.nestedVisits, Tree.nestedVisitsAll]

theorem pending_of_next?_eq_none {walk : Walk} (atEnd : walk.next? = none) :
    walk.pending = [] := by
  unfold next? at atEnd
  split at atEnd
  · rfl
  all_goals cases atEnd

theorem drain_eq (walk : Walk) (visits : List Visit) :
    walk.drain visits = visits.reverse ++ walk.pending := by
  rw [drain]
  split
  · next atEnd => simp [pending_of_next?_eq_none atEnd]
  · next visit after step =>
      have fewer := remaining_of_next? step
      rw [drain_eq after (visit :: visits), pending_of_next?_eq_some step]
      simp
termination_by walk.remaining

end Walk

namespace Tree

theorem visits_eq_nestedVisits (tree : Tree) : tree.visits = tree.nestedVisits := by
  simp [visits, Walk.drain_eq, Walk.pending, Walk.ofTree]

def visitedToken? : Visit → Option Token
  | .token token => some token
  | .enter _ | .leave _ => none

theorem leaves_eq_filterMap (tree : Tree) : tree.leaves = tree.visits.filterMap visitedToken? :=
  rfl

mutual

theorem filterMap_nestedVisits :
    ∀ tree : Tree, tree.nestedVisits.filterMap visitedToken? = tree.frontier
  | .leaf token => rfl
  | .node kind span children => by
      simp [nestedVisits, frontier, List.filterMap_cons, visitedToken?,
        filterMap_nestedVisitsAll children]

theorem filterMap_nestedVisitsAll :
    ∀ row : List Tree, (nestedVisitsAll row).filterMap visitedToken? = frontierAll row
  | [] => rfl
  | child :: later => by
      simp [nestedVisitsAll, frontierAll, filterMap_nestedVisits child,
        filterMap_nestedVisitsAll later]

end

/-- Walking meets the tokens of a tree in source order, each one once. -/
theorem leaves_eq_frontier (tree : Tree) : tree.leaves = tree.frontier := by
  rw [leaves_eq_filterMap, visits_eq_nestedVisits, filterMap_nestedVisits]

mutual

/-- Visiting an element raises the greatest number of open nodes to what is open
around it together with its own height, and leaves as many open as before. -/
theorem foldl_nestedVisits :
    ∀ (tree : Tree) (nesting : Nesting), nesting.current ≤ nesting.deepest →
      tree.nestedVisits.foldl Nesting.after nesting =
        ⟨nesting.current, max nesting.deepest (nesting.current + tree.nodeHeight)⟩
  | .leaf _, nesting, within => by
      have same : max nesting.deepest nesting.current = nesting.deepest := Nat.max_eq_left within
      simp [nestedVisits, Nesting.after, nodeHeight, same]
  | .node kind span children, nesting, within => by
      have inside := foldl_nestedVisitsAll children
        ⟨nesting.current + 1, max nesting.deepest (nesting.current + 1)⟩
        (Nat.le_max_right _ _)
      simp only [nestedVisits, List.foldl_cons, List.foldl_append, List.foldl_nil, Nesting.after,
        inside, nodeHeight, Nat.add_sub_cancel, Nesting.mk.injEq, true_and]
      omega

theorem foldl_nestedVisitsAll :
    ∀ (row : List Tree) (nesting : Nesting), nesting.current ≤ nesting.deepest →
      (nestedVisitsAll row).foldl Nesting.after nesting =
        ⟨nesting.current, max nesting.deepest (nesting.current + nodeHeightAll row)⟩
  | [], nesting, within => by
      have same : max nesting.deepest nesting.current = nesting.deepest := Nat.max_eq_left within
      simp [nestedVisitsAll, nodeHeightAll, same]
  | child :: later, nesting, within => by
      have front := foldl_nestedVisits child nesting within
      have back := foldl_nestedVisitsAll later
        ⟨nesting.current, max nesting.deepest (nesting.current + child.nodeHeight)⟩
        (Nat.le_trans within (Nat.le_max_left _ _))
      simp only [nestedVisitsAll, List.foldl_append, front, back, nodeHeightAll,
        Nesting.mk.injEq, true_and]
      omega

end

/-- The depth that a walk counts is the height below the element. -/
theorem depth_eq (tree : Tree) : tree.depth = tree.nodeHeight - 1 := by
  have walked := foldl_nestedVisits tree ⟨0, 0⟩ (Nat.le_refl 0)
  simp only [depth, visits_eq_nestedVisits, walked]
  omega

end Tree

end TemplateFrontend
