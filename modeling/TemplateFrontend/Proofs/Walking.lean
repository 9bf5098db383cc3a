import TemplateFrontend.Proofs.Tree.Recursion
import Mathlib.Data.List.Basic

/-!
Contract: walking a node is walking its children between entering and leaving it.

Owns:
- `Walk.calls`, the answers of a number of calls in a row, past the end of the walk too;
- `Nesting.LeavesAbove`, which says how many nodes are open wherever one is left;
- `walk_by_recursion`: the visits, the leaves and the depth of a node by those of its
  children.
-/

namespace TemplateFrontend

/-! ## Calls in a row -/

namespace Walk

/-- One call: the next visit and the walk behind it. At its end a walk has none to give
and stays where it is. -/
def call (walk : Walk) : Option Visit × Walk :=
  match walk.next? with
  | some (visit, after) => (some visit, after)
  | none => (none, walk)

/-- What a number of calls in a row answers, and the walk behind the last one. -/
def calls : (count : Nat) → Walk → List (Option Visit) × Walk
  | 0, walk => ([], walk)
  | count + 1, walk =>
      let (answer, after) := walk.call
      let (later, last) := calls count after
      (answer :: later, last)

/-- The calls answer with the visits still to come; those that are left over answer with
none. -/
theorem calls_eq (count : Nat) (walk : Walk) :
    (walk.calls count).1 = (walk.pending.take count).map some ++
      List.replicate (count - walk.pending.length) none := by
  induction count generalizing walk with
  | zero => simp [calls]
  | succ count inductionHypothesis =>
      rw [calls]
      dsimp only
      rw [inductionHypothesis, call]
      cases step : walk.next? with
      | none => simp [pending_of_next?_eq_none step, List.replicate_succ]
      | some result => simp [pending_of_next?_eq_some step]

theorem pending_ofTree (tree : Tree) : (ofTree tree).pending = tree.visits := by
  rw [Tree.visits_eq_nestedVisits]
  rfl

end Walk

namespace Tree

/-! ## Open nodes -/

/-- Wherever a node is left, more than `floor` nodes are open. -/
def Nesting.LeavesAbove (floor : Nat) : Nesting → List Visit → Prop
  | _, [] => True
  | nesting, visit :: later =>
      (∀ node, visit = .leave node → floor < nesting.current) ∧
        LeavesAbove floor (nesting.after visit) later

theorem Nesting.leavesAbove_append {floor : Nat} {left right : List Visit} (nesting : Nesting) :
    nesting.LeavesAbove floor (left ++ right) ↔
      nesting.LeavesAbove floor left ∧
        (left.foldl Nesting.after nesting).LeavesAbove floor right := by
  induction left generalizing nesting with
  | nil => simp [LeavesAbove]
  | cons visit later inductionHypothesis =>
      simp only [List.cons_append, LeavesAbove, List.foldl_cons, inductionHypothesis, and_assoc]

theorem Nesting.LeavesAbove.mono {floor lower : Nat} (le : lower ≤ floor) {visits : List Visit} :
    ∀ {nesting : Nesting}, nesting.LeavesAbove floor visits → nesting.LeavesAbove lower visits := by
  induction visits with
  | nil => exact fun _ => trivial
  | cons visit later inductionHypothesis =>
      rintro nesting ⟨above, others⟩
      exact ⟨fun node leaves => Nat.lt_of_le_of_lt le (above node leaves),
        inductionHypothesis others⟩

mutual

/-- A walk leaves only nodes that it has entered. -/
theorem leavesAbove_nestedVisits :
    ∀ (tree : Tree) (nesting : Nesting), nesting.current ≤ nesting.deepest →
      nesting.LeavesAbove nesting.current tree.nestedVisits
  | .leaf token, nesting, _ => by simp [nestedVisits, Nesting.LeavesAbove]
  | .node kind span children, nesting, _ => by
      let entered : Nesting := nesting.after (.enter (.node kind span children))
      have within : entered.current ≤ entered.deepest := Nat.le_max_right _ _
      have inside := leavesAbove_nestedVisitsAll children entered within
      have walked := foldl_nestedVisitsAll children entered within
      have above : nesting.current ≤ entered.current := Nat.le_succ _
      refine ⟨by simp, (Nesting.leavesAbove_append entered).mpr ⟨inside.mono above, ?_⟩⟩
      rw [walked]
      exact ⟨fun _ _ => Nat.lt_succ_self _, trivial⟩

theorem leavesAbove_nestedVisitsAll :
    ∀ (row : List Tree) (nesting : Nesting), nesting.current ≤ nesting.deepest →
      nesting.LeavesAbove nesting.current (nestedVisitsAll row)
  | [], _, _ => trivial
  | child :: later, nesting, within => by
      have front := leavesAbove_nestedVisits child nesting within
      have walked := foldl_nestedVisits child nesting within
      have behind := leavesAbove_nestedVisitsAll later
        ⟨nesting.current, max nesting.deepest (nesting.current + child.nodeHeight)⟩
        (Nat.le_trans within (Nat.le_max_left _ _))
      refine (Nesting.leavesAbove_append nesting).mpr ⟨front, ?_⟩
      rw [walked]
      exact behind

end

/-- Where a walk leaves a node, a node is open. -/
theorem open_of_leave {tree left : Tree} {front later : List Visit}
    (split : tree.visits = front ++ .leave left :: later) :
    0 < (front.foldl Nesting.after ⟨0, 0⟩).current := by
  have above := leavesAbove_nestedVisits tree ⟨0, 0⟩ (Nat.le_refl 0)
  rw [← visits_eq_nestedVisits, split, Nesting.leavesAbove_append] at above
  exact above.2.1 left rfl

/-! ## Nodes by their children -/

theorem nestedVisitsAll_eq_flatMap (row : List Tree) :
    nestedVisitsAll row = row.flatMap visits := by
  induction row with
  | nil => rfl
  | cons child later inductionHypothesis =>
      rw [nestedVisitsAll, inductionHypothesis, List.flatMap_cons, visits_eq_nestedVisits]

theorem nodeHeight_eq_depth_add_one {tree : Tree} (isNode : tree.isNode = true) :
    tree.nodeHeight = tree.depth + 1 := by
  rw [depth_eq]
  cases tree with
  | leaf token => cases isNode
  | node kind span children => rfl

/-- The height of a row is one more than the greatest depth of its nodes. -/
theorem nodeHeightAll_eq_max? (row : List Tree) :
    nodeHeightAll row = (((row.filter isNode).map depth).max?.map (· + 1)).getD 0 := by
  induction row with
  | nil => rfl
  | cons child later inductionHypothesis =>
      rw [nodeHeightAll, inductionHypothesis]
      cases isNode : child.isNode with
      | false =>
          cases child with
          | leaf token => simp [nodeHeight, Tree.isNode]
          | node kind span children => cases isNode
      | true =>
          rw [nodeHeight_eq_depth_add_one isNode, List.filter_cons_of_pos isNode, List.map_cons,
            List.max?_cons]
          cases ((later.filter Tree.isNode).map depth).max? with
          | none => simp
          | some deepest => simp [Nat.succ_max_succ]

end Tree

/-- A walk from a node enters it, walks its children in order, where a token is met once,
and leaves it; calls past that answer with none, however many they are. So its leaves
are the tokens below the node from left to right; its depth is zero where no child is a
node, and else one more than the greatest depth of a child node. The number of open
nodes, which the depth is read off, is not zero wherever a node is left. -/
theorem walk_by_recursion (kind : Kind) (span : Span) (children : List Tree) :
    let node : Tree := .node kind span children
    node.visits = .enter node :: (children.flatMap Tree.visits ++ [.leave node]) ∧
      (∀ token : Token, (Tree.leaf token).visits = [.token token]) ∧
      (∀ count, ((Walk.ofTree node).calls count).1 = (node.visits.take count).map some ++
        List.replicate (count - node.visits.length) none) ∧
      node.leaves = node.frontier ∧
      node.depth = ((node.childNodes.map Tree.depth).max?.map (· + 1)).getD 0 ∧
      ∀ front left later, node.visits = front ++ .leave left :: later →
        0 < (front.foldl Tree.Nesting.after ⟨0, 0⟩).current := by
  intro node
  refine ⟨?_, ?_, ?_, node.leaves_eq_frontier, ?_, fun _ _ _ => Tree.open_of_leave⟩
  · rw [Tree.visits_eq_nestedVisits, ← Tree.nestedVisitsAll_eq_flatMap]
    rfl
  · exact fun token => Tree.visits_eq_nestedVisits (.leaf token)
  · intro count
    rw [Walk.calls_eq, Walk.pending_ofTree]
  · rw [Tree.depth_eq]
    exact Tree.nodeHeightAll_eq_max? children

end TemplateFrontend
