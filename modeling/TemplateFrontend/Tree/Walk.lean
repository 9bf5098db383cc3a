import TemplateFrontend.Tree

/-!
Contract: the preorder walk of a tree.

Owns:
- `Walk`, a walk in progress with an explicit stack, and its single step
  `Walk.next?`;
- `Tree.visits`, everything a walk from the root yields;
- what is read off a walk: leaves, depth, and rows with their nesting level.

The stack makes the walk independent of the depth of the tree.
-/

namespace TemplateFrontend

/-- What a walk meets: the two sides of a node, or a token. -/
inductive Visit where
  | enter (node : Tree)
  | leave (node : Tree)
  | token (token : Token)

/-- A walk in progress: the root before it is visited, then the entered nodes,
innermost first, each with the children that are still to be visited. -/
structure Walk where
  unvisited : Option Tree
  entered : List (Tree × List Tree)

namespace Walk

def ofTree (tree : Tree) : Walk := ⟨some tree, []⟩

/-- The next visit and the walk after it; `none` when the root has been left. -/
def next? : Walk → Option (Visit × Walk)
  | ⟨none, []⟩ => none
  | ⟨some (.leaf token), []⟩ => some (.token token, ⟨none, []⟩)
  | ⟨some (.node kind span children), []⟩ =>
      let node := Tree.node kind span children
      some (.enter node, ⟨none, [(node, children)]⟩)
  | ⟨unvisited, (node, []) :: outer⟩ => some (.leave node, ⟨unvisited, outer⟩)
  | ⟨unvisited, (node, .leaf token :: later) :: outer⟩ =>
      some (.token token, ⟨unvisited, (node, later) :: outer⟩)
  | ⟨unvisited, (node, .node kind span children :: later) :: outer⟩ =>
      let child := Tree.node kind span children
      some (.enter child, ⟨unvisited, (child, children) :: (node, later) :: outer⟩)

end Walk

namespace Tree

mutual

/-- Number of visits that a walk makes from entering an element to leaving it. -/
def visitCount : Tree → Nat
  | .leaf _ => 1
  | .node _ _ children => visitCountAll children + 2

def visitCountAll : List Tree → Nat
  | [] => 0
  | child :: later => child.visitCount + visitCountAll later

end

mutual

/-- The visits of an element by recursion: enter, the children in order,
leave. -/
def nestedVisits : Tree → List Visit
  | .leaf token => [.token token]
  | .node kind span children =>
      .enter (.node kind span children) ::
        (nestedVisitsAll children ++ [.leave (.node kind span children)])

def nestedVisitsAll : List Tree → List Visit
  | [] => []
  | child :: later => child.nestedVisits ++ nestedVisitsAll later

end

end Tree

namespace Walk

def remaining (walk : Walk) : Nat :=
  (walk.unvisited.map Tree.visitCount).getD 0 +
    walk.entered.foldr (fun (_, later) total => Tree.visitCountAll later + 1 + total) 0

theorem remaining_of_next? {walk after : Walk} {visit : Visit}
    (step : walk.next? = some (visit, after)) :
    walk.remaining = after.remaining + 1 := by
  unfold next? at step
  split at step <;>
    simp only [Option.some.injEq, Prod.mk.injEq, reduceCtorEq] at step <;>
    (obtain ⟨_, rfl⟩ := step) <;>
    simp [remaining, Tree.visitCount, Tree.visitCountAll] <;>
    omega

/-- Walks to the end; `visits` holds the visits so far, the last one first. -/
def drain (walk : Walk) (visits : List Visit) : List Visit :=
  match _step : walk.next? with
  | none => visits.reverse
  | some (visit, after) => drain after (visit :: visits)
termination_by walk.remaining
decreasing_by
  have counted := remaining_of_next? _step
  omega

end Walk

namespace Tree

def visits (tree : Tree) : List Visit := (Walk.ofTree tree).drain []

def leaves (tree : Tree) : List Token :=
  tree.visits.filterMap fun
    | .token token => some token
    | .enter _ | .leave _ => none

/-- How many nodes are open, and the most that were open at once. -/
structure Nesting where
  current : Nat
  deepest : Nat

def Nesting.after (nesting : Nesting) : Visit → Nesting
  | .enter _ => ⟨nesting.current + 1, max nesting.deepest (nesting.current + 1)⟩
  | .leave _ => ⟨nesting.current - 1, nesting.deepest⟩
  | .token _ => nesting

/-- Greatest number of nodes nested below this one; zero for a node whose
children are all tokens. -/
def depth (tree : Tree) : Nat :=
  (tree.visits.foldl Nesting.after ⟨0, 0⟩).deepest - 1

/-- An element with the number of nodes around it, counted from the element
where the walk began. -/
structure Row where
  level : Nat
  element : Tree

/-- Rows so far, the last one first, and the level of the next one. -/
structure Listing where
  level : Nat
  rows : List Row

/-- Entering and tokens give a row; only nodes move the level. -/
def Listing.after (listing : Listing) : Visit → Listing
  | .enter element => ⟨listing.level + 1, ⟨listing.level, element⟩ :: listing.rows⟩
  | .leave _ => ⟨listing.level - 1, listing.rows⟩
  | .token token => ⟨listing.level, ⟨listing.level, .leaf token⟩ :: listing.rows⟩

/-- One row for each node and token, in preorder. -/
def rows (tree : Tree) : List Row :=
  (tree.visits.foldl Listing.after ⟨0, []⟩).rows.reverse

end Tree

end TemplateFrontend
