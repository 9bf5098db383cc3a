import TemplateFrontend.Proofs.Tree.Lines
import TemplateFrontend.Proofs.Tree.Recursion

/-!
Contract: the rows of a tree, and the tree that they come from.

Owns:
- `Tree.nestedRows`, the rows by recursion, and their agreement with the rows that a walk
  lists;
- `nestedRows_append_inj`: levels alone tell where the rows of an element end, so bare
  rows are enough to know the tree.
-/

namespace TemplateFrontend.Tree

/-! ## Rows by recursion -/

mutual

/-- One row for the element and one for each element below it, in preorder; `level` nodes
are around the element. -/
def nestedRows (level : Nat) : Tree → List Row
  | .leaf token => [⟨level, .leaf token⟩]
  | .node kind span children =>
      ⟨level, .node kind span children⟩ :: nestedRowsAll (level + 1) children

def nestedRowsAll (level : Nat) : List Tree → List Row
  | [] => []
  | child :: later => child.nestedRows level ++ nestedRowsAll level later

end

mutual

theorem foldl_listing :
    ∀ (tree : Tree) (listing : Listing), tree.nestedVisits.foldl Listing.after listing =
      ⟨listing.level, (tree.nestedRows listing.level).reverse ++ listing.rows⟩
  | .leaf token, listing => rfl
  | .node kind span children, listing => by
      simp [nestedVisits, nestedRows, Listing.after, foldl_listingAll children]

theorem foldl_listingAll :
    ∀ (trees : List Tree) (listing : Listing),
      (nestedVisitsAll trees).foldl Listing.after listing =
        ⟨listing.level, (nestedRowsAll listing.level trees).reverse ++ listing.rows⟩
  | [], listing => rfl
  | child :: later, listing => by
      simp [nestedVisitsAll, nestedRowsAll, foldl_listing child, foldl_listingAll later]

end

/-- A walk lists the rows of a tree in preorder. -/
theorem rows_eq_nestedRows (tree : Tree) : tree.rows = tree.nestedRows 0 := by
  simp [rows, visits_eq_nestedVisits, foldl_listing]

mutual

/-- The tokens of an element that has a row are tokens of the tree. -/
theorem mem_frontier_of_row :
    ∀ (tree : Tree) (level : Nat) (row : Row) (token : Token), row ∈ tree.nestedRows level →
      token ∈ row.element.frontier → token ∈ tree.frontier
  | .leaf _, level, row, token, member, inside => by
      rw [nestedRows, List.mem_singleton] at member
      subst member
      exact inside
  | .node kind span children, level, row, token, member, inside => by
      rcases List.mem_cons.mp member with rfl | below
      · exact inside
      · exact mem_frontierAll_of_row children (level + 1) row token below inside

theorem mem_frontierAll_of_row :
    ∀ (trees : List Tree) (level : Nat) (row : Row) (token : Token),
      row ∈ nestedRowsAll level trees → token ∈ row.element.frontier → token ∈ frontierAll trees
  | [], _, _, _, member, _ => by cases member
  | child :: later, level, row, token, member, inside => by
      rw [frontierAll, List.mem_append]
      rcases List.mem_append.mp member with first | behind
      · exact Or.inl (mem_frontier_of_row child level row token first inside)
      · exact Or.inr (mem_frontierAll_of_row later level row token behind inside)

end

/-! ## Trees by their rows -/

/-- The rows are none, or the first one is above `level`. -/
def RowsAbove (level : Nat) (rows : List Row) : Prop := ∀ row ∈ rows.head?, row.level < level

theorem exists_nestedRows_cons (level : Nat) (tree : Tree) :
    ∃ below, (tree.nestedRows level).map Row.bare = ⟨level, tree.bare⟩ :: below := by
  cases tree with
  | leaf token => exact ⟨_, rfl⟩
  | node kind span children => exact ⟨_, rfl⟩

theorem rowsAbove_nestedRowsAll {level : Nat} (trees : List Tree) {rest : List Row}
    (above : RowsAbove level rest) :
    RowsAbove (level + 1) ((nestedRowsAll level trees).map Row.bare ++ rest) := by
  cases trees with
  | nil => exact fun first head => Nat.lt_succ_of_lt (above first head)
  | cons child later =>
      obtain ⟨below, rowsEq⟩ := exists_nestedRows_cons level child
      rw [nestedRowsAll, List.map_append, rowsEq]
      rintro _ ⟨⟩
      exact Nat.lt_succ_self level

/-- A row at a level cannot be one that ends it. -/
theorem not_rowsAbove_of_child {level : Nat} (child : Tree) (later : List Tree) (rest : List Row) :
    ¬RowsAbove level ((nestedRowsAll level (child :: later)).map Row.bare ++ rest) := by
  obtain ⟨below, rowsEq⟩ := exists_nestedRows_cons level child
  intro above
  refine Nat.lt_irrefl level (above ⟨level, child.bare⟩ ?_)
  simp [nestedRowsAll, rowsEq]

mutual

/-- The rows of an element end before the first row that is not deeper, and tell the
element. -/
theorem nestedRows_append_inj :
    ∀ (left right : Tree) (level : Nat) (leftRest rightRest : List Row),
      RowsAbove (level + 1) leftRest → RowsAbove (level + 1) rightRest →
      (left.nestedRows level).map Row.bare ++ leftRest =
        (right.nestedRows level).map Row.bare ++ rightRest →
      left = right ∧ leftRest = rightRest
  | .leaf token, .leaf other, level, leftRest, rightRest, _, _, same => by
      simpa [nestedRows, Row.bare, bare] using same
  | .leaf token, .node kind span children, level, leftRest, rightRest, _, _, same => by
      simp [nestedRows, Row.bare, bare] at same
  | .node kind span children, .leaf token, level, leftRest, rightRest, _, _, same => by
      simp [nestedRows, Row.bare, bare] at same
  | .node kind span children, .node kind' span' children', level, leftRest, rightRest,
      leftAbove, rightAbove, same => by
      simp only [nestedRows, List.map_cons, List.cons_append, List.cons.injEq, Row.bare, bare,
        Row.mk.injEq, Tree.node.injEq, and_true, true_and] at same
      obtain ⟨⟨rfl, rfl⟩, sameBelow⟩ := same
      obtain ⟨rfl, sameRest⟩ := nestedRowsAll_append_inj children children' (level + 1) leftRest
        rightRest leftAbove rightAbove sameBelow
      exact ⟨rfl, sameRest⟩

theorem nestedRowsAll_append_inj :
    ∀ (left right : List Tree) (level : Nat) (leftRest rightRest : List Row),
      RowsAbove level leftRest → RowsAbove level rightRest →
      (nestedRowsAll level left).map Row.bare ++ leftRest =
        (nestedRowsAll level right).map Row.bare ++ rightRest →
      left = right ∧ leftRest = rightRest
  | [], [], _, _, _, _, _, same => ⟨rfl, same⟩
  | [], child :: later, level, leftRest, rightRest, leftAbove, _, same => by
      replace same : leftRest = _ := same
      rw [same] at leftAbove
      exact absurd leftAbove (not_rowsAbove_of_child child later rightRest)
  | child :: later, [], level, leftRest, rightRest, _, rightAbove, same => by
      replace same : _ = rightRest := same
      rw [← same] at rightAbove
      exact absurd rightAbove (not_rowsAbove_of_child child later leftRest)
  | child :: later, child' :: later', level, leftRest, rightRest, leftAbove, rightAbove, same => by
      simp only [nestedRowsAll, List.map_append, List.append_assoc] at same
      obtain ⟨rfl, sameLater⟩ := nestedRows_append_inj child child' level _ _
        (rowsAbove_nestedRowsAll later leftAbove) (rowsAbove_nestedRowsAll later' rightAbove) same
      obtain ⟨rfl, sameRest⟩ := nestedRowsAll_append_inj later later' level leftRest rightRest
        leftAbove rightAbove sameLater
      exact ⟨rfl, sameRest⟩

end

end TemplateFrontend.Tree
