import TemplateFrontend.Grammar.Program
import TemplateFrontend.Proofs.Grammar.Transitions
import TemplateFrontend.Proofs.Tree.Shape

/-!
Contract: drafts as they look without trivia.

Owns:
- `Draft.pending`, the kinds that are still to be placed, and `Draft.shapes`,
  what has been placed;
- `Reads`, a draft that has moved on by some shapes without meeting a ceiling;
- what the transitions read.
-/

namespace TemplateFrontend

namespace Draft

/-- The kinds of the significant tokens that are left. -/
def pending (draft : Draft) : List Kind :=
  (draft.rest.filter fun token => !token.isTrivia).map Token.kind

/-- The shapes of what has been placed, the last one first. -/
def shapes (draft : Draft) : List Shape := Outline.shapes draft.placed

theorem kind_eq_head? (draft : Draft) : draft.kind = draft.pending.head?.getD .endOfInput := by
  rw [kind, next?, pending, List.head?_map, List.head?_filter]
  cases draft.rest.find? fun token => !token.isTrivia <;> rfl

theorem kind_of_pending {draft : Draft} {kind : Kind} {more : List Kind}
    (pendingEq : draft.pending = kind :: more) : draft.kind = kind := by
  rw [kind_eq_head?, pendingEq]
  rfl

theorem pending_leading (draft : Draft) :
    (draft.leading.filter fun token => !token.isTrivia) = [] :=
  List.filter_eq_nil_iff.mpr fun token member => by simp [isTrivia_of_mem_leading member]

@[simp] theorem pending_settle (draft : Draft) : draft.settle.pending = draft.pending := by
  simp only [pending]
  rw [← draft.leading_append_settle_rest, List.filter_append, draft.pending_leading,
    List.nil_append]

@[simp] theorem pending_opened (draft : Draft) : draft.opened.pending = draft.pending :=
  draft.pending_settle

theorem pending_of_settle_rest_nil {draft : Draft} (empty : draft.settle.rest = []) :
    draft.pending = [] := by
  rw [← pending_settle, pending, empty]
  rfl

theorem NextIs.pending_eq {draft : Draft} {token : Token} {later : List Token}
    (next : draft.NextIs token later) :
    draft.pending = token.kind :: (later.filter fun token => !token.isTrivia).map Token.kind := by
  rw [← pending_settle, pending, next.settle_rest,
    List.filter_cons_of_pos (by simp [next.significant]), List.map_cons]

theorem advance_of_pending_nil {draft : Draft} (nothing : draft.pending = []) :
    draft.advance = draft := by
  rcases draft.next_cases with empty | ⟨token, later, next⟩
  · exact advance_of_settle_rest_nil empty
  · rw [next.pending_eq] at nothing
    cases nothing

theorem shapes_leading (draft : Draft) :
    Outline.shapes (leaves draft.leading ++ draft.placed) = draft.shapes := by
  rw [Outline.shapes_append, leaves, ← List.map_reverse, Outline.shapes_map_leaf_of_trivia]
  · rfl
  · exact fun token member => isTrivia_of_mem_leading (List.mem_reverse.mp member)

@[simp] theorem shapes_settle (draft : Draft) : draft.settle.shapes = draft.shapes :=
  draft.shapes_leading

@[simp] theorem shapes_closed (draft inside : Draft) (kind : Kind) :
    (inside.closed kind draft.settle.placed).shapes =
      .node kind inside.shapes.reverse :: draft.shapes := by
  simp only [shapes, closed, Outline.shapes, Outline.shape?, Outline.shapes_reverse]
  exact congrArg (Shape.node kind _ :: ·) draft.shapes_settle

/-- Placing every token that is left places the pending kinds. -/
theorem shapes_placeRest (draft : Draft) :
    (Grammar.placeRest draft).shapes = (draft.pending.map .leaf).reverse ++ draft.shapes := by
  rw [shapes, Grammar.placeRest, foldl_leaf, Outline.shapes_append, leaves,
    Outline.shapes_reverse, Outline.shapes_map_leaf]
  rfl

end Draft

/-- `after` is `draft` moved on by `parts`: they were placed in order, the kinds
`more` are left, and no ceiling was met. -/
structure Reads (parts : List Shape) (more : List Kind) (draft after : Draft) : Prop where
  pending_eq : after.pending = more
  shapes_eq : after.shapes = parts.reverse ++ draft.shapes
  trips_eq : after.trips = draft.trips

namespace Reads

theorem trans {front back : List Shape} {between more : List Kind} {first second third : Draft}
    (earlier : Reads front between first second) (later : Reads back more second third) :
    Reads (front ++ back) more first third where
  pending_eq := later.pending_eq
  shapes_eq := by
    rw [later.shapes_eq, earlier.shapes_eq, List.reverse_append, List.append_assoc]
  trips_eq := later.trips_eq.trans earlier.trips_eq

theorem cons {kind : Kind} {back : List Shape} {between more : List Kind}
    {first second third : Draft} (earlier : Reads [.leaf kind] between first second)
    (later : Reads back more second third) : Reads (.leaf kind :: back) more first third :=
  earlier.trans later

theorem advance {draft : Draft} {kind : Kind} {more : List Kind}
    (pendingEq : draft.pending = kind :: more) : Reads [.leaf kind] more draft draft.advance := by
  rcases draft.next_cases with empty | ⟨token, later, next⟩
  · rw [Draft.pending_of_settle_rest_nil empty] at pendingEq
    cases pendingEq
  · rw [next.pending_eq] at pendingEq
    cases pendingEq
    rw [next.advance_eq]
    refine ⟨rfl, ?_, rfl⟩
    simp only [Draft.shapes, Outline.shapes, Outline.shape?, next.significant]
    exact congrArg (Shape.leaf token.kind :: ·) draft.shapes_leading

theorem closed {parts : List Shape} {more : List Kind} {draft inside : Draft}
    (reads : Reads parts more draft.opened inside) (kind : Kind) :
    Reads [.node kind parts] more draft (inside.closed kind draft.settle.placed) where
  pending_eq := reads.pending_eq
  shapes_eq := by
    have insideShapes : inside.shapes = parts.reverse ++ [] := reads.shapes_eq
    rw [Draft.shapes_closed, insideShapes, List.append_nil, List.reverse_reverse]
    rfl
  trips_eq := reads.trips_eq

end Reads

namespace Draft

/-! ## Tokens that may be missing -/

theorem take?_of_pending {draft : Draft} {kind : Kind} {more : List Kind}
    (pendingEq : draft.pending = kind :: more) : draft.take? kind = some draft.advance := by
  simp [take?, kind_of_pending pendingEq]

theorem skip_of_pending {draft : Draft} {kind : Kind} {more : List Kind}
    (pendingEq : draft.pending = kind :: more) : draft.skip kind = draft.advance :=
  skip_of_kind (kind_of_pending pendingEq)

/-- Before a kind, or at the end, other kinds are not taken. -/
theorem take?_eq_none_of_pending {draft : Draft} {kind : Kind} (notEnd : kind ≠ .endOfInput)
    (other : draft.pending.head? ≠ some kind) : draft.take? kind = none := by
  rw [take?_eq_none_iff, kind_eq_head?]
  intro kindEq
  cases head : draft.pending.head? with
  | none =>
      rw [head] at kindEq
      exact notEnd kindEq.symm
  | some found =>
      rw [head] at kindEq other
      exact other (congrArg some kindEq)

end Draft

end TemplateFrontend
