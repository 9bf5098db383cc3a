import TemplateFrontend.Proofs.Grammar.Cutting

/-!
Contract: the top level of a program, turn by turn.

Owns:
- `topLevelTurn_alike`, which says that a turn of the top level depends on nothing
  but the tokens from the next significant one on;
- `Turns`, what a row of tokens becomes in a number of turns, and that an end of
  it is what an end of the tokens becomes (`Turns.drop`);
- `exists_turns` and `Turns.program_eq`, between such rows and whole programs whose
  top level does not meet its ceiling.
-/

namespace TemplateFrontend.Grammar

open Outline (frontierAll)

/-! ## Single turns -/

/-- What a turn of the top level makes of a draft. -/
def topLevelTurn (limits : Limits) (draft : Draft) : Draft :=
  (statement limits limits.depth).placeOrAdvance draft

/-- The top level under a ceiling of its own. -/
def topLevelLoop (limits : Limits) (budget : Nat) (draft : Draft) : Draft :=
  repeatWhile (fun current => !current.atEnd)
    (fun current => .again (topLevelTurn limits current)) (·.trip .topLevel) budget draft

theorem topLevelLoop_of_atEnd {limits : Limits} {budget : Nat} {draft : Draft}
    (isEnd : draft.atEnd = true) : topLevelLoop limits budget draft = draft := by
  apply repeatWhile_of_unwanted
  simp [isEnd]

theorem topLevelLoop_succ {limits : Limits} {budget : Nat} {draft : Draft}
    (notEnd : draft.atEnd = false) :
    topLevelLoop limits (budget + 1) draft =
      topLevelLoop limits budget (topLevelTurn limits draft) := by
  apply repeatWhile_of_again
  · simp [notEnd]
  · rfl

/-- Two drafts went on alike: each placed the same element behind its leading
trivia, and the same tokens are left for both. -/
def PlaceAlike (left right left' right' : Draft) : Prop :=
  left'.rest = right'.rest ∧ ∃ element, left'.placed = element :: left.settle.placed ∧
    right'.placed = element :: right.settle.placed

section Turn

variable {left right : Draft} (sameRest : left.settle.rest = right.settle.rest)
  (notEnd : right.atEnd = false)

include sameRest notEnd

theorem advance_alike : PlaceAlike left right left.advance right.advance := by
  obtain ⟨token, later, next⟩ := Draft.exists_nextIs notEnd
  have leftNext := Draft.nextIs_of_settle_rest (sameRest.trans next.settle_rest)
  refine ⟨?_, .leaf token, ?_, ?_⟩
  · rw [leftNext.advance_eq, next.advance_eq]
  · rw [leftNext.advance_eq, Draft.settle_eq]
  · rw [next.advance_eq, Draft.settle_eq]

theorem topLevelTurn_alike (limits : Limits)
    (kinds : ∀ token ∈ right.rest, token.kind ≠ .endOfInput) :
    PlaceAlike left right (topLevelTurn limits left) (topLevelTurn limits right) := by
  have leftNotEnd : left.atEnd = false := (Draft.atEnd_congr_settle sameRest).trans notEnd
  unfold topLevelTurn
  cases limits.depth with
  | zero =>
      have tripped : PlaceAlike (left.trip .recursionDepth) (right.trip .recursionDepth)
          (left.trip .recursionDepth).advance (right.trip .recursionDepth).advance :=
        advance_alike sameRest notEnd
      exact tripped
  | succ levels =>
      have settledKinds : ∀ token ∈ left.settle.rest, token.kind ≠ .endOfInput := by
        rw [sameRest]
        exact fun token member => kinds token (right.rest_settle_suffix.mem member)
      have nothingMore : left.settle.rest = right.settle.rest ++ [] := by
        rw [sameRest, List.append_nil]
      have twins := statement_twins limits levels nothingMore (Or.inl rfl) settledKinds notEnd
      unfold StatementRule.placeOrAdvance
      generalize statement limits (levels + 1) left = answer,
        statement limits (levels + 1) right = answer' at twins ⊢
      rcases twins with lost | twins
      · exact absurd List.nil_suffix lost
      · cases twins with
        | missed =>
            dsimp only
            rw [Draft.advance_settle leftNotEnd, Draft.advance_settle notEnd]
            exact advance_alike sameRest notEnd
        | @node kind inside inside' pair =>
            refine ⟨?_, .node kind inside.placed.reverse, rfl, ?_⟩
            · exact pair.rest_eq.trans (List.append_nil _)
            · rw [pair.placed_eq]
              rfl

end Turn

/-- A turn places the tokens that it takes off the rest. -/
theorem topLevelTurn_rest {limits : Limits} {draft : Draft} {element : Outline}
    (placed : (topLevelTurn limits draft).placed = element :: draft.settle.placed) :
    draft.rest = draft.leading ++ (element.frontier ++ (topLevelTurn limits draft).rest) := by
  obtain ⟨parts, added⟩ := grows_of_path (origin_lasting limits)
    (path_placeOrAdvance (statement_grows limits limits.depth) draft)
  have reversed := added.placed_eq
  rw [← topLevelTurn, placed, Draft.settle_eq, ← List.cons_append] at reversed
  have partsEq : parts = draft.leading.map .leaf ++ [element] := by
    rw [← List.reverse_reverse parts, ← List.append_cancel_right reversed]
    simp [Draft.leaves]
  have restEq := added.rest_eq
  rw [partsEq, Outline.frontierAll_append, Outline.frontierAll_map_leaf, List.append_assoc,
    ← topLevelTurn] at restEq
  simpa [frontierAll] using restEq

theorem kinds_of_turn {limits : Limits} {draft : Draft} {element : Outline}
    (placed : (topLevelTurn limits draft).placed = element :: draft.settle.placed)
    (kinds : ∀ token ∈ draft.rest, token.kind ≠ .endOfInput) :
    ∀ token ∈ (topLevelTurn limits draft).rest, token.kind ≠ .endOfInput := by
  intro token member
  apply kinds
  rw [topLevelTurn_rest placed]
  exact List.mem_append_right _ (List.mem_append_right _ member)

/-! ## Rows of turns -/

/-- In at most `turns` turns the tokens become the parts: every turn places the
trivia before a significant token and one element, and the trivia at the end is
placed without a turn. -/
inductive Turns (limits : Limits) : (turns : Nat) → List Token → List Outline → Prop
  | rest {turns : Nat} {tokens : List Token} (allTrivia : ∀ token ∈ tokens, token.isTrivia = true) :
      Turns limits turns tokens (tokens.map .leaf)
  | turn {turns : Nat} (draft : Draft) {element : Outline} {later : List Outline}
      (notEnd : draft.atEnd = false)
      (placed : (topLevelTurn limits draft).placed = element :: draft.settle.placed)
      (others : Turns limits turns (topLevelTurn limits draft).rest later) :
      Turns limits (turns + 1) draft.rest (draft.leading.map .leaf ++ element :: later)

namespace Turns

variable {limits : Limits} {turns : Nat} {tokens : List Token} {parts : List Outline}

/-- A turn may be taken by any draft that stands before the same tokens. -/
theorem turn_of_alike {draft other : Draft} {element : Outline} {later : List Outline}
    (sameRest : draft.settle.rest = other.settle.rest) (notEnd : other.atEnd = false)
    (kinds : ∀ token ∈ other.rest, token.kind ≠ .endOfInput)
    (placed : (topLevelTurn limits draft).placed = element :: draft.settle.placed)
    (others : Turns limits turns (topLevelTurn limits draft).rest later) :
    Turns limits (turns + 1) other.rest (other.leading.map .leaf ++ element :: later) := by
  obtain ⟨restEq, found, foundEq, otherPlaced⟩ := topLevelTurn_alike sameRest notEnd limits kinds
  cases placed.symm.trans foundEq
  exact .turn other notEnd otherPlaced (restEq ▸ others)

theorem mono (run : Turns limits turns tokens parts) {more : Nat} (le : turns ≤ more) :
    Turns limits more tokens parts := by
  induction run generalizing more with
  | rest allTrivia => exact .rest allTrivia
  | turn draft notEnd placed _ inductionHypothesis =>
      obtain ⟨fewer, rfl⟩ := Nat.exists_eq_add_of_le' (Nat.le_of_add_left_le le)
      exact .turn draft notEnd placed (inductionHypothesis (by omega))

theorem frontier_eq (run : Turns limits turns tokens parts) : frontierAll parts = tokens := by
  induction run with
  | rest => exact Outline.frontierAll_map_leaf _
  | turn draft notEnd placed _ inductionHypothesis =>
      rw [Outline.frontierAll_append, Outline.frontierAll_map_leaf, frontierAll,
        inductionHypothesis]
      exact (topLevelTurn_rest placed).symm

/-- An end of the parts is what its tokens become on their own. The seam may also
lie within the trivia before an element. -/
theorem drop {left right : List Outline} (run : Turns limits turns tokens (left ++ right))
    (kinds : ∀ token ∈ tokens, token.kind ≠ .endOfInput) :
    Turns limits turns (frontierAll right) right := by
  generalize partsEq : left ++ right = parts at run
  induction run generalizing left with
  | @rest turns tokens allTrivia =>
      obtain ⟨front, back, rfl, rfl, rfl⟩ := List.append_eq_map_iff.mp partsEq
      rw [Outline.frontierAll_map_leaf]
      exact .rest fun token member => allTrivia token (List.mem_append_right front member)
  | @turn turns draft element later notEnd placed others inductionHypothesis =>
      -- The seam lies within the leading trivia or right behind it, or in a later turn.
      have seam : (∃ front back, draft.leading = front ++ back ∧
            right = back.map .leaf ++ element :: later) ∨
          ∃ others, later = others ++ right := by
        rcases List.append_eq_append_iff.mp partsEq with
          ⟨blanks, leadingEq, rightEq⟩ | ⟨behind, _, laterEq⟩
        · obtain ⟨front, back, leadingSplit, rfl, rfl⟩ := List.map_eq_append_iff.mp leadingEq
          exact Or.inl ⟨front, back, leadingSplit, rightEq⟩
        · cases behind with
          | nil => exact Or.inl ⟨draft.leading, [], by simp, by simpa using laterEq.symm⟩
          | cons first behind =>
              obtain ⟨_, laterEq⟩ := List.cons.inj laterEq
              exact Or.inr ⟨behind, laterEq⟩
      rcases seam with ⟨front, back, leadingEq, rightEq⟩ | ⟨_, laterEq⟩
      · let restarted : Draft := { draft with rest := back ++ draft.settle.rest }
        obtain ⟨token, behind, next⟩ := Draft.exists_nextIs notEnd
        have backTrivia : ∀ token ∈ back, token.isTrivia = true := by
          intro token member
          have inLeading : token ∈ draft.leading := by
            rw [leadingEq]
            exact List.mem_append_right front member
          exact Draft.isTrivia_of_mem_leading inLeading
        have restartedRest : restarted.rest = back ++ token :: behind := by
          rw [← next.settle_rest]
        obtain ⟨restartedLeading, restartedNext⟩ :=
          Draft.nextIs_of_rest_eq restartedRest backTrivia next.significant
        have sameRest : draft.settle.rest = restarted.settle.rest :=
          next.settle_rest.trans restartedNext.settle_rest.symm
        have restartedKinds : ∀ token ∈ restarted.rest, token.kind ≠ .endOfInput := by
          intro token member
          apply kinds
          rw [← draft.leading_append_settle_rest, leadingEq, List.append_assoc]
          exact List.mem_append_right front member
        have run := turn_of_alike sameRest ((Draft.atEnd_congr_settle sameRest).symm.trans notEnd)
          restartedKinds placed others
        rw [restartedLeading, ← rightEq] at run
        rw [run.frontier_eq]
        exact run
      · have rest := inductionHypothesis (kinds_of_turn placed kinds) laterEq.symm
        exact rest.mono (Nat.le_succ turns)

/-- The top level places the parts when its ceiling leaves as many turns. -/
theorem placed_eq (run : Turns limits turns tokens parts)
    (kinds : ∀ token ∈ tokens, token.kind ≠ .endOfInput) {budget : Nat} (le : turns ≤ budget)
    {draft : Draft} (restEq : draft.rest = tokens) :
    (placeRest (topLevelLoop limits budget draft)).placed = parts.reverse ++ draft.placed := by
  induction run generalizing budget draft with
  | rest allTrivia =>
      have isEnd : draft.atEnd = true := by
        apply Draft.atEnd_of_settle_rest_nil
        exact List.dropWhile_eq_nil_iff.mpr (restEq ▸ allTrivia)
      rw [topLevelLoop_of_atEnd isEnd, placeRest, Draft.foldl_leaf, restEq]
      rfl
  | @turn turns found element later notEnd placed others inductionHypothesis =>
      obtain ⟨fewer, rfl⟩ := Nat.exists_eq_add_of_le' (Nat.le_of_add_left_le le)
      have sameRest : found.settle.rest = draft.settle.rest :=
        congrArg (List.dropWhile Token.isTrivia) restEq.symm
      have draftNotEnd : draft.atEnd = false := (Draft.atEnd_congr restEq).trans notEnd
      obtain ⟨afterEq, other, foundPlaced, draftPlaced⟩ :=
        topLevelTurn_alike sameRest draftNotEnd limits (restEq ▸ kinds)
      cases placed.symm.trans foundPlaced
      have laterPlaced := inductionHypothesis (kinds_of_turn placed kinds)
        (Nat.le_of_add_le_add_right le) afterEq.symm
      rw [topLevelLoop_succ draftNotEnd, laterPlaced, draftPlaced, Draft.settle_eq]
      simp [Draft.leaves, Draft.leading, restEq]

end Turns

/-- A top level that does not meet its ceiling takes the turns of a row. -/
theorem exists_turns {limits : Limits} {budget : Nat} (draft : Draft)
    (kinds : ∀ token ∈ draft.rest, token.kind ≠ .endOfInput)
    (uncapped : ∀ trip ∈ (topLevelLoop limits budget draft).trips, trip.construct ≠ .topLevel) :
    ∃ parts, Turns limits budget draft.rest parts := by
  induction budget generalizing draft with
  | zero =>
      cases isEnd : draft.atEnd with
      | true =>
          exact ⟨_, .rest (List.dropWhile_eq_nil_iff.mp (Draft.settle_rest_of_atEnd kinds isEnd))⟩
      | false =>
          have capped : topLevelLoop limits 0 draft = draft.trip .topLevel := by
            rw [topLevelLoop, repeatWhile, if_pos (by simp [isEnd])]
          rw [capped] at uncapped
          exact absurd rfl (uncapped _ (List.mem_cons_self ..))
  | succ budget inductionHypothesis =>
      cases isEnd : draft.atEnd with
      | true =>
          exact ⟨_, .rest (List.dropWhile_eq_nil_iff.mp (Draft.settle_rest_of_atEnd kinds isEnd))⟩
      | false =>
          rw [topLevelLoop_succ isEnd] at uncapped
          obtain ⟨_, element, placed, _⟩ := topLevelTurn_alike rfl isEnd limits kinds
          obtain ⟨later, others⟩ := inductionHypothesis _ (kinds_of_turn placed kinds) uncapped
          exact ⟨_, .turn draft isEnd placed others⟩

/-- Where as many turns as the ceiling allows suffice for a row, it is the row
below the root. -/
theorem Turns.program_eq {limits : Limits} {tokens : List Token} {parts : List Outline}
    (run : Turns limits limits.topLevelIterations tokens parts)
    (kinds : ∀ token ∈ tokens, token.kind ≠ .endOfInput) (stop : Nat) :
    (program limits tokens stop).1 = .node .root parts := by
  have placed := run.placed_eq kinds (Nat.le_refl _)
    (show (Draft.ofTokens tokens stop).rest = tokens from rfl)
  rw [program, show topLevel limits _ = topLevelLoop limits limits.topLevelIterations _ from rfl,
    placed]
  simp [Draft.ofTokens]

end TemplateFrontend.Grammar
