import TemplateFrontend.Proofs.Grammar.Chains
import TemplateFrontend.Proofs.Grammar.Stages
import TemplateFrontend.Proofs.Matching
import TemplateFrontend.Proofs.Parsing
import Mathlib

/-!
Contract: the ceiling for operators cuts a long chain into regular pieces.

Owns:
- `Pieces`, a chain that was cut behind every so many operators;
- `parse_flatChain`, which says that a window that holds nothing but a chain parses to the
  pieces of it, when the top level has turns enough for them.
-/

namespace TemplateFrontend

open Grammar (FlatChain binaryOperators)
open Outline (measureAll)
open Token (significant)

/-- The significant children and the log of a chain in so many pieces: flat expressions with
`chain` operators each, the last one with `rest` operators, and between two of them the
operator before which the ceiling was met. -/
inductive Pieces (chain rest : Nat) : (pieces : Nat) → List Token → List Tree → List Trip → Prop
  | last {span : Span} {tokens : List Token} (flat : FlatChain rest (significant tokens)) :
      Pieces chain rest 1 (significant tokens) [.node .expression span (tokens.map .leaf)] []
  | cut {pieces : Nat} {span : Span} {tokens later : List Token} {operator : Token}
      {children : List Tree} {trips : List Trip} (flat : FlatChain chain (significant tokens))
      (isOperator : binaryOperators.contains operator.kind = true)
      (others : Pieces chain rest pieces later children trips) :
      Pieces chain rest (pieces + 1) (significant tokens ++ operator :: later)
        (.node .expression span (tokens.map .leaf) :: .leaf operator :: children)
        (⟨.operatorChain, operator.span.start⟩ :: trips)

/-! ## Measured parts -/

section Measured

variable {trivia : List Token} (allTrivia : ∀ token ∈ trivia, token.isTrivia = true)
  (later : List Outline) (offset : Nat)

include allTrivia

theorem significant_measureAll_trivia :
    ∃ seam, Tree.significant (measureAll offset (trivia.map .leaf ++ later)) =
      Tree.significant (measureAll seam later) := by
  obtain ⟨seam, measured⟩ := measureAll_map_leaf trivia later offset
  exact ⟨seam, by rw [measured, Tree.significant_trivia_append allTrivia]⟩

theorem significant_measureAll_token {token : Token} (notTrivia : token.isTrivia = false) :
    ∃ seam, Tree.significant (measureAll offset (trivia.map .leaf ++ .leaf token :: later)) =
      .leaf token :: Tree.significant (measureAll seam later) := by
  obtain ⟨seam, measured⟩ := significant_measureAll_trivia allTrivia (.leaf token :: later) offset
  exact ⟨_, measured.trans (Tree.significant_leaf_cons notTrivia _)⟩

theorem significant_measureAll_flat (kind : Kind) (tokens : List Token) :
    ∃ span seam, Tree.significant (measureAll offset
        (trivia.map .leaf ++ .node kind (tokens.map .leaf) :: later)) =
      .node kind span (tokens.map .leaf) :: Tree.significant (measureAll seam later) := by
  obtain ⟨seam, measured⟩ :=
    significant_measureAll_trivia allTrivia (.node kind (tokens.map .leaf) :: later) offset
  rw [measured, measureAll, Outline.measure, measureAll_leaves]
  exact ⟨_, _, rfl⟩

end Measured

section Pieces

variable {chain rest : Nat} {leading : List Token}
  (leadingTrivia : ∀ token ∈ leading, token.isTrivia = true)

include leadingTrivia

theorem pieces_last {tokens behind : List Token}
    (behindTrivia : ∀ token ∈ behind, token.isTrivia = true)
    (flat : FlatChain rest (significant tokens)) (offset : Nat) :
    Pieces chain rest 1 (significant tokens)
      (Tree.significant (measureAll offset
        (leading.map .leaf ++ .node .expression (tokens.map .leaf) :: behind.map .leaf))) [] := by
  obtain ⟨span, seam, measured⟩ :=
    significant_measureAll_flat leadingTrivia (behind.map .leaf) offset .expression tokens
  obtain ⟨_, nothing⟩ := significant_measureAll_trivia behindTrivia [] seam
  rw [List.append_nil] at nothing
  rw [measured, nothing]
  exact .last flat

theorem pieces_cut {pieces : Nat} {tokens between later : List Token} {operator : Token}
    {row : List Outline} {trips : List Trip}
    (betweenTrivia : ∀ token ∈ between, token.isTrivia = true)
    (notTrivia : operator.isTrivia = false) (flat : FlatChain chain (significant tokens))
    (isOperator : binaryOperators.contains operator.kind = true)
    (others : ∀ offset,
      Pieces chain rest pieces later (Tree.significant (measureAll offset row)) trips)
    (offset : Nat) :
    Pieces chain rest (pieces + 1) (significant tokens ++ operator :: later)
      (Tree.significant (measureAll offset
        (leading.map .leaf ++ .node .expression (tokens.map .leaf) ::
          (between.map .leaf ++ .leaf operator :: row))))
      (⟨.operatorChain, operator.span.start⟩ :: trips) := by
  obtain ⟨span, seam, measured⟩ :=
    significant_measureAll_flat leadingTrivia _ offset .expression tokens
  obtain ⟨seam', measured'⟩ := significant_measureAll_token betweenTrivia row seam notTrivia
  rw [measured, measured']
  exact .cut flat isOperator (others seam')

end Pieces

namespace Grammar

section Turns

variable {limits : Limits} {levels : Nat} (depthEq : limits.depth = levels + 1)

theorem FlatChain.atEnd_eq_false {operators : Nat} {draft : Draft}
    (flat : FlatChain operators draft.remaining) : draft.atEnd = false := by
  generalize remainingEq : draft.remaining = tokens at flat
  cases flat with
  | chain isAtom =>
      apply Draft.atEnd_eq_false_of_kind (Draft.kind_of_remaining remainingEq)
      intro isEnd
      rw [isEnd] at isAtom
      exact absurd isAtom (by decide)

include depthEq in
/-- Two turns of the top level take a piece and the operator behind it, one turn takes the
last piece. -/
theorem topLevelLoop_pieces {rest : Nat} (le : rest ≤ limits.chain) (cuts : Nat) {turns : Nat}
    (enough : 2 * cuts + 1 ≤ turns) {draft : Draft}
    (flat : FlatChain (cuts * (limits.chain + 1) + rest) draft.remaining) :
    ∃ row met, (placeRest (topLevelLoop limits turns draft)).placed = row.reverse ++ draft.placed ∧
      (topLevelLoop limits turns draft).trips = met.reverse ++ draft.trips ∧
      ∀ offset, Pieces limits.chain rest (cuts + 1) draft.remaining
        (Tree.significant (measureAll offset row)) met := by
  induction cuts generalizing turns draft with
  | zero =>
      obtain ⟨fewer, rfl⟩ := Nat.exists_eq_add_of_le' (show 1 ≤ turns by omega)
      rw [Nat.zero_mul, Nat.zero_add] at flat
      obtain ⟨tokens, tokensEq, placedEq, nothing, tripsEq⟩ := topLevelTurn_last depthEq le flat
      have isEnd : (topLevelTurn limits draft).atEnd = true := by
        rw [Draft.atEnd, Draft.kind_of_remaining_nil nothing, beq_self_eq_true]
      have allTrivia : ∀ token ∈ (topLevelTurn limits draft).rest, token.isTrivia = true := by
        simpa using List.filter_eq_nil_iff.mp nothing
      rw [topLevelLoop_succ flat.atEnd_eq_false, topLevelLoop_of_atEnd isEnd]
      refine ⟨draft.leading.map .leaf ++ .node .expression (tokens.map .leaf) ::
        (topLevelTurn limits draft).rest.map .leaf, [], ?_, tripsEq, ?_⟩
      · rw [placeRest, Draft.foldl_leaf, placedEq, Draft.settle_eq]
        simp [Draft.leaves]
      · rw [← tokensEq] at flat ⊢
        exact pieces_last (fun token => Draft.isTrivia_of_mem_leading) allTrivia flat
  | succ cuts inductionHypothesis =>
      obtain ⟨fewer, rfl⟩ := Nat.exists_eq_add_of_le' (show 2 ≤ turns by omega)
      have split : (cuts + 1) * (limits.chain + 1) + rest =
          limits.chain + 1 + (cuts * (limits.chain + 1) + rest) := by ring
      have notEnd := flat.atEnd_eq_false
      rw [split] at flat
      obtain ⟨piece, operator, later, remainingEq, pieceFlat, isOperator, laterFlat⟩ :=
        flat.exists_split
      obtain ⟨tokens, tokensEq, placedEq, leftEq, tripsEq⟩ :=
        topLevelTurn_cut depthEq pieceFlat isOperator laterFlat remainingEq
      obtain ⟨behind, next, _⟩ := Draft.exists_nextIs_of_remaining leftEq
      obtain ⟨_, _, _, behindEq⟩ := Lays.advance leftEq
      have operatorTurn := topLevelTurn_operator depthEq isOperator leftEq
      have betweenEnd : (topLevelTurn limits draft).atEnd = false :=
        Draft.atEnd_eq_false_of_kind next.kind_eq (binaryOperator_facts isOperator).2.2.2.2
      obtain ⟨row, met, rowEq, metEq, pieces⟩ :=
        @inductionHypothesis fewer (by omega) _ (behindEq ▸ laterFlat)
      rw [topLevelLoop_succ notEnd, topLevelLoop_succ betweenEnd, operatorTurn]
      refine ⟨draft.leading.map .leaf ++ .node .expression (tokens.map .leaf) ::
        ((topLevelTurn limits draft).leading.map .leaf ++ .leaf operator :: row),
        ⟨.operatorChain, operator.span.start⟩ :: met, ?_, ?_, ?_⟩
      · rw [rowEq, next.advance_eq, placedEq, Draft.settle_eq]
        simp [Draft.leaves]
      · rw [metEq, Draft.trips_advance, tripsEq]
        simp
      · rw [behindEq] at pieces
        rw [← tokensEq] at pieceFlat
        rw [remainingEq, ← tokensEq]
        exact pieces_cut (fun token => Draft.isTrivia_of_mem_leading)
          (fun token => Draft.isTrivia_of_mem_leading) next.significant pieceFlat isOperator pieces

end Turns

end Grammar

/-- A window that holds nothing but a chain of operators parses to flat expressions with as
many operators as the ceiling allows, and the operators between them are placed by the top
level. The log has one entry for each of these operators and no other. -/
theorem parse_flatChain {text : Text} {window : Span} {limits : Limits} {tokens : List Token}
    {operators : Nat} (admitted : text.Admits window)
    (tokenized : tokenize text window = .ok tokens)
    (flat : FlatChain operators (significant tokens)) (nests : 1 ≤ limits.depth)
    (enough : 2 * ((operators + 1) ⌈/⌉ (limits.chain + 1)) - 1 ≤ limits.topLevelIterations) :
    ∃ parsed, parse text window limits = .ok parsed ∧
      Pieces limits.chain (operators % (limits.chain + 1))
        ((operators + 1) ⌈/⌉ (limits.chain + 1)) (significant tokens)
        (Tree.significant parsed.tree.children) parsed.trips := by
  obtain ⟨_, parts, parsed, reading⟩ := exists_reading limits admitted
  cases tokenized.symm.trans reading.tokenized
  have count : (operators + 1) ⌈/⌉ (limits.chain + 1) = operators / (limits.chain + 1) + 1 := by
    rw [Nat.ceilDiv_eq_add_pred_div, Nat.add_right_comm, Nat.add_sub_cancel,
      Nat.add_div_right operators (Nat.succ_pos limits.chain)]
  rw [count] at enough ⊢
  obtain ⟨levels, depthEq⟩ := Nat.exists_eq_add_of_le' nests
  have le : operators % (limits.chain + 1) ≤ limits.chain :=
    Nat.le_of_lt_succ (Nat.mod_lt operators (Nat.succ_pos limits.chain))
  have remainingFlat : FlatChain (operators / (limits.chain + 1) * (limits.chain + 1) +
      operators % (limits.chain + 1)) (Draft.ofTokens tokens window.stop).remaining := by
    rw [Nat.div_add_mod']
    exact flat
  obtain ⟨row, met, placedEq, tripsEq, pieces⟩ := Grammar.topLevelLoop_pieces depthEq le _
    (show 2 * (operators / (limits.chain + 1)) + 1 ≤ limits.topLevelIterations by omega)
    remainingFlat
  have programEq : Grammar.program limits tokens window.stop = (.node .root row, met) := by
    rw [Grammar.program_topLevelIterations limits limits.topLevelIterations, placedEq, tripsEq]
    simp [Draft.ofTokens]
  have outlineEq := reading.outline_eq
  rw [programEq] at outlineEq
  cases outlineEq
  refine ⟨parsed, reading.parsed_eq, ?_⟩
  rw [reading.tree_eq, ← reading.trips_eq, programEq]
  exact pieces window.start

/-- Two operators under a ceiling of one, with the fewest turns that two pieces need. -/
theorem parse_flatChain_in_two :
    Text.Admits "a+1 ==null".toList ⟨0, 10⟩ ∧
      tokenize "a+1 ==null".toList ⟨0, 10⟩ = .ok [⟨.identifier, ⟨0, 1⟩⟩, ⟨.plus, ⟨1, 2⟩⟩,
        ⟨.number, ⟨2, 3⟩⟩, ⟨.whitespace, ⟨3, 4⟩⟩, ⟨.equal, ⟨4, 6⟩⟩, ⟨.null, ⟨6, 10⟩⟩] ∧
      FlatChain 2 [⟨.identifier, ⟨0, 1⟩⟩, ⟨.plus, ⟨1, 2⟩⟩, ⟨.number, ⟨2, 3⟩⟩,
        ⟨.equal, ⟨4, 6⟩⟩, ⟨.null, ⟨6, 10⟩⟩] ∧
      1 ≤ (⟨1, 0, 1, 0, 3⟩ : Limits).depth ∧
      2 * ((2 + 1) ⌈/⌉ ((⟨1, 0, 1, 0, 3⟩ : Limits).chain + 1)) - 1 ≤
        (⟨1, 0, 1, 0, 3⟩ : Limits).topLevelIterations ∧
      ∃ parsed, parse "a+1 ==null".toList ⟨0, 10⟩ ⟨1, 0, 1, 0, 3⟩ = .ok parsed ∧
        Pieces 1 0 2 [⟨.identifier, ⟨0, 1⟩⟩, ⟨.plus, ⟨1, 2⟩⟩, ⟨.number, ⟨2, 3⟩⟩,
          ⟨.equal, ⟨4, 6⟩⟩, ⟨.null, ⟨6, 10⟩⟩] (Tree.significant parsed.tree.children)
          parsed.trips := by
  have admitted : Text.Admits "a+1 ==null".toList ⟨0, 10⟩ := Text.admits_whole "a+1 ==null".toList
  have tokenized : tokenize "a+1 ==null".toList ⟨0, 10⟩ = .ok [⟨.identifier, ⟨0, 1⟩⟩,
      ⟨.plus, ⟨1, 2⟩⟩, ⟨.number, ⟨2, 3⟩⟩, ⟨.whitespace, ⟨3, 4⟩⟩, ⟨.equal, ⟨4, 6⟩⟩,
      ⟨.null, ⟨6, 10⟩⟩] := by cbv
  have flat : FlatChain 2 [⟨.identifier, ⟨0, 1⟩⟩, ⟨.plus, ⟨1, 2⟩⟩, ⟨.number, ⟨2, 3⟩⟩,
      ⟨.equal, ⟨4, 6⟩⟩, ⟨.null, ⟨6, 10⟩⟩] :=
    .chain (by decide) (.link (by decide) (by decide) (.link (by decide) (by decide) .none))
  exact ⟨admitted, tokenized, flat, by decide, by decide,
    parse_flatChain admitted tokenized flat (by decide) (by decide)⟩

end TemplateFrontend
