import TemplateFrontend.Proofs.Grammar.Turns
import TemplateFrontend.Proofs.Nesting
import TemplateFrontend.Proofs.Splitting
import Mathlib

/-!
Contract: every node can be parsed on its own.

Owns:
- `Grammar.statement_depth`, which says that the ceiling on nesting acts on a
  statement only through the levels that are left;
- `Reading.tokenize_node`, the tokens of the span of a node;
- `parse_subtree`: the span of a node that does not end with trivia, parsed with
  the levels that are left for the node, gives the node as the only child of the
  root.
-/

namespace TemplateFrontend

open Outline (frontierAll EveryAll)

namespace Grammar

/-! ## Levels -/

/-- Statements count levels; the ceiling they were counted from does not matter. -/
theorem statement_depth (limits : Limits) (depth levels : Nat) :
    statement { limits with depth := depth } levels = statement limits levels := by
  induction levels with
  | zero => rfl
  | succ levels inductionHypothesis =>
      funext draft
      rw [statement, statement, inductionHypothesis]
      rfl

/-- A top level that may take no turn places no node. -/
theorem parts_of_no_turns {limits : Limits} {tokens : List Token} {stop : Nat}
    {parts : List Outline} (noTurns : limits.topLevelIterations = 0)
    (programEq : (program limits tokens stop).1 = .node .root parts) :
    parts = tokens.map .leaf := by
  have placedEq : (topLevel limits (.ofTokens tokens stop)).placed = [] ∧
      (topLevel limits (.ofTokens tokens stop)).rest = tokens := by
    rw [topLevel, noTurns, repeatWhile]
    split
    · exact ⟨rfl, rfl⟩
    · exact ⟨rfl, rfl⟩
  rw [program, placeRest, Draft.foldl_leaf, placedEq.1, placedEq.2, Draft.leaves,
    List.append_nil, List.reverse_reverse] at programEq
  cases programEq
  rfl

/-- A node that does not end with trivia is what its own tokens give, when the
top level has the levels that the call for the node had. -/
theorem Origin.program_eq {limits : Limits} {trips : List Trip} {levels : Nat}
    {after : List Token} {kind : Kind} {parts : List Outline}
    (origin : Origin limits trips levels after kind parts)
    (someTurn : limits.topLevelIterations ≠ 0)
    (kinds : ∀ token ∈ frontierAll parts ++ after, token.kind ≠ .endOfInput)
    (trimmed : Trimmed (frontierAll parts)) (stop : Nat) :
    (program { limits with depth := levels + 1 } (frontierAll parts) stop).1 =
      .node .root [.node kind parts] := by
  obtain ⟨_, token, later, partsEq, significant⟩ := origin.begins
  obtain ⟨draft, result, answer, placedEq, leftEq, _⟩ := origin
  have foundEq : draft.settle.rest = frontierAll parts ++ after := by
    rw [← leftEq]
    exact settle_rest_of_node answer placedEq
  have tokensEq : frontierAll parts = token :: frontierAll later := by
    rw [partsEq, frontierAll, Outline.frontier, List.singleton_append]
  let alone := Draft.ofTokens (frontierAll parts) stop
  have settled : alone.Settled := Draft.settled_of_significant tokensEq significant
  have settledRest : alone.settle.rest = frontierAll parts :=
    congrArg Draft.rest (Draft.settle_eq_self settled)
  have notEnd : alone.atEnd = false := by
    have next : alone.NextIs token (frontierAll later) :=
      Draft.nextIs_of_settle_rest (settledRest.trans tokensEq)
    exact Draft.atEnd_eq_false_of_kind next.kind_eq (kinds token (by simp [tokensEq]))
  obtain ⟨placed, aloneAnswer, alonePlaced, aloneRest⟩ : ∃ placed,
      statement limits (levels + 1) alone = (.node, placed) ∧
        placed.placed = .node kind parts :: alone.settle.placed ∧ placed.rest = [] := by
    apply statement_cut answer placedEq
    case restEq => rw [settledRest]; exact foundEq
    case keptEq => exact leftEq
    case trimmed => rw [settledRest]; exact Or.inr trimmed
    case kinds => rw [foundEq]; exact kinds
    case notEnd => exact notEnd
  -- The node takes the one turn of the top level.
  have turnEq : topLevelTurn { limits with depth := levels + 1 } alone = placed := by
    rw [topLevelTurn, statement_depth, StatementRule.placeOrAdvance, aloneAnswer]
  have run : Turns { limits with depth := levels + 1 } 1 alone.rest
      (alone.leading.map .leaf ++ .node kind parts :: []) := by
    apply Turns.turn alone notEnd
    · rw [turnEq, alonePlaced]
    · rw [turnEq, aloneRest]
      exact .rest (by simp)
  rw [show alone.leading = [] from settled] at run
  exact (run.mono (Nat.one_le_iff_ne_zero.mpr someTurn)).program_eq
    (fun token member => kinds token (List.mem_append_left after member)) stop

end Grammar

section Reading

variable {text : Text} {window : Span} {limits : Limits} {tokens : List Token}
  {parts : List Outline} {parsed : Parsed}
  (reading : Reading text window limits tokens parts parsed)

include reading

/-- The span of a node is a window whose tokens are those of the node. -/
theorem Reading.tokenize_node (admitted : text.Admits window) {inner : List Outline} {span : Span}
    {children : List Tree} {before after : List Token}
    (placed : Outline.Placement window.start tokens window.stop inner span children before after) :
    text.Admits span ∧ tokenize text span = .ok (frontierAll inner) := by
  have tokenized := reading.tokenized
  rw [placed.tokens_eq] at tokenized
  obtain ⟨_, _, admittedBack, tokenizedBack⟩ :=
    tokenize_append admitted tokenized placed.tiles_before
  obtain ⟨admittedNode, tokenizedNode, _, _⟩ :=
    tokenize_append admittedBack tokenizedBack placed.tiles_inside
  exact ⟨admittedNode, tokenizedNode⟩

/-- Below the root there are nodes only if the top level may take a turn. -/
theorem Reading.topLevelIterations_ne_zero {path : List Nat} (below : path ≠ []) {kind : Kind}
    {span : Span} {children : List Tree}
    (reached : parsed.tree.at? path = some (.node kind span children)) :
    limits.topLevelIterations ≠ 0 := by
  intro noTurns
  have leaves := Grammar.parts_of_no_turns noTurns reading.outline_eq
  rw [reading.tree_eq] at reached
  have noNode : EveryAll (fun _ _ _ _ => False) limits.depth [] parts := by
    rw [leaves]
    exact Outline.everyAll_map_leaf tokens
  obtain ⟨_, _, _, _, _, impossible, _⟩ := noNode.at? reading.parts_tiled below reached
  exact impossible

end Reading

/-- A node below the root that does not end with trivia is what its span holds:
parsed as a window, with the ceiling on nesting lowered by the levels around the
node, it gives the node as the only child of the root. -/
theorem parse_subtree (text : Text) (window : Span) (limits : Limits)
    (admitted : text.Admits window) :
    ∃ parsed, parse text window limits = .ok parsed ∧
      ∀ path kind span children, path ≠ [] →
        parsed.tree.at? path = some (.node kind span children) →
        (∀ last ∈ (Tree.node kind span children).leaves.getLast?, last.isTrivia = false) →
        ∃ again, parse text span { limits with depth := limits.depth - (path.length - 1) } =
            .ok again ∧
          again.tree = .node .root span [.node kind span children] := by
  obtain ⟨tokens, parts, parsed, reading⟩ := exists_reading limits admitted
  refine ⟨parsed, reading.parsed_eq, ?_⟩
  intro path kind span children below reached trimmed
  obtain ⟨levels, inner, before, after, levelsEq, origin, placed⟩ := reading.node_at below reached
  obtain ⟨admittedNode, tokenizedNode⟩ := reading.tokenize_node admitted placed
  have kinds : ∀ token ∈ frontierAll inner ++ after, token.kind ≠ .endOfInput := by
    intro token member
    apply Lexeme.ne_endOfInput_of_isTokenKind (reading.token_kinds token ?_)
    rw [placed.tokens_eq]
    exact List.mem_append_right before member
  have trimmedTokens : Grammar.Trimmed (frontierAll inner) := by
    rw [Tree.leaves_eq_frontier, Tree.frontier, placed.children_eq,
      Outline.frontierAll_measureAll] at trimmed
    exact trimmed
  have programEq := origin.program_eq (reading.topLevelIterations_ne_zero below reached) kinds
    trimmedTokens span.stop
  -- In the span of the node the top level has the levels that the call had.
  have depthEq : limits.depth - (path.length - 1) = levels + 1 := by
    have someStep := List.length_pos_of_ne_nil below
    omega
  rw [depthEq]
  obtain ⟨_, parts', again, reading'⟩ :=
    exists_reading { limits with depth := levels + 1 } admittedNode
  cases tokenizedNode.symm.trans reading'.tokenized
  cases reading'.outline_eq.symm.trans programEq
  refine ⟨again, reading'.parsed_eq, ?_⟩
  have rootSpan := reading'.span_eq
  have nodeSpan := Outline.span_measure (.node kind inner) span.start span.stop placed.tiles_inside
  rw [reading'.tree_eq] at rootSpan ⊢
  rw [Outline.measure] at rootSpan nodeSpan ⊢
  rw [Tree.span] at rootSpan nodeSpan
  rw [rootSpan, Outline.measureAll, Outline.measure, nodeSpan, placed.children_eq,
    Outline.measureAll]

/-- The argument of a call, two levels below the root. -/
theorem parse_subtree_of_argument :
    Text.Admits "f(a.b) c".toList ⟨0, 7⟩ ∧
      ∃ parsed again children, parse "f(a.b) c".toList ⟨0, 7⟩ ⟨2, 1, 1, 1, 1⟩ = .ok parsed ∧
        parsed.tree.at? [0, 2] = some (.node .expression ⟨2, 5⟩ children) ∧
        parse "f(a.b) c".toList ⟨2, 5⟩ ⟨1, 1, 1, 1, 1⟩ = .ok again ∧
        again.tree = .node .root ⟨2, 5⟩ [.node .expression ⟨2, 5⟩ children] := by
  have admitted : Text.Admits "f(a.b) c".toList ⟨0, 7⟩ :=
    { ordered := by decide
      start_boundary := ⟨[], "f(a.b) c".toList, by decide, by decide⟩
      stop_boundary := ⟨"f(a.b) ".toList, "c".toList, by decide, by decide⟩ }
  have call : parse "f(a.b) c".toList ⟨0, 7⟩ ⟨2, 1, 1, 1, 1⟩ = .ok ⟨.node .root ⟨0, 7⟩
      [.node .expression ⟨0, 6⟩ [.leaf ⟨.identifier, ⟨0, 1⟩⟩, .leaf ⟨.leftParen, ⟨1, 2⟩⟩,
        .node .expression ⟨2, 5⟩ [.leaf ⟨.identifier, ⟨2, 3⟩⟩, .leaf ⟨.dot, ⟨3, 4⟩⟩,
          .leaf ⟨.identifier, ⟨4, 5⟩⟩], .leaf ⟨.rightParen, ⟨5, 6⟩⟩],
        .leaf ⟨.whitespace, ⟨6, 7⟩⟩], []⟩ := by cbv
  obtain ⟨parsed, parsedEq, subtrees⟩ := parse_subtree _ _ ⟨2, 1, 1, 1, 1⟩ admitted
  cases parsedEq.symm.trans call
  have trimmed : ∀ last ∈ (Tree.node .expression ⟨2, 5⟩ [.leaf ⟨.identifier, ⟨2, 3⟩⟩,
      .leaf ⟨.dot, ⟨3, 4⟩⟩, .leaf ⟨.identifier, ⟨4, 5⟩⟩]).leaves.getLast?,
      last.isTrivia = false := by
    rw [Tree.leaves_eq_frontier]
    intro last isLast
    cases isLast
    rfl
  obtain ⟨again, againEq, treeEq⟩ :=
    subtrees [0, 2] .expression ⟨2, 5⟩ _ (by decide) rfl trimmed
  exact ⟨admitted, _, again, _, call, rfl, againEq, treeEq⟩

end TemplateFrontend
