import TemplateFrontend.Proofs.Grammar.Calls
import TemplateFrontend.Proofs.Parsing
import Mathlib

/-!
Contract: how deep a parsed tree is, and which calls opened its nodes.

Owns:
- `OpenedAt`, the claim that a call of the parse at some depth opened a node of the
  tree;
- `parse_depth_le`: the tree is no deeper than the ceiling, and every node was
  opened at the depth of its level and at no other.
-/

namespace TemplateFrontend

open Outline (frontierAll)

namespace Grammar

/-- A call that placed a node found the tokens of the node and those behind it. -/
theorem settle_rest_of_node {limits : Limits} {levels : Nat} {draft result : Draft} {kind : Kind}
    {parts : List Outline} (answer : statement limits levels draft = (.node, result))
    (placedEq : result.placed = .node kind parts :: draft.settle.placed) :
    draft.settle.rest = frontierAll parts ++ result.rest := by
  obtain ⟨placed, added⟩ := statement_grows limits levels draft
  rw [answer] at added
  have reversed := added.placed_eq
  rw [show (Outcome.node, result).2 = result from rfl, placedEq, Draft.settle_eq,
    ← List.cons_append] at reversed
  have placedParts : placed = draft.leading.map .leaf ++ [.node kind parts] := by
    rw [← List.reverse_reverse placed, ← List.append_cancel_right reversed]
    simp [Draft.leaves]
  have tokens := added.rest_eq
  rw [placedParts, ← draft.leading_append_settle_rest, Outline.frontierAll_append,
    Outline.frontierAll_map_leaf, List.append_assoc] at tokens
  rw [List.append_cancel_left tokens]
  simp [frontierAll, Outline.frontier]

section Reached

variable {limits : Limits} {tokens : List Token} {stop : Nat}

/-- A call of a program that places a node puts the token ahead at the level of its depth. -/
theorem Reached.token_stands {parts : List Outline}
    (outlineEq : (program limits tokens stop).1 = .node .root parts) {depth : Nat} {draft : Draft}
    (reached : Reached limits tokens stop depth draft) {result : Draft}
    (answer : statementAtDepth limits depth draft = (.node, result)) :
    ∃ token later, draft.settle.rest = token :: later ∧ Stands (.leaf token) depth parts := by
  have stands {part : Outline} (placed : part ∈ result.placed) : Stands part (depth - 1) parts := by
    apply reached.stands outlineEq
    rwa [answer]
  rw [statementAtDepth] at answer
  cases levelsEq : limits.depth + 1 - depth with
  | zero =>
      rw [levelsEq] at answer
      cases answer
  | succ levels =>
      rw [levelsEq] at answer
      obtain ⟨kind, token, later, inner, next, added⟩ :=
        exists_node_of_grows (statement_grows limits levels) answer
      have placed : .node kind (.leaf token :: inner) ∈ result.placed := by
        rw [added.placed_eq]
        simp
      have inside := (stands placed).part List.mem_cons_self
      rw [Nat.sub_add_cancel reached.one_le] at inside
      exact ⟨token, later, next.settle_rest, inside⟩

/-- Calls of a program that place nodes before the same token have the same depth. -/
theorem Reached.depth_eq (distinct : tokens.Nodup) {depth depth' : Nat} {draft draft' : Draft}
    (reached : Reached limits tokens stop depth draft)
    (reached' : Reached limits tokens stop depth' draft') {result result' : Draft}
    (answer : statementAtDepth limits depth draft = (.node, result))
    (answer' : statementAtDepth limits depth' draft' = (.node, result'))
    (sameRest : draft.settle.rest = draft'.settle.rest) : depth = depth' := by
  obtain ⟨parts, outlineEq, frontierEq, _⟩ := program_origin limits tokens stop
  obtain ⟨token, later, restEq, stands⟩ := reached.token_stands outlineEq answer
  obtain ⟨token', later', restEq', stands'⟩ := reached'.token_stands outlineEq answer'
  rw [restEq, restEq'] at sameRest
  cases sameRest
  exact stands.level_eq stands' (frontierEq.symm ▸ distinct)

end Reached

end Grammar

/-- A call that the parse of the tokens makes at `depth` opened a node: it found the
tokens from the start of the node on, placed the node, and left the tokens behind it. The
ceilings met by then are the first among `trips`. -/
def OpenedAt (limits : Limits) (tokens : List Token) (stop : Nat) (trips : List Trip)
    (depth : Nat) (kind : Kind) (span : Span) (children : List Tree) : Prop :=
  ∃ draft result parts, Grammar.Reached limits tokens stop depth draft ∧
    Grammar.statementAtDepth limits depth draft = (.node, result) ∧
      draft.settle.rest = tokens.filter (fun token => span.start ≤ token.span.start) ∧
      result.rest = tokens.filter (fun token => span.stop ≤ token.span.start) ∧
      result.placed = .node kind parts :: draft.settle.placed ∧
      children = Outline.measureAll span.start parts ∧ result.trips.reverse <+: trips

/-- Under any ceilings, the tree is no deeper than the ceiling on nesting, and a
node some levels below the root was opened by a call at that depth, and by none at
another. -/
theorem parse_depth_le (text : Text) (window : Span) (limits : Limits)
    (admitted : text.Admits window) :
    ∃ tokens parsed, tokenize text window = .ok tokens ∧ parse text window limits = .ok parsed ∧
      parsed.tree.depth ≤ limits.depth ∧
      ∀ path kind span children, path ≠ [] →
        parsed.tree.at? path = some (.node kind span children) →
        1 ≤ path.length ∧ path.length ≤ limits.depth ∧
          ∀ depth, OpenedAt limits tokens window.stop parsed.trips depth kind span children ↔
            depth = path.length := by
  obtain ⟨tokens, parts, parsed, reading⟩ := exists_reading limits admitted
  refine ⟨tokens, parsed, reading.tokenized, reading.parsed_eq, ?_, ?_⟩
  · have height := reading.every.nodeHeightAll_le parts limits.depth [] window.start
    rw [Tree.depth_eq, reading.tree_eq, Outline.measure, Tree.nodeHeight]
    omega
  · intro path kind span children below reached
    have called := Grammar.program_called limits tokens window.stop reading.outline_eq
    rw [reading.trips_eq] at called
    rw [reading.tree_eq] at reached
    obtain ⟨levels, inner, before, after, levelsEq, origin, placed⟩ :=
      called.at? reading.parts_tiled below reached
    rw [reading.frontier_eq] at placed
    obtain ⟨depth, draft, result, sum, calls, answer, placedEq, leftEq, met⟩ := origin
    obtain rfl : depth = path.length := by omega
    have notRoot : path.length ≠ 0 := fun empty => below (List.eq_nil_of_length_eq_zero empty)
    have foundEq : draft.settle.rest =
        tokens.filter (fun token => span.start ≤ token.span.start) := by
      have inside := Tiles.append_iff.mpr ⟨span.stop, placed.tiles_inside, placed.tiles_after⟩
      rw [Grammar.settle_rest_of_node answer placedEq, leftEq, placed.tokens_eq,
        placed.tiles_before.filter_from inside]
    have opened :
        OpenedAt limits tokens window.stop parsed.trips path.length kind span children := by
      refine ⟨draft, result, inner, calls, answer, foundEq, ?_, placedEq, placed.children_eq, ?_⟩
      · have inside := Tiles.append_iff.mpr ⟨span.start, placed.tiles_before, placed.tiles_inside⟩
        rw [leftEq, placed.tokens_eq, ← List.append_assoc, inside.filter_from placed.tiles_after]
      · rw [← List.reverse_reverse parsed.trips]
        exact List.reverse_prefix.mpr met
    refine ⟨by omega, by omega, fun depth => ⟨?_, fun same => same ▸ opened⟩⟩
    rintro ⟨draft', result', _, calls', answer', foundEq', _⟩
    exact calls'.depth_eq reading.tiled.nodup calls answer' answer (foundEq'.trans foundEq.symm)

/-- In parentheses at the top level a statement is called at depth two. -/
theorem reached_in_parentheses :
    Grammar.Reached ⟨2, 9, 9, 9, 9⟩
      [⟨.leftParen, ⟨0, 1⟩⟩, ⟨.identifier, ⟨1, 2⟩⟩, ⟨.rightParen, ⟨2, 3⟩⟩] 3 2
      ⟨[⟨.identifier, ⟨1, 2⟩⟩, ⟨.rightParen, ⟨2, 3⟩⟩], [.leaf ⟨.leftParen, ⟨0, 1⟩⟩], [], 3⟩ := by
  -- Both calls are made, since an answer with another end of the window would be seen.
  have outermost : Grammar.Reached ⟨2, 9, 9, 9, 9⟩
      [⟨.leftParen, ⟨0, 1⟩⟩, ⟨.identifier, ⟨1, 2⟩⟩, ⟨.rightParen, ⟨2, 3⟩⟩] 3 1
      ⟨[⟨.leftParen, ⟨0, 1⟩⟩, ⟨.identifier, ⟨1, 2⟩⟩, ⟨.rightParen, ⟨2, 3⟩⟩], [], [], 3⟩ := by
    apply Grammar.Reached.outermost
    apply Grammar.Calls.of_changed (.node, ⟨[], [], [], 0⟩)
    intro other answerEq
    unfold Grammar.topLevelAround Grammar.repeatWhile Grammar.StatementRule.placeOrAdvance
      Draft.ofTokens
    dsimp only
    rw [answerEq]
    intro same
    have stops : 0 = 3 := congrArg Draft.stop same
    omega
  apply outermost.nested (by decide)
  apply Grammar.Calls.of_changed (.node, ⟨[], [], [], 0⟩)
  intro other answerEq same
  have primary : Grammar.primary? ⟨2, 9, 9, 9, 9⟩ other (Draft.opened
      ⟨[⟨.leftParen, ⟨0, 1⟩⟩, ⟨.identifier, ⟨1, 2⟩⟩, ⟨.rightParen, ⟨2, 3⟩⟩], [], [], 3⟩) =
      some ((other ⟨[⟨.identifier, ⟨1, 2⟩⟩, ⟨.rightParen, ⟨2, 3⟩⟩],
        [.leaf ⟨.leftParen, ⟨0, 1⟩⟩], [], 3⟩).2.skip .rightParen) := rfl
  have expression : Grammar.statementAt ⟨2, 9, 9, 9, 9⟩ other
      ⟨[⟨.leftParen, ⟨0, 1⟩⟩, ⟨.identifier, ⟨1, 2⟩⟩, ⟨.rightParen, ⟨2, 3⟩⟩], [], [], 3⟩ =
      Grammar.expression ⟨2, 9, 9, 9, 9⟩ other
        ⟨[⟨.leftParen, ⟨0, 1⟩⟩, ⟨.identifier, ⟨1, 2⟩⟩, ⟨.rightParen, ⟨2, 3⟩⟩], [], [], 3⟩ := rfl
  rw [expression, Grammar.expression, primary, answerEq] at same
  have stops : 0 = 3 := congrArg (·.2.stop) same
  omega

/-- A node in parentheses, the call that opened it, and no other depth. -/
theorem parse_depth_le_of_parentheses :
    Text.Admits "(x)".toList ⟨0, 3⟩ ∧
      ∃ tokens parsed, tokenize "(x)".toList ⟨0, 3⟩ = .ok tokens ∧
        parse "(x)".toList ⟨0, 3⟩ ⟨2, 9, 9, 9, 9⟩ = .ok parsed ∧ parsed.tree.depth ≤ 2 ∧
        parsed.tree.at? [0, 1] =
          some (.node .expression ⟨1, 2⟩ [.leaf ⟨.identifier, ⟨1, 2⟩⟩]) ∧
        Grammar.Reached ⟨2, 9, 9, 9, 9⟩ tokens 3 2
          ⟨[⟨.identifier, ⟨1, 2⟩⟩, ⟨.rightParen, ⟨2, 3⟩⟩], [.leaf ⟨.leftParen, ⟨0, 1⟩⟩], [], 3⟩ ∧
        Grammar.statementAtDepth ⟨2, 9, 9, 9, 9⟩ 2
          ⟨[⟨.identifier, ⟨1, 2⟩⟩, ⟨.rightParen, ⟨2, 3⟩⟩], [.leaf ⟨.leftParen, ⟨0, 1⟩⟩], [], 3⟩ =
            (.node, ⟨[⟨.rightParen, ⟨2, 3⟩⟩],
              [.node .expression [.leaf ⟨.identifier, ⟨1, 2⟩⟩],
                .leaf ⟨.leftParen, ⟨0, 1⟩⟩], [], 3⟩) ∧
        ∀ depth, OpenedAt ⟨2, 9, 9, 9, 9⟩ tokens 3 parsed.trips depth .expression ⟨1, 2⟩
          [.leaf ⟨.identifier, ⟨1, 2⟩⟩] ↔ depth = 2 := by
  have admitted : Text.Admits "(x)".toList ⟨0, 3⟩ := Text.admits_whole "(x)".toList
  have tokensEq : tokenize "(x)".toList ⟨0, 3⟩ = .ok [⟨.leftParen, ⟨0, 1⟩⟩,
      ⟨.identifier, ⟨1, 2⟩⟩, ⟨.rightParen, ⟨2, 3⟩⟩] := by cbv
  have treeEq : parse "(x)".toList ⟨0, 3⟩ ⟨2, 9, 9, 9, 9⟩ = .ok ⟨.node .root ⟨0, 3⟩
      [.node .expression ⟨0, 3⟩ [.leaf ⟨.leftParen, ⟨0, 1⟩⟩,
        .node .expression ⟨1, 2⟩ [.leaf ⟨.identifier, ⟨1, 2⟩⟩],
        .leaf ⟨.rightParen, ⟨2, 3⟩⟩]], []⟩ := by cbv
  obtain ⟨tokens, parsed, tokenized, parsedEq, depthLe, opened⟩ :=
    parse_depth_le "(x)".toList ⟨0, 3⟩ ⟨2, 9, 9, 9, 9⟩ admitted
  cases tokenized.symm.trans tokensEq
  cases parsedEq.symm.trans treeEq
  exact ⟨admitted, _, _, tokenized, parsedEq, depthLe, rfl, reached_in_parentheses, rfl,
    (opened [0, 1] _ _ _ (by decide) rfl).2.2⟩

end TemplateFrontend
