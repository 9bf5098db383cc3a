import TemplateFrontend.Proofs.Grammar.Turns
import TemplateFrontend.Proofs.Parsing
import TemplateFrontend.Proofs.Splitting
import Mathlib

/-!
Contract: a parse can be taken up again between any two children of the root.

Owns:
- `parse_resumed`: where the top level meets no ceiling, the window from the end
  of a child on gives the children behind it.
-/

namespace TemplateFrontend

open Outline (frontierAll)

/-- A parse whose top level meets no ceiling can be resumed between any two
children of the root: what is left of the window gives the children that are
left. The end of no children is the start of the window. -/
theorem parse_resumed (text : Text) (window : Span) (limits : Limits)
    (admitted : text.Admits window) :
    ∃ parsed, parse text window limits = .ok parsed ∧
      ((∀ trip ∈ parsed.trips, trip.construct ≠ .topLevel) →
        ∀ front back, parsed.tree.children = front ++ back →
          ∃ resumed,
            parse text ⟨(Tree.spanAll window.start front).stop, window.stop⟩ limits = .ok resumed ∧
            resumed.tree =
              .node .root ⟨(Tree.spanAll window.start front).stop, window.stop⟩ back) := by
  obtain ⟨tokens, parts, parsed, reading⟩ := exists_reading limits admitted
  refine ⟨parsed, reading.parsed_eq, ?_⟩
  intro uncapped front back childrenEq
  have kinds : ∀ token ∈ tokens, token.kind ≠ .endOfInput :=
    fun token member => Lexeme.ne_endOfInput_of_isTokenKind (reading.token_kinds token member)
  -- The parts of the root are a row of turns.
  have loopUncapped : ∀ trip ∈ (Grammar.topLevelLoop limits limits.topLevelIterations
      (.ofTokens tokens window.stop)).trips, trip.construct ≠ .topLevel := by
    intro trip member
    apply uncapped
    rw [← reading.trips_eq]
    exact List.mem_reverse.mpr member
  obtain ⟨row, run⟩ := Grammar.exists_turns (.ofTokens tokens window.stop) kinds loopUncapped
  cases reading.outline_eq.symm.trans (run.program_eq kinds window.stop)
  -- Its end behind the seam is what the tokens behind the seam become.
  rw [reading.tree_eq, Outline.measure, Tree.children] at childrenEq
  obtain ⟨left, right, seam, rfl, tiledLeft, tiledRight, rfl, rfl⟩ :=
    Outline.exists_of_measureAll_eq_append reading.parts_tiled childrenEq
  have seamEq := Tree.spanAll_of_contiguous (Outline.contiguous_measureAll left _ _ tiledLeft)
  rw [seamEq]
  have tokenized := reading.tokenized
  rw [← reading.frontier_eq, Outline.frontierAll_append] at tokenized
  obtain ⟨_, _, admittedBack, tokenizedBack⟩ := tokenize_append admitted tokenized tiledLeft
  obtain ⟨_, parts', resumed, reading'⟩ := exists_reading limits admittedBack
  cases tokenizedBack.symm.trans reading'.tokenized
  have backKinds : ∀ token ∈ frontierAll right, token.kind ≠ .endOfInput := by
    intro token member
    apply kinds
    rw [← reading.frontier_eq, Outline.frontierAll_append]
    exact List.mem_append_right _ member
  cases reading'.outline_eq.symm.trans ((run.drop kinds).program_eq backKinds window.stop)
  refine ⟨resumed, reading'.parsed_eq, ?_⟩
  have rootSpan := reading'.span_eq
  rw [reading'.tree_eq] at rootSpan ⊢
  rw [Outline.measure] at rootSpan ⊢
  rw [Tree.span] at rootSpan
  rw [rootSpan]

/-- A parse that uses up the turns of its top level, resumed between two pieces of
trivia. -/
theorem parse_resumed_in_trivia :
    Text.Admits ") a /**/ b".toList ⟨0, 10⟩ ∧
      ∃ parsed resumed back, parse ") a /**/ b".toList ⟨0, 10⟩ ⟨1, 1, 1, 1, 3⟩ = .ok parsed ∧
        parsed.trips = [] ∧
        parsed.tree.children = [.leaf ⟨.rightParen, ⟨0, 1⟩⟩, .leaf ⟨.whitespace, ⟨1, 2⟩⟩,
          .node .expression ⟨2, 3⟩ [.leaf ⟨.identifier, ⟨2, 3⟩⟩], .leaf ⟨.whitespace, ⟨3, 4⟩⟩] ++
            back ∧
        parse ") a /**/ b".toList ⟨4, 10⟩ ⟨1, 1, 1, 1, 3⟩ = .ok resumed ∧
        resumed.tree = .node .root ⟨4, 10⟩ back := by
  have admitted : Text.Admits ") a /**/ b".toList ⟨0, 10⟩ := Text.admits_whole ") a /**/ b".toList
  have whole : parse ") a /**/ b".toList ⟨0, 10⟩ ⟨1, 1, 1, 1, 3⟩ = .ok ⟨.node .root ⟨0, 10⟩
      [.leaf ⟨.rightParen, ⟨0, 1⟩⟩, .leaf ⟨.whitespace, ⟨1, 2⟩⟩,
        .node .expression ⟨2, 3⟩ [.leaf ⟨.identifier, ⟨2, 3⟩⟩], .leaf ⟨.whitespace, ⟨3, 4⟩⟩,
        .leaf ⟨.blockComment, ⟨4, 8⟩⟩, .leaf ⟨.whitespace, ⟨8, 9⟩⟩,
        .node .expression ⟨9, 10⟩ [.leaf ⟨.identifier, ⟨9, 10⟩⟩]], []⟩ := by cbv
  obtain ⟨parsed, parsedEq, resumes⟩ := parse_resumed _ _ ⟨1, 1, 1, 1, 3⟩ admitted
  cases parsedEq.symm.trans whole
  obtain ⟨resumed, resumedEq, treeEq⟩ := resumes (by simp) [.leaf ⟨.rightParen, ⟨0, 1⟩⟩,
    .leaf ⟨.whitespace, ⟨1, 2⟩⟩, .node .expression ⟨2, 3⟩ [.leaf ⟨.identifier, ⟨2, 3⟩⟩],
    .leaf ⟨.whitespace, ⟨3, 4⟩⟩] _ rfl
  exact ⟨admitted, _, resumed, _, whole, rfl, rfl, resumedEq, treeEq⟩

end TemplateFrontend
