import TemplateFrontend.Proofs.Grammar.Recognition.Statements
import TemplateFrontend.Proofs.Parsing
import Mathlib

/-!
Contract: well-formed programs parse to the tree that they spell.

Owns:
- `program_of_wellFormed`, the root of a well-formed run of tokens;
- `parse_wellFormed`, the same for the text of a window, whatever its trivia.
-/

namespace TemplateFrontend

open Grammar (WellFormed)
open Shape (spellingAll)

namespace Grammar

/-- Placing what is left places nothing significant when nothing is pending. -/
theorem placeRest_reads {draft : Draft} (nothing : draft.pending = []) :
    Reads [] [] draft (placeRest draft) := by
  refine ⟨rfl, ?_, rfl⟩
  rw [Draft.shapes_placeRest, nothing]
  rfl

/-- The root of a well-formed run of tokens has the spelled shape, and no
ceiling is met. -/
theorem program_of_wellFormed {limits : Limits} {tokens : List Token} (stop : Nat)
    {parts : List Shape}
    (wellFormed : WellFormed limits (.program limits.depth limits.topLevelIterations) parts)
    (spelled : (tokens.filter fun token => !token.isTrivia).map Token.kind = spellingAll parts) :
    (program limits tokens stop).1.shape? = some (.node .root parts) ∧
      (program limits tokens stop).2 = [] := by
  have loopRead := (wellFormed_recognized wellFormed).2 (.ofTokens tokens stop) spelled
  have finishedRead := loopRead.trans (placeRest_reads loopRead.pending_eq)
  have shapesEq : Outline.shapes (placeRest (topLevel limits (.ofTokens tokens stop))).placed =
      (parts ++ []).reverse ++ [] := finishedRead.shapes_eq
  rw [List.append_nil, List.append_nil] at shapesEq
  constructor
  · simp only [program, Outline.shape?, Outline.shapes_reverse, shapesEq, List.reverse_reverse]
  · simp only [program, List.reverse_eq_nil_iff]
    exact finishedRead.trips_eq

end Grammar

/-- A window whose significant tokens spell a well-formed program parses without
meeting a ceiling, and its tree is the one that was spelled, once trivia and
spans are left out. The leaves of the tree are the tokens. -/
theorem parse_wellFormed {text : Text} {window : Span} {limits : Limits} {tokens : List Token}
    {parts : List Shape} (admitted : text.Admits window)
    (wellFormed : WellFormed limits (.program limits.depth limits.topLevelIterations) parts)
    (tokenized : tokenize text window = .ok tokens)
    (spelled : (tokens.filter fun token => !token.isTrivia).map Token.kind = spellingAll parts) :
    ∃ parsed, parse text window limits = .ok parsed ∧ parsed.trips = [] ∧
      parsed.tree.shape? = some (.node .root parts) ∧ parsed.tree.leaves = tokens := by
  obtain ⟨_, rootParts, parsed, reading⟩ := exists_reading limits admitted
  cases tokenized.symm.trans reading.tokenized
  obtain ⟨shapeEq, tripsEq⟩ := Grammar.program_of_wellFormed window.stop wellFormed spelled
  refine ⟨parsed, reading.parsed_eq, reading.trips_eq.symm.trans tripsEq, ?_, reading.leaves_eq⟩
  rw [reading.tree_eq, Outline.shape?_measure, ← reading.outline_eq, shapeEq]

/-- Two statements under the least ceilings that they fit: a call in an
assignment, and a property in a region. -/
theorem parse_wellFormed_at_ceilings :
    ∃ tokens parts,
      Text.Admits "x = f(1) @code\x7b a.b \x7d".toList ⟨0, 21⟩ ∧
      WellFormed ⟨3, 1, 1, 2, 2⟩ (.program 3 2) parts ∧
      tokenize "x = f(1) @code\x7b a.b \x7d".toList ⟨0, 21⟩ = .ok tokens ∧
      (tokens.filter fun token => !token.isTrivia).map Token.kind = spellingAll parts ∧
      ∃ parsed, parse "x = f(1) @code\x7b a.b \x7d".toList ⟨0, 21⟩ ⟨3, 1, 1, 2, 2⟩ = .ok parsed ∧
        parsed.trips = [] ∧ parsed.tree.shape? = some (.node .root parts) ∧
        parsed.tree.leaves = tokens := by
  have admitted : Text.Admits "x = f(1) @code\x7b a.b \x7d".toList ⟨0, 21⟩ :=
    Text.admits_whole "x = f(1) @code\x7b a.b \x7d".toList
  have number : WellFormed ⟨3, 1, 1, 2, 2⟩ (.statement 1) [.node .expression [.leaf .number]] :=
    .expression (.atom rfl .noProperties) .noOperators
  have call : WellFormed ⟨3, 1, 1, 2, 2⟩ (.statement 2)
      [.node .expression [.leaf .identifier, .leaf .leftParen,
        .node .expression [.leaf .number], .leaf .rightParen]] :=
    .expression (.call rfl .noProperties (.lastElement (.element number))) .noOperators
  have assigned : WellFormed ⟨3, 1, 1, 2, 2⟩ (.statement 3)
      [.node .assignment [.leaf .identifier, .leaf .assign,
        .node .expression [.leaf .identifier, .leaf .leftParen,
          .node .expression [.leaf .number], .leaf .rightParen]]] :=
    .assignment (.atom rfl .noProperties) call
  have links : WellFormed ⟨3, 1, 1, 2, 2⟩ (.properties 1) [.leaf .dot, .leaf .identifier] :=
    .property .noProperties
  have property : WellFormed ⟨3, 1, 1, 2, 2⟩ (.statement 2)
      [.node .expression [.leaf .identifier, .leaf .dot, .leaf .identifier]] :=
    .expression (.atom rfl links) .noOperators
  have region : WellFormed ⟨3, 1, 1, 2, 2⟩ (.statement 3)
      [.node .templateBlock [.leaf .markupCode,
        .node .expression [.leaf .identifier, .leaf .dot, .leaf .identifier],
        .leaf .rightBrace]] :=
    .markupRegion rfl (by decide) (.inRegion property (by decide) (by decide) .closeRegion)
  have wellFormed : WellFormed ⟨3, 1, 1, 2, 2⟩ (.program 3 2) _ :=
    .nextStatement assigned (.nextStatement region .noStatements (by decide)) (by decide)
  have tokenized : tokenize "x = f(1) @code\x7b a.b \x7d".toList ⟨0, 21⟩ = .ok
      [⟨.identifier, ⟨0, 1⟩⟩, ⟨.whitespace, ⟨1, 2⟩⟩, ⟨.assign, ⟨2, 3⟩⟩, ⟨.whitespace, ⟨3, 4⟩⟩,
        ⟨.identifier, ⟨4, 5⟩⟩, ⟨.leftParen, ⟨5, 6⟩⟩, ⟨.number, ⟨6, 7⟩⟩, ⟨.rightParen, ⟨7, 8⟩⟩,
        ⟨.whitespace, ⟨8, 9⟩⟩, ⟨.markupCode, ⟨9, 15⟩⟩, ⟨.whitespace, ⟨15, 16⟩⟩,
        ⟨.identifier, ⟨16, 17⟩⟩, ⟨.dot, ⟨17, 18⟩⟩, ⟨.identifier, ⟨18, 19⟩⟩,
        ⟨.whitespace, ⟨19, 20⟩⟩, ⟨.rightBrace, ⟨20, 21⟩⟩] := by cbv
  exact ⟨_, _, admitted, wellFormed, tokenized, rfl,
    parse_wellFormed admitted wellFormed tokenized rfl⟩

end TemplateFrontend
