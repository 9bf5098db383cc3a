import TemplateFrontend.Proofs.Grammar.Respelling
import TemplateFrontend.Proofs.Parsing
import Mathlib

/-!
Contract: trivia and spelling do not influence the structure of a parse.

Owns:
- `Parsed.Numbers`, what is left of a parse without its trivia, when ordinals of
  significant tokens stand for its spans and offsets;
- `parse_respelled`: two windows whose significant tokens are of the same kinds
  leave the same, under any ceilings.
-/

namespace TemplateFrontend

open Token (significant)

/-- The tree and the met ceilings of a parse, without trivia, when its spans and
offsets are read against the significant ones among `tokens`. Every met ceiling
points at one of them, or at the end of the window. -/
structure Parsed.Numbers (parsed : Parsed) (tokens : List Token) (stop : Nat) (tree : Numbered)
    (log : List (Construct × Landmark)) : Prop where
  tree_eq : parsed.tree.numbered? (significant tokens) = some tree
  log_eq : parsed.trips.map (Trip.numbered? (significant tokens) stop) = log.map some

section Reading

variable {text : Text} {window : Span} {limits : Limits} {tokens : List Token}
  {parts : List Outline} {parsed : Parsed}
  (reading : Reading text window limits tokens parts parsed)

/-- The row that a parse works on. -/
def Reading.row : Row := ⟨tokens, window.start, window.stop, reading.tiled⟩

include reading

/-- The shape of a root decides the numbers of its tree. -/
theorem Reading.numbered?_eq :
    parsed.tree.numbered? (significant tokens) =
      (Grammar.program limits tokens window.stop).1.shape?.map (Shape.number 0) := by
  have nothingBefore : Tiles window.start [] window.start := rfl
  have nothingAfter : Tiles window.stop [] window.stop := rfl
  have numbers := Outline.numbered?_measure (.node .root parts) nothingBefore
    reading.parts_tiled nothingAfter
  rw [List.nil_append, List.append_nil, Outline.frontier, reading.frontier_eq] at numbers
  rw [reading.tree_eq, reading.outline_eq]
  exact numbers

end Reading

/-- Trivia and spelling do not influence the structure: where the significant
tokens of two windows are of the same kinds, one after the other, the trees and
the met ceilings are the same once they are numbered. -/
theorem parse_respelled {text text' : Text} {window window' : Span} {tokens tokens' : List Token}
    (limits : Limits) (admitted : text.Admits window) (admitted' : text'.Admits window')
    (tokenized : tokenize text window = .ok tokens)
    (tokenized' : tokenize text' window' = .ok tokens')
    (sameKinds : (significant tokens).map Token.kind = (significant tokens').map Token.kind) :
    ∃ parsed parsed' tree log,
      parse text window limits = .ok parsed ∧ parse text' window' limits = .ok parsed' ∧
        parsed.Numbers tokens window.stop tree log ∧
        parsed'.Numbers tokens' window'.stop tree log := by
  obtain ⟨_, parts, parsed, reading⟩ := exists_reading limits admitted
  obtain ⟨_, parts', parsed', reading'⟩ := exists_reading limits admitted'
  cases tokenized.symm.trans reading.tokenized
  cases tokenized'.symm.trans reading'.tokenized
  obtain ⟨sameShape, log, logged, logged'⟩ :=
    Grammar.program_respelled reading.row reading'.row limits sameKinds
  obtain ⟨shape, shapeEq⟩ :
      ∃ shape, (Grammar.program limits tokens window.stop).1.shape? = some shape := by
    rw [reading.outline_eq]
    exact ⟨_, rfl⟩
  have shapeEq' : (Grammar.program limits tokens' window'.stop).1.shape? = some shape :=
    sameShape.symm.trans shapeEq
  refine ⟨parsed, parsed', shape.number 0, log, reading.parsed_eq, reading'.parsed_eq, ?_, ?_⟩
  · constructor
    · rw [reading.numbered?_eq, shapeEq]
      rfl
    · rw [← reading.trips_eq]
      exact logged
  · constructor
    · rw [reading'.numbered?_eq, shapeEq']
      rfl
    · rw [← reading'.trips_eq]
      exact logged'

/-- A property chain that meets its ceiling, in two spellings. -/
theorem parse_respelled_at_ceiling :
    ∃ tokens tokens',
      Text.Admits "a.b".toList ⟨0, 3⟩ ∧ Text.Admits "(cd /**/ . e)".toList ⟨1, 12⟩ ∧
      tokenize "a.b".toList ⟨0, 3⟩ = .ok tokens ∧
      tokenize "(cd /**/ . e)".toList ⟨1, 12⟩ = .ok tokens' ∧
      (significant tokens).map Token.kind = (significant tokens').map Token.kind ∧
      ∃ parsed parsed' tree log,
        parse "a.b".toList ⟨0, 3⟩ ⟨1, 1, 0, 1, 1⟩ = .ok parsed ∧
          parse "(cd /**/ . e)".toList ⟨1, 12⟩ ⟨1, 1, 0, 1, 1⟩ = .ok parsed' ∧
          parsed.Numbers tokens 3 tree log ∧ parsed'.Numbers tokens' 12 tree log := by
  have admitted : Text.Admits "a.b".toList ⟨0, 3⟩ := Text.admits_whole "a.b".toList
  have admitted' : Text.Admits "(cd /**/ . e)".toList ⟨1, 12⟩ :=
    { ordered := by decide
      start_boundary := ⟨"(".toList, "cd /**/ . e)".toList, by decide, by decide⟩
      stop_boundary := ⟨"(cd /**/ . e".toList, ")".toList, by decide, by decide⟩ }
  have tokenized : tokenize "a.b".toList ⟨0, 3⟩ = .ok
      [⟨.identifier, ⟨0, 1⟩⟩, ⟨.dot, ⟨1, 2⟩⟩, ⟨.identifier, ⟨2, 3⟩⟩] := by cbv
  have tokenized' : tokenize "(cd /**/ . e)".toList ⟨1, 12⟩ = .ok
      [⟨.identifier, ⟨1, 3⟩⟩, ⟨.whitespace, ⟨3, 4⟩⟩, ⟨.blockComment, ⟨4, 8⟩⟩,
        ⟨.whitespace, ⟨8, 9⟩⟩, ⟨.dot, ⟨9, 10⟩⟩, ⟨.whitespace, ⟨10, 11⟩⟩,
        ⟨.identifier, ⟨11, 12⟩⟩] := by cbv
  exact ⟨_, _, admitted, admitted', tokenized, tokenized', rfl,
    parse_respelled _ admitted admitted' tokenized tokenized' rfl⟩

end TemplateFrontend
