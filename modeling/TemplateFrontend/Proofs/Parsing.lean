import TemplateFrontend.Parsing
import TemplateFrontend.Proofs.Grammar.Origin
import TemplateFrontend.Proofs.Tree.Recursion

/-!
Contract: parsing an admitted window never faults, keeps every token and gives
a tree that fits the window.

Owns:
- `Reading`, what is known of a parse: its tokens, its outline, its tree, and
  the origin of the nodes;
- `exists_reading`, which says that every admitted window has one;
- `Reading.node_at`, which reads a node of the tree off the outline;
- `parse_lossless`: the leaves are the tokens of the window, and all spans are
  exact.
-/

namespace TemplateFrontend

open Outline (frontierAll EveryAll)
open Grammar (Origin)

/-- A parse of a window: `tokens` tile the window, `parts` are the parts of the
root, and the tree of `parsed` is their measured tree. -/
structure Reading (text : Text) (window : Span) (limits : Limits) (tokens : List Token)
    (parts : List Outline) (parsed : Parsed) : Prop where
  tokenized : tokenize text window = .ok tokens
  tiled : Tiles window.start tokens window.stop
  token_kinds : ∀ token ∈ tokens, Lexeme.IsTokenKind token.kind
  parsed_eq : parse text window limits = .ok parsed
  outline_eq : (Grammar.program limits tokens window.stop).1 = .node .root parts
  trips_eq : (Grammar.program limits tokens window.stop).2 = parsed.trips
  tree_eq : parsed.tree = (Outline.node .root parts).measure window.start
  frontier_eq : frontierAll parts = tokens
  every : EveryAll (Origin limits parsed.trips.reverse) limits.depth [] parts

/-- Parsing an admitted window succeeds, under any ceilings. -/
theorem exists_reading {text : Text} {window : Span} (limits : Limits)
    (admitted : text.Admits window) :
    ∃ tokens parts parsed, Reading text window limits tokens parts parsed := by
  obtain ⟨tokens, tokenized, tiled, kinds⟩ := tokenize_tiles admitted
  obtain ⟨parts, outlineEq, frontierEq, every⟩ :=
    Grammar.program_origin limits tokens window.stop
  rw [← frontierEq] at tiled
  have built : (Outline.node .root parts).build window.start = _ := Outline.build_eq_measure tiled
  refine ⟨tokens, parts, ⟨(Outline.node .root parts).measure window.start,
    (Grammar.program limits tokens window.stop).2⟩, ?_⟩
  exact
    { tokenized, token_kinds := kinds, outline_eq := outlineEq, trips_eq := rfl, tree_eq := rfl
      frontier_eq := frontierEq, every
      tiled := frontierEq ▸ tiled
      parsed_eq := by
        unfold parse
        rw [tokenized]
        dsimp only [bind, Except.bind]
        rw [outlineEq, built]
        rfl }

section Reading

variable {text : Text} {window : Span} {limits : Limits} {tokens : List Token}
  {parts : List Outline} {parsed : Parsed}
  (reading : Reading text window limits tokens parts parsed)

include reading

theorem Reading.leaves_eq : parsed.tree.leaves = tokens := by
  rw [Tree.leaves_eq_frontier, reading.tree_eq, Outline.frontier_measure, Outline.frontier,
    reading.frontier_eq]

theorem Reading.parts_tiled : Tiles window.start (frontierAll parts) window.stop := by
  rw [reading.frontier_eq]
  exact reading.tiled

theorem Reading.span_eq : parsed.tree.span = window := by
  rw [reading.tree_eq]
  exact Outline.span_measure (.node .root parts) window.start window.stop reading.parts_tiled

/-- A node that a path reaches below the root: how many levels are left inside
it, where its tokens lie, and its origin. -/
theorem Reading.node_at {path : List Nat} (below : path ≠ []) {kind : Kind} {span : Span}
    {children : List Tree} (reached : parsed.tree.at? path = some (.node kind span children)) :
    ∃ levels inner before after, limits.depth = levels + path.length ∧
      Origin limits parsed.trips.reverse levels after kind inner ∧
      Outline.Placement window.start tokens window.stop inner span children before after := by
  rw [reading.tree_eq] at reached
  obtain ⟨levels, inner, before, after, levelsEq, origin, placed⟩ :=
    reading.every.at? reading.parts_tiled below reached
  rw [reading.frontier_eq] at placed
  exact ⟨levels, inner, before, after, levelsEq, origin, placed⟩

end Reading

/-- A tree that holds a row of tokens and fits a window: the root spans the
window, every node below it is not empty, and the children of every node follow
each other without a gap from its start to its stop. -/
structure Tree.Covers (tree : Tree) (window : Span) (tokens : List Token) : Prop where
  kind_eq : tree.kind = .root
  leaves_eq : tree.leaves = tokens
  span_eq : tree.span = window
  contiguous : Contiguous window.start tree.children window.stop
  below : ∀ path kind span children, path ≠ [] → tree.at? path = some (.node kind span children) →
    span.start < span.stop ∧ Contiguous span.start children span.stop

/-- Parsing loses no token of the window, repeats none and keeps their order,
under any ceilings, and its tree fits the window. -/
theorem parse_lossless (text : Text) (window : Span) (limits : Limits)
    (admitted : text.Admits window) :
    ∃ tokens parsed, tokenize text window = .ok tokens ∧ parse text window limits = .ok parsed ∧
      parsed.tree.Covers window tokens := by
  obtain ⟨tokens, parts, parsed, reading⟩ := exists_reading limits admitted
  refine ⟨tokens, parsed, reading.tokenized, reading.parsed_eq, ?_⟩
  constructor
  case kind_eq =>
    rw [reading.tree_eq]
    rfl
  case leaves_eq => exact reading.leaves_eq
  case span_eq => exact reading.span_eq
  case contiguous =>
    rw [reading.tree_eq]
    exact Outline.contiguous_measureAll parts window.start window.stop reading.parts_tiled
  case below =>
    intro path kind span children below reached
    obtain ⟨levels, inner, before, after, _, origin, placed⟩ := reading.node_at below reached
    obtain ⟨_, token, later, rfl, _⟩ := origin.begins
    refine ⟨placed.tiles_inside.start_lt_stop (by simp [frontierAll, Outline.frontier]), ?_⟩
    rw [placed.children_eq]
    exact Outline.contiguous_measureAll _ span.start span.stop placed.tiles_inside

/-- A window inside a text, with a missed operand, under ceilings of zero. -/
theorem parse_lossless_inner_window :
    Text.Admits "é return ) é".toList ⟨3, 11⟩ ∧
      ∃ tokens parsed, tokenize "é return ) é".toList ⟨3, 11⟩ = .ok tokens ∧
        parse "é return ) é".toList ⟨3, 11⟩ ⟨0, 0, 0, 0, 0⟩ = .ok parsed ∧
        parsed.tree.Covers ⟨3, 11⟩ tokens := by
  have admitted : Text.Admits "é return ) é".toList ⟨3, 11⟩ :=
    { ordered := by decide
      start_boundary := ⟨"é ".toList, "return ) é".toList, by decide, by decide⟩
      stop_boundary := ⟨"é return )".toList, " é".toList, by decide, by decide⟩ }
  exact ⟨admitted, parse_lossless _ _ _ admitted⟩

end TemplateFrontend
