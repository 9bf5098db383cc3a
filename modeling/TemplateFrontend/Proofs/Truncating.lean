import TemplateFrontend.Proofs.Grammar.Stages
import TemplateFrontend.Proofs.Matching
import TemplateFrontend.Proofs.Parsing
import TemplateFrontend.Proofs.Splitting
import TemplateFrontend.Proofs.Trimming
import Mathlib

/-!
Contract: the ceiling of the top level only truncates.

Owns:
- `Truncation`, a parse that has met the ceiling of the top level, next to a parse with
  more turns;
- `parse_truncated`, which says that a larger ceiling of the top level changes nothing, or
  that the parse under the smaller one is a truncation of the parse under the larger one.
-/

namespace TemplateFrontend

open Outline (frontierAll measureAll)

/-! ## Rows of children -/

/-- Children that are not empty lie between the ends of their row. -/
theorem Tree.Contiguous.bounds {start stop : Nat} {children : List Tree}
    (contiguous : Contiguous start children stop)
    (positive : ∀ child ∈ children, child.span.start < child.span.stop) :
    start ≤ stop ∧
      ∀ child ∈ children, start ≤ child.span.start ∧ child.span.stop ≤ stop := by
  induction children generalizing start with
  | nil => exact ⟨Nat.le_of_eq contiguous, by simp⟩
  | cons first later inductionHypothesis =>
      obtain ⟨startEq, behind⟩ := contiguous
      have firstPositive := positive first (List.mem_cons_self ..)
      obtain ⟨ordered, laterBounds⟩ := inductionHypothesis behind
        fun child member => positive child (List.mem_cons_of_mem _ member)
      refine ⟨by omega, ?_⟩
      intro child member
      rcases List.mem_cons.mp member with rfl | inLater
      · exact ⟨Nat.le_of_eq startEq.symm, ordered⟩
      · have childBounds := laterBounds child inLater
        omega

theorem Outline.measureAll_append {start seam : Nat} {left : List Outline} (right : List Outline)
    (tiled : Tiles start (frontierAll left) seam) :
    measureAll start (left ++ right) = measureAll start left ++ measureAll seam right := by
  induction left generalizing start with
  | nil =>
      cases tiled
      rfl
  | cons part later inductionHypothesis =>
      obtain ⟨middle, inside, behind⟩ := Tiles.append_iff.mp tiled
      rw [List.cons_append, measureAll, measureAll, span_measure part start middle inside,
        inductionHypothesis behind, List.cons_append]

/-- No child of the root is empty. -/
theorem Reading.child_positive {text : Text} {window : Span} {limits : Limits}
    {tokens : List Token} {parts : List Outline} {parsed : Parsed}
    (reading : Reading text window limits tokens parts parsed) {child : Tree}
    (member : child ∈ parsed.tree.children) : child.span.start < child.span.stop := by
  cases child with
  | leaf token =>
      have inChildren := Tree.mem_frontierAll_of_leaf_mem member
      rw [reading.tree_eq, Outline.measure, Tree.children, Outline.frontierAll_measureAll,
        reading.frontier_eq] at inChildren
      exact (reading.tiled.bounds inChildren).2.1
  | node kind span children =>
      obtain ⟨index, found⟩ := List.mem_iff_getElem?.mp member
      have reached : parsed.tree.at? [index] = some (.node kind span children) := by
        rw [Tree.at?, found]
        rfl
      obtain ⟨levels, inner, before, after, _, origin, placed⟩ :=
        reading.node_at (List.cons_ne_nil index []) reached
      obtain ⟨_, token, later, rfl, _⟩ := origin.begins
      exact placed.tiles_inside.start_lt_stop (by simp [frontierAll, Outline.frontier])

/-- A parse is determined by its program. -/
theorem Reading.eq_of_program_eq {text : Text} {window : Span} {limits limits' : Limits}
    {tokens : List Token} {parts parts' : List Outline} {parsed parsed' : Parsed}
    (reading : Reading text window limits tokens parts parsed)
    (reading' : Reading text window limits' tokens parts' parsed')
    (same : Grammar.program limits' tokens window.stop =
      Grammar.program limits tokens window.stop) : parsed' = parsed := by
  have outlineEq := reading'.outline_eq
  have tripsEq := reading'.trips_eq
  rw [same] at outlineEq tripsEq
  cases outlineEq.symm.trans reading.outline_eq
  have sameTree := reading'.tree_eq.trans reading.tree_eq.symm
  have sameTrips := tripsEq.symm.trans reading.trips_eq
  cases parsed
  cases parsed'
  cases sameTree
  cases sameTrips
  rfl

/-! ## Truncated parses -/

/-- `parsed` has met the ceiling of the top level before the token at `offset`, and
`parsed'` goes on there, with so many turns left. -/
structure Truncation (text : Text) (window : Span) (limits : Limits) (turns : Nat)
    (tokens : List Token) (parsed parsed' : Parsed) (offset : Nat) : Prop where
  no_straddle : ∀ child ∈ parsed'.tree.children,
    child.span.stop ≤ offset ∨ offset ≤ child.span.start
  children_eq : parsed.tree.children =
    parsed'.tree.children.filter (fun child => child.span.stop ≤ offset) ++
      (tokens.filter fun token => offset ≤ token.span.start).map .leaf
  trips_eq : ∃ before resumed, parsed.trips = before ++ [⟨.topLevel, offset⟩] ∧
    parse text ⟨offset, window.stop⟩ { limits with topLevelIterations := turns } = .ok resumed ∧
    parsed'.trips = before ++ resumed.trips

section Seam

variable {text : Text} {window : Span} {limits : Limits} {turns offset : Nat} {tokens : List Token}
  {parts parts' front back : List Outline} {parsed parsed' : Parsed}
  (reading : Reading text window limits tokens parts parsed)
  (reading' : Reading text window { limits with topLevelIterations := turns } tokens parts' parsed')
  (frontTiled : Tiles window.start (frontierAll front) offset)
  (backTiled : Tiles offset (frontierAll back) window.stop)
  (partsEq : parts = front ++ (frontierAll back).map .leaf) (partsEq' : parts' = front ++ back)

include reading' frontTiled backTiled partsEq' in
/-- The children of the root lie on either side of a seam between its parts. -/
theorem children_around :
    ∃ before behind, parsed'.tree.children = before ++ behind ∧
      before = measureAll window.start front ∧
      (∀ child ∈ before, child.span.stop ≤ offset) ∧
      ∀ child ∈ behind, offset ≤ child.span.start ∧ child.span.start < child.span.stop := by
  have childrenEq : parsed'.tree.children =
      measureAll window.start front ++ measureAll offset back := by
    rw [reading'.tree_eq, partsEq', Outline.measure, Tree.children,
      Outline.measureAll_append back frontTiled]
  have positive : ∀ child ∈ parsed'.tree.children, child.span.start < child.span.stop :=
    fun child member => reading'.child_positive member
  rw [childrenEq] at positive
  have frontRow := Outline.contiguous_measureAll front _ _ frontTiled
  have backRow := Outline.contiguous_measureAll back _ _ backTiled
  refine ⟨_, _, childrenEq, rfl, ?_, ?_⟩
  · intro child member
    exact ((frontRow.bounds fun other inFront => positive other
      (List.mem_append_left _ inFront)).2 child member).2
  · intro child member
    exact ⟨((backRow.bounds fun other inBack => positive other
      (List.mem_append_right _ inBack)).2 child member).1,
      positive child (List.mem_append_right _ member)⟩

include reading reading' frontTiled backTiled partsEq partsEq'

theorem children_truncated :
    parsed.tree.children =
      parsed'.tree.children.filter (fun child => child.span.stop ≤ offset) ++
        (tokens.filter fun token => offset ≤ token.span.start).map .leaf := by
  obtain ⟨before, behind, childrenEq', beforeEq, beforeAll, behindAll⟩ :=
    children_around reading' frontTiled backTiled partsEq'
  have kept : before.filter (fun child => child.span.stop ≤ offset) = before :=
    List.filter_eq_self.mpr fun child member => by simpa using beforeAll child member
  have dropped : behind.filter (fun child => child.span.stop ≤ offset) = [] := by
    apply List.filter_eq_nil_iff.mpr
    intro child member
    have childBounds := behindAll child member
    simp only [decide_eq_true_eq]
    omega
  have tokensBehind :
      tokens.filter (fun token => offset ≤ token.span.start) = frontierAll back := by
    rw [← reading'.frontier_eq, partsEq', Outline.frontierAll_append]
    exact frontTiled.filter_from backTiled
  rw [childrenEq', List.filter_append, kept, dropped, List.append_nil, tokensBehind, beforeEq,
    reading.tree_eq, partsEq, Outline.measure, Tree.children,
    Outline.measureAll_append _ frontTiled, measureAll_leaves]

end Seam

theorem truncation_of_cutShort {text : Text} {window : Span} {limits : Limits} {more : Nat}
    {tokens later : List Token} {parts parts' front back : List Outline} {parsed parsed' : Parsed}
    {token : Token} {met : List Trip} (admitted : text.Admits window)
    (reading : Reading text window limits tokens parts parsed)
    (reading' : Reading text window
      { limits with topLevelIterations := limits.topLevelIterations + more } tokens parts' parsed')
    (cut : Grammar.CutShort limits more tokens window.stop front back token later met) :
    Truncation text window limits more tokens parsed parsed' token.span.start := by
  have tiled := reading.tiled
  have tokenized := reading.tokenized
  rw [cut.tokens_eq] at tiled tokenized
  obtain ⟨seam, frontTiled, backTiled⟩ := Tiles.append_iff.mp tiled
  cases backTiled.1
  obtain ⟨_, _, admittedBack, tokenizedBack⟩ := tokenize_append admitted tokenized frontTiled
  have backTiled' : Tiles token.span.start (frontierAll back) window.stop := by
    rw [cut.frontier_back]
    exact backTiled
  have partsEq : parts = front ++ (frontierAll back).map .leaf := by
    have outlineEq := reading.outline_eq
    rw [cut.program_eq] at outlineEq
    rw [cut.frontier_back]
    injection outlineEq with _ same
    exact same.symm
  have partsEq' : parts' = front ++ back := by
    have outlineEq := reading'.outline_eq
    rw [cut.program_eq_more] at outlineEq
    injection outlineEq with _ same
    exact same.symm
  constructor
  case no_straddle =>
    obtain ⟨before, behind, childrenEq, _, beforeAll, behindAll⟩ :=
      children_around reading' frontTiled backTiled' partsEq'
    intro child member
    rw [childrenEq] at member
    rcases List.mem_append.mp member with inBefore | inBehind
    · exact Or.inl (beforeAll child inBefore)
    · exact Or.inr (behindAll child inBehind).1
  case children_eq =>
    exact children_truncated reading reading' frontTiled backTiled' partsEq partsEq'
  case trips_eq =>
    obtain ⟨_, _, resumed, resumedReading⟩ :=
      exists_reading { limits with topLevelIterations := more } admittedBack
    cases tokenizedBack.symm.trans resumedReading.tokenized
    refine ⟨met, resumed, ?_, resumedReading.parsed_eq, ?_⟩
    · rw [← reading.trips_eq, cut.program_eq]
    · rw [← reading'.trips_eq, cut.program_eq_more, resumedReading.trips_eq]

/-- A larger ceiling of the top level leaves a parse that did not meet it as it is. Where a
parse met it, the children of the root that end there are those under the larger ceiling,
every token behind them is a child of its own, and the log is that under the larger ceiling
up to there, with this one more entry. The log from there on is that of a parse that begins
there with the turns that are left. -/
theorem parse_truncated (text : Text) (window : Span) (limits : Limits)
    (admitted : text.Admits window) (turns : Nat) (le : limits.topLevelIterations ≤ turns) :
    ∃ tokens parsed parsed', tokenize text window = .ok tokens ∧
      parse text window limits = .ok parsed ∧
      parse text window { limits with topLevelIterations := turns } = .ok parsed' ∧
      ((∀ trip ∈ parsed.trips, trip.construct ≠ .topLevel) → parsed' = parsed) ∧
      ∀ offset, ⟨.topLevel, offset⟩ ∈ parsed.trips →
        Truncation text window limits (turns - limits.topLevelIterations) tokens parsed parsed'
          offset := by
  obtain ⟨tokens, parts, parsed, reading⟩ := exists_reading limits admitted
  obtain ⟨_, parts', parsed', reading'⟩ :=
    exists_reading { limits with topLevelIterations := turns } admitted
  cases reading.tokenized.symm.trans reading'.tokenized
  refine ⟨tokens, parsed, parsed', reading.tokenized, reading.parsed_eq, reading'.parsed_eq, ?_⟩
  obtain ⟨more, rfl⟩ := Nat.exists_eq_add_of_le le
  rw [Nat.add_sub_cancel_left]
  have kinds : ∀ token ∈ tokens, token.kind ≠ .endOfInput := fun token member =>
    Lexeme.ne_endOfInput_of_isTokenKind (reading.token_kinds token member)
  rcases Grammar.program_stages limits window.stop kinds more with
    ⟨below, same⟩ | ⟨front, back, token, later, met, cut⟩
  · refine ⟨fun _ => reading.eq_of_program_eq reading' same, ?_⟩
    intro offset member
    rw [← reading.trips_eq] at member
    exact absurd rfl (below _ member)
  · have tripsEq := reading.trips_eq
    rw [cut.program_eq] at tripsEq
    refine ⟨fun unmet => absurd rfl (unmet ⟨.topLevel, token.span.start⟩ ?_), ?_⟩
    · rw [← tripsEq]
      exact List.mem_append_right _ (List.mem_singleton_self _)
    · intro offset member
      have offsetEq : offset = token.span.start := by
        rw [← tripsEq] at member
        rcases List.mem_append.mp member with inMet | isLast
        · exact absurd rfl (cut.below _ inMet)
        · exact congrArg Trip.offset (List.mem_singleton.mp isLast)
      subst offsetEq
      exact truncation_of_cutShort admitted reading reading' cut

/-- The ceiling of the top level, met where a ceiling for operators was met just before. -/
theorem parse_truncated_at_operator :
    Text.Admits "a + b".toList ⟨0, 5⟩ ∧ (⟨1, 0, 0, 0, 1⟩ : Limits).topLevelIterations ≤ 3 ∧
      ∃ tokens parsed', Truncation "a + b".toList ⟨0, 5⟩ ⟨1, 0, 0, 0, 1⟩ 2 tokens
        ⟨.node .root ⟨0, 5⟩ [.node .expression ⟨0, 1⟩ [.leaf ⟨.identifier, ⟨0, 1⟩⟩],
          .leaf ⟨.whitespace, ⟨1, 2⟩⟩, .leaf ⟨.plus, ⟨2, 3⟩⟩, .leaf ⟨.whitespace, ⟨3, 4⟩⟩,
          .leaf ⟨.identifier, ⟨4, 5⟩⟩],
          [⟨.operatorChain, 2⟩, ⟨.topLevel, 2⟩]⟩ parsed' 2 := by
  have admitted : Text.Admits "a + b".toList ⟨0, 5⟩ := Text.admits_whole "a + b".toList
  have parsedEq : parse "a + b".toList ⟨0, 5⟩ ⟨1, 0, 0, 0, 1⟩ = .ok ⟨.node .root ⟨0, 5⟩
      [.node .expression ⟨0, 1⟩ [.leaf ⟨.identifier, ⟨0, 1⟩⟩], .leaf ⟨.whitespace, ⟨1, 2⟩⟩,
        .leaf ⟨.plus, ⟨2, 3⟩⟩, .leaf ⟨.whitespace, ⟨3, 4⟩⟩, .leaf ⟨.identifier, ⟨4, 5⟩⟩],
      [⟨.operatorChain, 2⟩, ⟨.topLevel, 2⟩]⟩ := by cbv
  obtain ⟨tokens, _, parsed', _, parsedEq', _, _, truncated⟩ :=
    parse_truncated "a + b".toList ⟨0, 5⟩ ⟨1, 0, 0, 0, 1⟩ admitted 3 (by decide)
  cases parsedEq'.symm.trans parsedEq
  exact ⟨admitted, by decide, tokens, parsed', truncated 2 (by simp)⟩

end TemplateFrontend
