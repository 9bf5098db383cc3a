import TemplateFrontend.Proofs.Grammar.Regions
import TemplateFrontend.Proofs.Grammar.Operands
import TemplateFrontend.Proofs.Parsing
import Mathlib

/-!
Contract: markup regions and their matching braces.

Owns:
- `closingBrace?`, the brace that matches an opening, over all tokens;
- `regionOpening?`, the token that opened the region of a markup block;
- `ends_before_match_iff`: when a region ends before its matching brace.

A region counts the braces between its statements. It ends early when the
statements themselves hold more braces that open than braces that close.
-/

namespace TemplateFrontend

open Outline (frontierAll)

/-! ## Matching braces -/

/-- The token that first brings a count of open braces to zero. -/
def closingBrace? : (opened : Int) → List Token → Option Token
  | _, [] => none
  | opened, token :: later =>
      if opened + token.kind.braceStep = 0 then
        some token
      else
        closingBrace? (opened + token.kind.braceStep) later

/-- `stop` lies at or behind the end of the brace that matches an opening before
`tokens`. Where none matches, `stop` lies behind every significant token. -/
def ReachesMatch (tokens : List Token) (stop : Nat) : Prop :=
  match closingBrace? 1 tokens with
  | some brace => brace.span.stop ≤ stop
  | none => ∀ token ∈ tokens, token.isTrivia = false → token.span.stop ≤ stop

theorem closingBrace?_append (opened : Int) (left right : List Token) :
    closingBrace? opened (left ++ right) =
      (closingBrace? opened left).or (closingBrace? (opened + balance left) right) := by
  induction left generalizing opened with
  | nil => simp [closingBrace?]
  | cons token later inductionHypothesis =>
      simp only [List.cons_append, closingBrace?, balance_cons, ← Int.add_assoc]
      split
      · rfl
      · exact inductionHypothesis _

theorem braceStep_cases (kind : Kind) :
    kind.braceStep = 1 ∨ kind.braceStep = 0 ∨ kind.braceStep = -1 ∧ kind = .rightBrace := by
  unfold Kind.braceStep
  split
  · exact Or.inl rfl
  · split
    · next kindEq => exact Or.inr (Or.inr ⟨rfl, kindEq⟩)
    · exact Or.inr (Or.inl rfl)

/-- A count that is never brought to zero stays positive. -/
theorem positive_of_closingBrace?_eq_none {opened : Int} (positive : 1 ≤ opened)
    {tokens : List Token} (unmatched : closingBrace? opened tokens = none) :
    1 ≤ opened + balance tokens := by
  induction tokens generalizing opened with
  | nil => simpa using positive
  | cons token later inductionHypothesis =>
      rw [closingBrace?] at unmatched
      split at unmatched
      · cases unmatched
      · next notZero =>
          have step := braceStep_cases token.kind
          rw [balance_cons, ← Int.add_assoc]
          exact inductionHypothesis (by omega) unmatched

/-- What brings a count to zero is a closing brace. -/
theorem closingBrace?_spec {opened : Int} (positive : 1 ≤ opened) {tokens : List Token}
    {brace : Token} (found : closingBrace? opened tokens = some brace) :
    brace ∈ tokens ∧ brace.kind = .rightBrace := by
  induction tokens generalizing opened with
  | nil => cases found
  | cons token later inductionHypothesis =>
      have step := braceStep_cases token.kind
      rw [closingBrace?] at found
      split at found
      · next zero =>
          cases found
          constructor
          · exact List.mem_cons_self ..
          · rcases step with step | step | ⟨_, kindEq⟩
            · omega
            · omega
            · exact kindEq
      · obtain ⟨member, kindEq⟩ := inductionHypothesis (by omega) found
        exact ⟨List.mem_cons_of_mem _ member, kindEq⟩

theorem reachesMatch_of_forall {tokens : List Token} {stop : Nat}
    (behind : ∀ token ∈ tokens, token.isTrivia = false → token.span.stop ≤ stop) :
    ReachesMatch tokens stop := by
  unfold ReachesMatch
  split
  · next brace found =>
      obtain ⟨member, kindEq⟩ := closingBrace?_spec (Int.le_refl 1) found
      exact behind brace member (by rw [Token.isTrivia, kindEq]; rfl)
  · exact behind

/-! ## The opening of a region -/

/-- The token that opened the region of a markup block with these children: a
markup opener other than the end marker, or the brace after an at sign. -/
def regionOpening? (children : List Tree) : Option Token :=
  match Tree.significant children with
  | .leaf first :: later =>
      if first.kind = .atSign then
        match later with
        | .leaf second :: _ => if second.kind = .leftBrace then some second else none
        | _ => none
      else if first.kind.isMarkup && first.kind != .markupEnd then some first
      else none
  | _ => none

theorem measureAll_map_leaf (tokens : List Token) (later : List Outline) (offset : Nat) :
    ∃ seam, Outline.measureAll offset (tokens.map .leaf ++ later) =
      tokens.map .leaf ++ Outline.measureAll seam later := by
  induction tokens generalizing offset with
  | nil => exact ⟨offset, rfl⟩
  | cons token others inductionHypothesis =>
      obtain ⟨seam, measured⟩ := inductionHypothesis token.span.stop
      exact ⟨seam, by simp [Outline.measureAll, Outline.measure, Tree.span, measured]⟩

theorem measureAll_leaves (tokens : List Token) (offset : Nat) :
    Outline.measureAll offset (tokens.map .leaf) = tokens.map .leaf := by
  obtain ⟨_, measured⟩ := measureAll_map_leaf tokens [] offset
  rwa [List.append_nil, Outline.measureAll, List.append_nil] at measured

theorem markup_facts {kind : Kind} (isMarkup : kind.isMarkup = true) :
    kind.isTrivia = false ∧ kind ≠ .atSign := by
  revert isMarkup
  cases kind <;> decide

theorem Tree.significant_leaf_cons {token : Token} (notTrivia : token.isTrivia = false)
    (later : List Tree) :
    significant (.leaf token :: later) = .leaf token :: significant later := by
  simp [significant, isTriviaLeaf, notTrivia]

theorem Tree.significant_trivia_append {tokens : List Token}
    (trivia : ∀ token ∈ tokens, token.isTrivia = true) (later : List Tree) :
    significant (tokens.map .leaf ++ later) = significant later := by
  have none_left : significant (tokens.map .leaf) = [] := by
    simp only [significant, List.filter_eq_nil_iff, List.mem_map]
    rintro child ⟨token, member, rfl⟩
    simp [isTriviaLeaf, trivia token member]
  rw [significant, List.filter_append]
  exact congrArg (· ++ significant later) none_left

/-- The opening of a region is read off the children of its block. -/
theorem Grammar.OpensRegion.regionOpening?_eq {head : List Token} {opening : Token}
    (opens : Grammar.OpensRegion head opening) (later : List Tree) :
    regionOpening? ((head ++ [opening]).map .leaf ++ later) = some opening := by
  rcases opens with ⟨rfl, isMarkup, notEnd⟩ | ⟨sign, gap, rfl, signEq, gapTrivia, openingEq⟩
  · obtain ⟨notTrivia, notSign⟩ := markup_facts isMarkup
    simp [regionOpening?, Tree.significant_leaf_cons notTrivia, notSign, isMarkup, notEnd]
  · have signSignificant : sign.isTrivia = false := by rw [Token.isTrivia, signEq]; rfl
    have openingSignificant : opening.isTrivia = false := by rw [Token.isTrivia, openingEq]; rfl
    simp [regionOpening?, Tree.significant_leaf_cons signSignificant,
      Tree.significant_trivia_append gapTrivia, Tree.significant_leaf_cons openingSignificant,
      signEq, openingEq]

/-! ## Counting inside a block -/

/-- The braces of a block are those that stand directly in it and those of its
statements. -/
theorem balance_frontierAll (parts : List Outline) (offset : Nat) :
    balance (frontierAll parts) = balance (Outline.direct parts) +
      balance (Tree.frontierAll ((Outline.measureAll offset parts).filter Tree.isNode)) := by
  induction parts generalizing offset with
  | nil => rfl
  | cons part later inductionHypothesis =>
      have rest := inductionHypothesis (part.measure offset).span.stop
      cases part with
      | leaf token =>
          simp only [Outline.measure] at rest
          simp only [frontierAll, Outline.frontier, List.singleton_append, balance_cons, rest,
            Outline.direct_leaf_cons, Outline.measureAll, Outline.measure,
            List.filter_cons, Tree.isNode]
          simp [Int.add_assoc]
      | node kind parts =>
          have inner := Outline.frontier_measure (.node kind parts) offset
          simp only [frontierAll, balance_append, rest, Outline.direct_node_cons,
            Outline.measureAll]
          rw [List.filter_cons_of_pos (by simp [Outline.measure, Tree.isNode]), Tree.frontierAll,
            balance_append, inner]
          omega

/-- The tokens behind a token of a tiled stretch are those that start behind it. -/
theorem Tiles.filter_behind {start stop : Nat} {left right : List Token} {token : Token}
    (tiled : Tiles start (left ++ token :: right) stop) :
    (left ++ token :: right).filter (fun other => token.span.stop ≤ other.span.start) = right := by
  obtain ⟨seam, leftTiled, startEq, positive, rightTiled⟩ := Tiles.append_iff.mp tiled
  have front : Tiles start (left ++ [token]) token.span.stop :=
    Tiles.append_iff.mpr ⟨seam, leftTiled, startEq, positive, rfl⟩
  rw [← List.singleton_append, ← List.append_assoc]
  exact front.filter_from rightTiled

/-- The tokens before a token of a tiled stretch are those that end before it
does. -/
theorem Tiles.filter_before {start stop : Nat} {left right : List Token} {token : Token}
    (tiled : Tiles start (left ++ token :: right) stop) :
    (left ++ token :: right).filter (fun other => other.span.stop < token.span.stop) = left := by
  obtain ⟨seam, leftTiled, startEq, positive, rightTiled⟩ := Tiles.append_iff.mp tiled
  have leftAll : left.filter (fun other => other.span.stop < token.span.stop) = left := by
    apply List.filter_eq_self.mpr
    intro other member
    have otherBounds := leftTiled.bounds member
    simp only [decide_eq_true_eq]
    omega
  have rightNone : right.filter (fun other => other.span.stop < token.span.stop) = [] := by
    apply List.filter_eq_nil_iff.mpr
    intro other member
    have otherBounds := rightTiled.bounds member
    simp only [decide_eq_true_eq]
    omega
  rw [List.filter_append, List.filter_cons_of_neg, leftAll, rightNone, List.append_nil]
  simp

section Regions

variable {start stop : Nat} {tokens before after : List Token} {parts : List Outline} {span : Span}
  {children : List Tree} {head : List Token} {opening : Token} {body : List Outline}
  (region : Grammar.RegionParts after parts head opening body)
  (placed : Outline.Placement start tokens stop parts span children before after)

include region placed

theorem region_tokens : tokens = (before ++ head) ++ opening :: (frontierAll body ++ after) := by
  rw [placed.tokens_eq, region.parts_eq]
  simp [frontierAll, Outline.frontier]

theorem region_behind (tiled : Tiles start tokens stop) :
    tokens.filter (fun token => opening.span.stop ≤ token.span.start) =
      frontierAll body ++ after := by
  have tokensEq := region_tokens region placed
  rw [tokensEq] at tiled ⊢
  exact tiled.filter_behind

theorem region_body_bounds {token : Token} (member : token ∈ frontierAll body) :
    token.span.stop ≤ span.stop := by
  have memberParts : token ∈ frontierAll parts := by
    rw [region.parts_eq, Outline.frontierAll_append]
    exact List.mem_append_right _ member
  exact (placed.tiles_inside.bounds memberParts).2.2

theorem region_last_stop {inner : List Token} {brace : Token}
    (bodyEq : frontierAll body = inner ++ [brace]) : brace.span.stop = span.stop := by
  have tiled := placed.tiles_inside
  rw [region.parts_eq, Outline.frontierAll_append, bodyEq, ← List.append_assoc] at tiled
  obtain ⟨_, _, _, _, stopEq⟩ := Tiles.append_iff.mp tiled
  exact stopEq

theorem region_between (tiled : Tiles start tokens stop) {inner : List Token} {brace : Token}
    (bodyEq : frontierAll body = inner ++ [brace]) :
    (tokens.filter fun token =>
      opening.span.stop ≤ token.span.start ∧ token.span.stop < span.stop) = inner := by
  have behindEq : frontierAll body ++ after = inner ++ brace :: after := by
    rw [bodyEq, List.append_assoc, List.singleton_append]
  have behind := region_behind region placed tiled
  have tokensEq := region_tokens region placed
  rw [behindEq] at behind tokensEq
  rw [tokensEq] at tiled
  obtain ⟨_, _, _, _, tiledBehind⟩ := Tiles.append_iff.mp tiled
  have ends := tiledBehind.filter_before
  rw [region_last_stop region placed bodyEq, ← behind, List.filter_filter] at ends
  simpa only [Bool.decide_and, Bool.and_comm] using ends

/-- A block before the end of the input ends with a closing brace, and the count
behind it is that of the braces in its statements. -/
theorem region_count (significant : ∃ token ∈ after, token.isTrivia = false) :
    ∃ inner brace, frontierAll body = inner ++ [brace] ∧ brace.kind = .rightBrace ∧
      1 + balance (inner ++ [brace]) =
        balance (Tree.frontierAll (children.filter Tree.isNode)) := by
  rcases region.ending with trivia | ⟨directEq, inner, brace, bodyEq, braceEq⟩
  · obtain ⟨token, member, notTrivia⟩ := significant
    rw [trivia token member] at notTrivia
    cases notTrivia
  · have bodyTokens : frontierAll body = frontierAll inner ++ [brace] := by
      rw [bodyEq, Outline.frontierAll_append]
      rfl
    have counts := balance_frontierAll parts span.start
    rw [← placed.children_eq, directEq, Int.zero_add, region.parts_eq, Outline.frontierAll_append,
      Outline.frontierAll_map_leaf, balance_append, region.opens.balance_eq, bodyTokens] at counts
    exact ⟨frontierAll inner, brace, bodyTokens, braceEq, counts⟩

/-- Where only trivia follows, a block reaches the match of its opening. -/
theorem region_reaches_of_trivia (trivia : ∀ token ∈ after, token.isTrivia = true) :
    ReachesMatch (frontierAll body ++ after) span.stop := by
  apply reachesMatch_of_forall
  intro token member notTrivia
  rcases List.mem_append.mp member with inside | behind
  · exact region_body_bounds region placed inside
  · rw [trivia token behind] at notTrivia
    cases notTrivia

/-- When a region ends before its match, by its tokens alone. -/
theorem region_ends_early_iff {inner : List Token} {brace : Token}
    (bodyEq : frontierAll body = inner ++ [brace]) (braceEq : brace.kind = .rightBrace)
    (significant : ∃ token ∈ after, token.isTrivia = false) :
    ¬ ReachesMatch (frontierAll body ++ after) span.stop ↔
      0 < 1 + balance (inner ++ [brace]) ∧ closingBrace? 1 inner = none := by
  have lastCount : 1 + balance (inner ++ [brace]) = balance inner := by
    have step : brace.kind.braceStep = -1 := by rw [braceEq]; rfl
    simp only [balance_append, balance_cons, step, balance_nil]
    omega
  constructor
  · intro early
    have unmatched : closingBrace? 1 (inner ++ [brace]) = none := by
      by_contra matched
      obtain ⟨found, foundEq⟩ := Option.ne_none_iff_exists'.mp matched
      apply early
      rw [ReachesMatch, closingBrace?_append, bodyEq, foundEq]
      apply region_body_bounds region placed
      rw [bodyEq]
      exact (closingBrace?_spec (Int.le_refl 1) foundEq).1
    constructor
    · exact positive_of_closingBrace?_eq_none (Int.le_refl 1) unmatched
    · rw [closingBrace?_append, Option.or_eq_none_iff] at unmatched
      exact unmatched.1
  · rintro ⟨positive, unmatched⟩ reaches
    have lastUnmatched : closingBrace? (1 + balance inner) [brace] = none := by
      have step : brace.kind.braceStep = -1 := by rw [braceEq]; rfl
      rw [closingBrace?, if_neg (by omega)]
      rfl
    rw [ReachesMatch, closingBrace?_append, bodyEq, closingBrace?_append, unmatched,
      lastUnmatched] at reaches
    cases found : closingBrace? (1 + balance (inner ++ [brace])) after with
    | some other =>
        rw [found] at reaches
        have otherBounds :=
          placed.tiles_after.bounds (closingBrace?_spec (by omega) found).1
        have stopBound : other.span.stop ≤ span.stop := reaches
        omega
    | none =>
        rw [found] at reaches
        obtain ⟨token, member, notTrivia⟩ := significant
        have tokenBounds := placed.tiles_after.bounds member
        have stopBound : token.span.stop ≤ span.stop :=
          reaches token (List.mem_append_right _ member) notTrivia
        omega

end Regions

/-- A markup block whose region was opened has the parts of a region. -/
theorem Reading.region_at {text : Text} {window : Span} {limits : Limits} {tokens : List Token}
    {rootParts : List Outline} {parsed : Parsed}
    (reading : Reading text window limits tokens rootParts parsed) (unguarded : parsed.trips = [])
    {path : List Nat} {span : Span} {children : List Tree} {opening : Token}
    (reached : parsed.tree.at? path = some (.node .templateBlock span children))
    (opened : regionOpening? children = some opening) :
    ∃ before after parts head body,
      Grammar.RegionParts after parts head opening body ∧
        Outline.Placement window.start tokens window.stop parts span children before after := by
  have below : path ≠ [] := by
    rintro rfl
    rw [reading.tree_eq] at reached
    cases reached
  obtain ⟨levels, parts, before, after, _, origin, placed⟩ := reading.node_at below reached
  rw [unguarded] at origin
  have kinds : ∀ token ∈ after, Lexeme.IsTokenKind token.kind := fun token member =>
    reading.token_kinds token (by rw [placed.tokens_eq]; simp [member])
  rcases origin.block kinds with ⟨first, later, partsEq, noRegion⟩ | ⟨head, found, body, region⟩
  · rw [placed.children_eq, partsEq] at opened
    rcases noRegion with kindEq | ⟨kindEq, rfl⟩
    · have notTrivia : first.isTrivia = false := by rw [Token.isTrivia, kindEq]; rfl
      simp [Outline.measureAll, Outline.measure, regionOpening?,
        Tree.significant_leaf_cons notTrivia, kindEq] at opened
    · have notTrivia : first.isTrivia = false := by rw [Token.isTrivia, kindEq]; rfl
      simp [Outline.measureAll, Outline.measure, regionOpening?,
        Tree.significant_leaf_cons notTrivia, kindEq] at opened
  · obtain ⟨seam, measured⟩ := measureAll_map_leaf (head ++ [found]) body span.start
    rw [placed.children_eq, region.parts_eq, measured, region.opens.regionOpening?_eq] at opened
    cases opened
    exact ⟨before, after, parts, head, body, region, placed⟩

/-- Without a met ceiling, the block of an opened region ends before its
matching brace in exactly these cases: a significant token follows the block,
the statements in the block hold more opening braces than closing ones, and the
count over all tokens does not come to zero before the last brace of the
block. -/
theorem ends_before_match_iff {text : Text} {window : Span} {limits : Limits}
    {tokens : List Token} {parsed : Parsed} (admitted : text.Admits window)
    (tokenized : tokenize text window = .ok tokens)
    (parsedEq : parse text window limits = .ok parsed) (unguarded : parsed.trips = [])
    (path : List Nat) {span : Span} {children : List Tree} {opening : Token}
    (reached : parsed.tree.at? path = some (.node .templateBlock span children))
    (opened : regionOpening? children = some opening) :
    ¬ ReachesMatch (tokens.filter fun token => opening.span.stop ≤ token.span.start) span.stop ↔
      (∃ token ∈ tokens, token.isTrivia = false ∧ span.stop ≤ token.span.start) ∧
        0 < balance (Tree.frontierAll (children.filter Tree.isNode)) ∧
        closingBrace? 1 (tokens.filter fun token =>
          opening.span.stop ≤ token.span.start ∧ token.span.stop < span.stop) = none := by
  obtain ⟨_, rootParts, _, reading⟩ := exists_reading limits admitted
  cases tokenized.symm.trans reading.tokenized
  cases parsedEq.symm.trans reading.parsed_eq
  obtain ⟨before, after, parts, head, body, region, placed⟩ :=
    reading.region_at unguarded reached opened
  have behind := region_behind region placed reading.tiled
  have follows : (∃ token ∈ tokens, token.isTrivia = false ∧ span.stop ≤ token.span.start) ↔
      ∃ token ∈ after, token.isTrivia = false := by
    constructor
    · rintro ⟨token, member, notTrivia, stopLe⟩
      exact ⟨token, placed.mem_after_of_stop_le member stopLe, notTrivia⟩
    · rintro ⟨token, member, notTrivia⟩
      refine ⟨token, ?_, notTrivia, (placed.tiles_after.bounds member).1⟩
      rw [placed.tokens_eq]
      simp [member]
  rw [follows, behind]
  by_cases significant : ∃ token ∈ after, token.isTrivia = false
  · obtain ⟨inner, brace, bodyEq, braceEq, count⟩ := region_count region placed significant
    have between := region_between region placed reading.tiled bodyEq
    rw [region_ends_early_iff region placed bodyEq braceEq significant, between, count]
    exact (and_iff_right significant).symm
  · have trivia : ∀ token ∈ after, token.isTrivia = true := by simpa using significant
    apply iff_of_false
    · exact not_not.mpr (region_reaches_of_trivia region placed trivia)
    · intro both
      exact significant both.1

/-- A block of a brace pair between two others ends with its own brace. -/
theorem ends_before_match_of_nested_braces :
    ∃ tokens parsed span children opening,
      tokenize "@code\x7b\x7b\x7d\x7d\x7d".toList ⟨0, 10⟩ = .ok tokens ∧
      parse "@code\x7b\x7b\x7d\x7d\x7d".toList ⟨0, 10⟩ .standard = .ok parsed ∧ parsed.trips = [] ∧
      parsed.tree.at? [0] = some (.node .templateBlock span children) ∧
      regionOpening? children = some opening ∧
      (¬ ReachesMatch (tokens.filter fun token => opening.span.stop ≤ token.span.start) span.stop ↔
        (∃ token ∈ tokens, token.isTrivia = false ∧ span.stop ≤ token.span.start) ∧
          0 < balance (Tree.frontierAll (children.filter Tree.isNode)) ∧
          closingBrace? 1 (tokens.filter fun token =>
            opening.span.stop ≤ token.span.start ∧ token.span.stop < span.stop) = none) := by
  have tokenized : tokenize "@code\x7b\x7b\x7d\x7d\x7d".toList ⟨0, 10⟩ = .ok
      [⟨.markupCode, ⟨0, 6⟩⟩, ⟨.leftBrace, ⟨6, 7⟩⟩, ⟨.rightBrace, ⟨7, 8⟩⟩,
        ⟨.rightBrace, ⟨8, 9⟩⟩, ⟨.rightBrace, ⟨9, 10⟩⟩] := by cbv
  have parsedEq : parse "@code\x7b\x7b\x7d\x7d\x7d".toList ⟨0, 10⟩ .standard = .ok
      ⟨.node .root ⟨0, 10⟩
        [.node .templateBlock ⟨0, 9⟩
          [.leaf ⟨.markupCode, ⟨0, 6⟩⟩, .leaf ⟨.leftBrace, ⟨6, 7⟩⟩, .leaf ⟨.rightBrace, ⟨7, 8⟩⟩,
            .leaf ⟨.rightBrace, ⟨8, 9⟩⟩],
          .leaf ⟨.rightBrace, ⟨9, 10⟩⟩], []⟩ := by cbv
  have admitted : Text.Admits "@code\x7b\x7b\x7d\x7d\x7d".toList ⟨0, 10⟩ :=
    Text.admits_whole "@code\x7b\x7b\x7d\x7d\x7d".toList
  exact ⟨_, _, _, _, _, tokenized, parsedEq, rfl, rfl, rfl,
    ends_before_match_iff admitted tokenized parsedEq rfl [0] rfl rfl⟩

/-- A value in braces whose second name is no element of it: the region takes
the brace of the value for its own. -/
theorem region_of_braced_value_ends_early :
    ∃ tokens parsed span children opening,
      tokenize "@code\x7bx=\x7ba b\x7d\x7d".toList ⟨0, 14⟩ = .ok tokens ∧
      parse "@code\x7bx=\x7ba b\x7d\x7d".toList ⟨0, 14⟩ .standard = .ok parsed ∧ parsed.trips = [] ∧
      parsed.tree.at? [0] = some (.node .templateBlock span children) ∧
      regionOpening? children = some opening ∧
      ¬ ReachesMatch (tokens.filter fun token => opening.span.stop ≤ token.span.start)
        span.stop := by
  have tokenized : tokenize "@code\x7bx=\x7ba b\x7d\x7d".toList ⟨0, 14⟩ = .ok
      [⟨.markupCode, ⟨0, 6⟩⟩, ⟨.identifier, ⟨6, 7⟩⟩, ⟨.assign, ⟨7, 8⟩⟩, ⟨.leftBrace, ⟨8, 9⟩⟩,
        ⟨.identifier, ⟨9, 10⟩⟩, ⟨.whitespace, ⟨10, 11⟩⟩, ⟨.identifier, ⟨11, 12⟩⟩,
        ⟨.rightBrace, ⟨12, 13⟩⟩, ⟨.rightBrace, ⟨13, 14⟩⟩] := by cbv
  have parsedEq : parse "@code\x7bx=\x7ba b\x7d\x7d".toList ⟨0, 14⟩ .standard = .ok
      ⟨.node .root ⟨0, 14⟩
        [.node .templateBlock ⟨0, 13⟩
          [.leaf ⟨.markupCode, ⟨0, 6⟩⟩,
            .node .assignment ⟨6, 10⟩
              [.leaf ⟨.identifier, ⟨6, 7⟩⟩, .leaf ⟨.assign, ⟨7, 8⟩⟩,
                .node .expression ⟨8, 10⟩
                  [.leaf ⟨.leftBrace, ⟨8, 9⟩⟩,
                    .node .expression ⟨9, 10⟩ [.leaf ⟨.identifier, ⟨9, 10⟩⟩]]],
            .leaf ⟨.whitespace, ⟨10, 11⟩⟩,
            .node .expression ⟨11, 12⟩ [.leaf ⟨.identifier, ⟨11, 12⟩⟩],
            .leaf ⟨.rightBrace, ⟨12, 13⟩⟩],
          .leaf ⟨.rightBrace, ⟨13, 14⟩⟩], []⟩ := by cbv
  refine ⟨_, _, _, _, _, tokenized, parsedEq, rfl, rfl, rfl, ?_⟩
  show ¬ (14 ≤ 13)
  decide

end TemplateFrontend
