import TemplateFrontend.Proofs.Grammar.NodeEndings
import TemplateFrontend.Proofs.Parsing
import Mathlib

/-!
Contract: trivia at the edges of nodes.

Owns:
- `Origin.ending`, the ending of a node as its parts and the tokens after it
  show it;
- `trivia_at_edges_iff`: below the root no node begins with trivia, and it ends
  with trivia in exactly the cases where the rule of the node went over trivia
  in search of an operand that is not there.
-/

namespace TemplateFrontend

open Outline (frontierAll)

/-! ## The ending of a node -/

theorem Draft.Clean.last_significant {draft : Draft} (clean : draft.Clean) {last : Outline}
    (lastEq : draft.placed.reverse.getLast? = some last) : last.isTriviaLeaf = false :=
  clean last (by rwa [List.getLast?_reverse] at lastEq)

/-- How a node ends: with `levels` levels left inside it, trivia comes last only
in a node that awaits an operand before a significant token, and then no trivia
is left between the two. -/
structure Ending (limits : Limits) (levels : Nat) (after : List Token) (kind : Kind)
    (parts : List Outline) : Prop where
  of_trivia : ∀ last, parts.getLast? = some last → last.isTriviaLeaf = true →
    0 < levels ∧ Grammar.awaitsOperand limits kind (Outline.marks parts) = true ∧
      ∃ token ∈ after, token.isTrivia = false
  of_awaits : 0 < levels → Grammar.awaitsOperand limits kind (Outline.marks parts) = true →
    (∃ token ∈ after, token.isTrivia = false) →
    (∀ token ∈ after, Lexeme.IsTokenKind token.kind) →
    ∃ next later, after = next :: later ∧ next.isTrivia = false

/-- A node that is left clean ends as one that awaits nothing. -/
theorem ending_of_clean {limits : Limits} {levels : Nat} {after : List Token} {kind : Kind}
    {inside : Draft} (clean : inside.Clean)
    (notAwaited : 0 < levels →
      Grammar.awaitsOperand limits kind (Outline.marks inside.placed.reverse) = false) :
    Ending limits levels after kind inside.placed.reverse where
  of_trivia last lastEq trivia := by
    rw [clean.last_significant lastEq] at trivia
    cases trivia
  of_awaits levelLeft awaits := by
    rw [notAwaited levelLeft] at awaits
    cases awaits

/-- A node that is left waiting has gone over the trivia after it. -/
theorem ending_of_waiting {limits : Limits} {nested : Grammar.StatementRule} {levels : Nat}
    {kind : Kind} {inside : Draft} (waiting : inside.Waiting nested) (levelLeft : 0 < levels)
    (awaits : Grammar.awaitsOperand limits kind (Outline.marks inside.placed.reverse) = true) :
    Ending limits levels inside.rest kind inside.placed.reverse where
  of_trivia last lastEq trivia := by
    refine ⟨levelLeft, awaits, ?_⟩
    cases isEnd : inside.atEnd with
    | true =>
        rw [(waiting.clean isEnd).last_significant lastEq] at trivia
        cases trivia
    | false =>
        obtain ⟨token, later, next⟩ := Draft.exists_nextIs isEnd
        exact ⟨token, by rw [next.rest_eq]; simp, next.significant⟩
  of_awaits _ _ significant kinds := by
    have notEnd := Draft.atEnd_eq_false_of_mem significant kinds
    obtain ⟨token, later, next⟩ := Draft.exists_nextIs notEnd
    have restEq := next.rest_eq
    rw [show inside.leading = [] from waiting.settled notEnd] at restEq
    exact ⟨token, later, restEq, next.significant⟩

theorem Grammar.Origin.ending {limits : Limits} {trips : List Trip} {levels : Nat}
    {after : List Token} {kind : Kind} {parts : List Outline}
    (origin : Grammar.Origin limits trips levels after kind parts) :
    Ending limits levels after kind parts := by
  obtain ⟨draft, result, answer, placedEq, rfl, _⟩ := origin
  cases levels with
  | zero =>
      obtain ⟨_, inside, rfl, clean⟩ := Grammar.ceiling_ending limits answer
      cases placedEq
      exact ending_of_clean clean nofun
  | succ levels =>
      obtain ⟨_, inside, rfl, ends⟩ := Grammar.statementAt_ending limits
        (Grammar.regular_statement limits levels) draft result answer
      cases placedEq
      rw [Draft.marks, ← Outline.marks_reverse] at ends
      rcases ends with ⟨awaited, waiting⟩ | ⟨notAwaited, clean⟩
      · exact ending_of_waiting waiting levels.succ_pos awaited
      · exact ending_of_clean clean fun _ => notAwaited

/-! ## The edges of the children -/

/-- Tokens that tile a stretch are told apart by where they start. -/
theorem Tiles.eq_of_start_eq {start stop : Nat} {tokens : List Token}
    (tiled : Tiles start tokens stop) {left right : Token} (leftMember : left ∈ tokens)
    (rightMember : right ∈ tokens) (sameStart : left.span.start = right.span.start) :
    left = right := by
  induction tokens generalizing start with
  | nil => cases leftMember
  | cons token later inductionHypothesis =>
      obtain ⟨startEq, positive, tiledLater⟩ := tiled
      rcases List.mem_cons.mp leftMember with rfl | leftLater <;>
        rcases List.mem_cons.mp rightMember with rfl | rightLater
      · rfl
      · have bound := (tiledLater.bounds rightLater).1
        omega
      · have bound := (tiledLater.bounds leftLater).1
        omega
      · exact inductionHypothesis tiledLater leftLater rightLater

namespace Tree

theorem contiguous_append_iff {start stop : Nat} {left right : List Tree} :
    Contiguous start (left ++ right) stop ↔
      ∃ seam, Contiguous start left seam ∧ Contiguous seam right stop := by
  induction left generalizing start with
  | nil => simp [Contiguous]
  | cons child later inductionHypothesis => simp [Contiguous, inductionHypothesis, and_assoc]

/-- A row is cut behind its last significant child. -/
theorem exists_trailing {children : List Tree} {last : Tree}
    (lastEq : (significant children).getLast? = some last) :
    ∃ kept trailing, children = kept ++ last :: trailing ∧ last.isTriviaLeaf = false ∧
      ∀ child ∈ trailing, child.isTriviaLeaf = true := by
  obtain ⟨front, significantEq⟩ := List.getLast?_eq_some_iff.mp lastEq
  obtain ⟨kept, rest, rfl, _, restEq⟩ := List.filter_eq_append_iff.mp significantEq
  obtain ⟨skipped, trailing, rfl, _, lastSignificant, trailingEq⟩ :=
    List.filter_eq_cons_iff.mp restEq
  refine ⟨kept ++ skipped, trailing, by simp, by simpa using lastSignificant, ?_⟩
  simpa using trailingEq

/-- Behind the last significant child come only tokens of trivia, the first of
them right behind it. -/
theorem trailing_cases {start stop : Nat} {children : List Tree} {last : Tree}
    (contiguous : Contiguous start children stop)
    (lastEq : (significant children).getLast? = some last) :
    (children.getLast? = some last ∧ last.isTriviaLeaf = false ∧ last.span.stop = stop) ∨
      ∃ token final, .leaf token ∈ children ∧ token.isTrivia = true ∧
        token.span.start = last.span.stop ∧ children.getLast? = some final ∧
        final.isTriviaLeaf = true := by
  obtain ⟨kept, trailing, rfl, lastSignificant, trivia⟩ := exists_trailing lastEq
  obtain ⟨seam, _, _, trailingContiguous⟩ := contiguous_append_iff.mp contiguous
  cases trailing with
  | nil => exact Or.inl ⟨by simp, lastSignificant, trailingContiguous⟩
  | cons first later =>
      have firstTrivia := trivia first (List.mem_cons_self ..)
      cases first with
      | node kind span children => cases firstTrivia
      | leaf token =>
          have final := List.getLast?_eq_some_getLast (List.cons_ne_nil (leaf token) later)
          refine Or.inr ⟨token, _, by simp, firstTrivia, trailingContiguous.1, ?_,
            trivia _ (List.getLast_mem (List.cons_ne_nil (leaf token) later))⟩
          rw [List.getLast?_append_cons, List.getLast?_cons_cons, final]

theorem mem_frontierAll_of_leaf_mem {children : List Tree} {token : Token}
    (member : .leaf token ∈ children) : token ∈ frontierAll children := by
  obtain ⟨before, after, rfl⟩ := List.append_of_mem member
  induction before with
  | nil => simp [frontierAll, frontier]
  | cons child later inductionHypothesis =>
      simp only [List.cons_append, frontierAll]
      exact List.mem_append_right _ (inductionHypothesis (by simp))

end Tree

theorem Outline.exists_of_getLast?_measureAll {parts : List Outline} {offset : Nat} {last : Tree}
    (lastEq : (measureAll offset parts).getLast? = some last) :
    ∃ part, parts.getLast? = some part ∧ part.isTriviaLeaf = last.isTriviaLeaf := by
  induction parts generalizing offset with
  | nil => cases lastEq
  | cons part later inductionHypothesis =>
      cases later with
      | nil =>
          cases lastEq
          exact ⟨part, rfl, (part.isTriviaLeaf_measure offset).symm⟩
      | cons next others =>
          rw [List.getLast?_cons_cons]
          exact inductionHypothesis lastEq

/-- Trivia begins at an offset, and a significant token comes after it. -/
def TriviaBetween (tokens : List Token) (offset : Nat) : Prop :=
  (∃ token ∈ tokens, token.isTrivia = true ∧ token.span.start = offset) ∧
    ∃ token ∈ tokens, token.isTrivia = false ∧ offset ≤ token.span.start

section Edges

variable {limits : Limits} {levels start stop : Nat} {tokens before after : List Token}
  {kind : Kind} {parts : List Outline} {span : Span} {children : List Tree}
  (ending : Ending limits levels after kind parts)
  (placed : Outline.Placement start tokens stop parts span children before after)

include placed ending

/-- Trivia stands last in a node if and only if the node awaits an operand and
trivia lies between it and the next significant token. -/
theorem ends_with_trivia_iff (tiled : Tiles start tokens stop)
    (kinds : ∀ token ∈ tokens, Lexeme.IsTokenKind token.kind) {last : Tree}
    (lastEq : (Tree.significant children).getLast? = some last) :
    (∃ final, children.getLast? = some final ∧ final.isTriviaLeaf = true) ↔
      0 < levels ∧ Grammar.awaitsOperand limits kind (Tree.marks children) = true ∧
        TriviaBetween tokens last.span.stop := by
  have marksEq : Tree.marks children = Outline.marks parts := by
    rw [placed.children_eq, Outline.marks_measureAll]
  have contiguous : Tree.Contiguous span.start children span.stop := by
    rw [placed.children_eq]
    exact Outline.contiguous_measureAll parts _ _ placed.tiles_inside
  have leafMember : ∀ {token : Token}, .leaf token ∈ children → token ∈ frontierAll parts := by
    intro token member
    rw [← Outline.frontierAll_measureAll parts span.start, ← placed.children_eq]
    exact Tree.mem_frontierAll_of_leaf_mem member
  rw [marksEq]
  constructor
  · rintro ⟨final, finalEq, trivia⟩
    have lastChild := finalEq
    rw [placed.children_eq] at lastChild
    obtain ⟨part, partEq, samePart⟩ := Outline.exists_of_getLast?_measureAll lastChild
    obtain ⟨levelLeft, awaits, later, laterMember, significant⟩ :=
      ending.of_trivia part partEq (samePart.trans trivia)
    refine ⟨levelLeft, awaits, ?_⟩
    rcases Tree.trailing_cases contiguous lastEq with
      ⟨finalEq', lastSignificant, _⟩ | ⟨token, _, member, tokenTrivia, startEq, _⟩
    · rw [finalEq] at finalEq'
      cases finalEq'
      rw [trivia] at lastSignificant
      cases lastSignificant
    · have tokenBounds := placed.tiles_inside.bounds (leafMember member)
      have laterBounds := placed.tiles_after.bounds laterMember
      refine ⟨⟨token, ?_, tokenTrivia, startEq⟩, later, ?_, significant, by omega⟩
      · rw [placed.tokens_eq]
        simp [leafMember member]
      · rw [placed.tokens_eq]
        simp [laterMember]
  · rintro ⟨levelLeft, awaits, ⟨gap, gapMember, gapTrivia, gapStart⟩, later, laterMember,
      significant, laterStart⟩
    rcases Tree.trailing_cases contiguous lastEq with
      ⟨_, _, stopEq⟩ | ⟨_, final, _, _, _, finalEq, trivia⟩
    · -- The next token would be significant and start where the trivia does.
      rw [stopEq] at gapStart laterStart
      obtain ⟨next, others, rfl, nextSignificant⟩ := ending.of_awaits levelLeft awaits
        ⟨later, placed.mem_after_of_stop_le laterMember laterStart, significant⟩
        (fun token member => kinds token (by rw [placed.tokens_eq]; simp [member]))
      have nextMember : next ∈ tokens := by
        rw [placed.tokens_eq]
        simp
      have nextStart : next.span.start = span.stop := placed.tiles_after.1
      rw [tiled.eq_of_start_eq gapMember nextMember (gapStart.trans nextStart.symm),
        nextSignificant] at gapTrivia
      cases gapTrivia
    · exact ⟨final, finalEq, trivia⟩

end Edges

/-- Below the root no node begins with trivia. A node ends with trivia in
exactly these cases: a level of nesting is left inside it, its children await
an operand, and trivia lies between its last significant child and a later
significant token. -/
theorem trivia_at_edges_iff (text : Text) (window : Span) (limits : Limits)
    (admitted : text.Admits window) :
    ∃ tokens parsed, tokenize text window = .ok tokens ∧ parse text window limits = .ok parsed ∧
      ∀ path kind span children, path ≠ [] →
        parsed.tree.at? path = some (.node kind span children) →
        (∃ first, children.head? = some first ∧ first.isTriviaLeaf = false) ∧
        ∃ last, (Tree.significant children).getLast? = some last ∧
          ((∃ final, children.getLast? = some final ∧ final.isTriviaLeaf = true) ↔
            path.length < limits.depth ∧
              Grammar.awaitsOperand limits kind (Tree.marks children) = true ∧
              TriviaBetween tokens last.span.stop) := by
  obtain ⟨tokens, parts, parsed, reading⟩ := exists_reading limits admitted
  refine ⟨tokens, parsed, reading.tokenized, reading.parsed_eq, ?_⟩
  intro path kind span children below reached
  obtain ⟨levels, inner, before, after, levelsEq, origin, placed⟩ := reading.node_at below reached
  obtain ⟨_, token, later, innerEq, significant⟩ := origin.begins
  have childrenEq := placed.children_eq
  rw [innerEq, Outline.measureAll, Outline.measure] at childrenEq
  have significantFirst : (Tree.leaf token).isTriviaLeaf = false := significant
  constructor
  · exact ⟨_, by rw [childrenEq]; rfl, significantFirst⟩
  · cases lastEq : (Tree.significant children).getLast? with
    | none =>
        rw [List.getLast?_eq_none_iff, childrenEq, Tree.significant,
          List.filter_cons_of_pos (by simp [significantFirst])] at lastEq
        cases lastEq
    | some last =>
        refine ⟨last, rfl, ?_⟩
        rw [show path.length < limits.depth ↔ 0 < levels by omega]
        exact ends_with_trivia_iff origin.ending placed reading.tiled reading.token_kinds lastEq

/-- The edges of all nodes of a text with a missing operand. -/
theorem trivia_at_edges_of_missing_operand :
    Text.Admits "return )".toList ⟨0, 8⟩ ∧
      ∃ tokens parsed, tokenize "return )".toList ⟨0, 8⟩ = .ok tokens ∧
        parse "return )".toList ⟨0, 8⟩ .standard = .ok parsed ∧
        ∀ path kind span children, path ≠ [] →
          parsed.tree.at? path = some (.node kind span children) →
          (∃ first, children.head? = some first ∧ first.isTriviaLeaf = false) ∧
          ∃ last, (Tree.significant children).getLast? = some last ∧
            ((∃ final, children.getLast? = some final ∧ final.isTriviaLeaf = true) ↔
              path.length < Limits.standard.depth ∧
                Grammar.awaitsOperand .standard kind (Tree.marks children) = true ∧
                TriviaBetween tokens last.span.stop) := by
  have admitted : Text.Admits "return )".toList ⟨0, 8⟩ := Text.admits_whole "return )".toList
  exact ⟨admitted, trivia_at_edges_iff _ _ _ admitted⟩

/-- The blank before the parenthesis stands last in the statement that found no
operand there. -/
theorem blank_ends_return_statement :
    ∃ parsed span children, parse "return )".toList ⟨0, 8⟩ .standard = .ok parsed ∧
      parsed.tree.at? [0] = some (.node .returnStmt span children) ∧
      children.getLast? = some (.leaf ⟨.whitespace, ⟨6, 7⟩⟩) := by
  have parsedEq : parse "return )".toList ⟨0, 8⟩ .standard =
      .ok ⟨.node .root ⟨0, 8⟩
        [.node .returnStmt ⟨0, 7⟩ [.leaf ⟨.returnKeyword, ⟨0, 6⟩⟩, .leaf ⟨.whitespace, ⟨6, 7⟩⟩],
          .leaf ⟨.rightParen, ⟨7, 8⟩⟩], []⟩ := by cbv
  exact ⟨_, _, _, parsedEq, rfl, rfl⟩

end TemplateFrontend
