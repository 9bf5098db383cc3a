import TemplateFrontend.Proofs.Grammar.Answers
import TemplateFrontend.Proofs.Grammar.Recognition.Expressions
import TemplateFrontend.Proofs.Grammar.Turns
import TemplateFrontend.Proofs.Tree.Numbering

/-!
Contract: turns of the top level before a chain of operators.

Owns:
- `Links` and `FlatChain`, atoms with binary operators between them;
- `Lays`, a draft that has moved on by tokens only;
- `topLevelTurn_last`, `topLevelTurn_cut` and `topLevelTurn_operator`, the three turns that
  a top level takes before such a chain.
-/

namespace TemplateFrontend

open Token (significant)

namespace Grammar

/-! ## Chains -/

/-- A number of binary operators, each with an atom behind it. -/
inductive Links : Nat → List Token → Prop
  | none : Links 0 []
  | link {operators : Nat} {operator atom : Token} {later : List Token}
      (isOperator : binaryOperators.contains operator.kind = true)
      (isAtom : atoms.contains atom.kind = true) (others : Links operators later) :
      Links (operators + 1) (operator :: atom :: later)

/-- One atom more than there are operators, and the operators between them. -/
inductive FlatChain (operators : Nat) : List Token → Prop
  | chain {atom : Token} {later : List Token} (isAtom : atoms.contains atom.kind = true)
      (links : Links operators later) : FlatChain operators (atom :: later)

namespace Links

theorem append {left right : Nat} {front back : List Token} (links : Links left front)
    (others : Links right back) : Links (left + right) (front ++ back) := by
  induction links with
  | none =>
      rw [Nat.zero_add]
      exact others
  | link isOperator isAtom _ inductionHypothesis =>
      rw [Nat.add_right_comm]
      exact .link isOperator isAtom inductionHypothesis

theorem exists_split {left right : Nat} {tokens : List Token}
    (links : Links (left + right) tokens) :
    ∃ front back, tokens = front ++ back ∧ Links left front ∧ Links right back := by
  induction left generalizing tokens with
  | zero => exact ⟨[], tokens, rfl, .none, by rwa [Nat.zero_add] at links⟩
  | succ left inductionHypothesis =>
      rw [Nat.add_right_comm] at links
      cases links with
      | link isOperator isAtom others =>
          obtain ⟨front, back, rfl, frontLinks, backLinks⟩ := inductionHypothesis others
          exact ⟨_, back, rfl, .link isOperator isAtom frontLinks, backLinks⟩

end Links

/-- A chain with more operators is a shorter one, an operator, and the rest. -/
theorem FlatChain.exists_split {left right : Nat} {tokens : List Token}
    (flat : FlatChain (left + 1 + right) tokens) :
    ∃ piece operator later, tokens = piece ++ operator :: later ∧ FlatChain left piece ∧
      binaryOperators.contains operator.kind = true ∧ FlatChain right later := by
  cases flat with
  | chain isAtom links =>
      rw [Nat.add_assoc, Nat.add_comm 1] at links
      obtain ⟨front, _, rfl, frontLinks, backLinks⟩ := links.exists_split
      cases backLinks with
      | link isOperator isAtom' others =>
          exact ⟨_, _, _, rfl, .chain isAtom frontLinks, isOperator, .chain isAtom' others⟩

end Grammar

/-! ## Tokens that are left -/

namespace Draft

/-- The significant tokens that are left. -/
def remaining (draft : Draft) : List Token := significant draft.rest

theorem NextIs.remaining_eq {draft : Draft} {token : Token} {later : List Token}
    (next : draft.NextIs token later) : draft.remaining = token :: Token.significant later := by
  rw [remaining, next.rest_eq, Token.significant_append, Token.significant_cons next.significant,
    Token.significant, draft.pending_leading]
  rfl

variable {draft : Draft} {token : Token} {others : List Token}

theorem exists_nextIs_of_remaining (remainingEq : draft.remaining = token :: others) :
    ∃ later, draft.NextIs token later ∧ significant later = others := by
  rcases draft.next_cases with empty | ⟨found, later, next⟩
  · have nothing : draft.remaining.map Token.kind = [] := pending_of_settle_rest_nil empty
    rw [remainingEq] at nothing
    cases nothing
  · cases remainingEq.symm.trans next.remaining_eq
    exact ⟨later, next, rfl⟩

theorem kind_of_remaining (remainingEq : draft.remaining = token :: others) :
    draft.kind = token.kind :=
  let ⟨_, next, _⟩ := exists_nextIs_of_remaining remainingEq
  next.kind_eq

theorem kind_of_remaining_nil (nothing : draft.remaining = []) : draft.kind = .endOfInput := by
  have pendingEq : draft.pending = [] := congrArg (List.map Token.kind) nothing
  rw [draft.kind_eq_head?, pendingEq]
  rfl

theorem remaining_opened (draft : Draft) : draft.opened.remaining = draft.remaining := by
  rw [remaining, remaining, ← draft.leading_append_settle_rest, Token.significant_append,
    show significant draft.leading = [] from draft.pending_leading]
  rfl

end Draft

namespace Grammar

/-! ## Tokens that are placed as they are -/

/-- `after` is `draft` moved on by `tokens`, every one of them a part of its own. -/
structure Lays (tokens : List Token) (draft after : Draft) : Prop where
  placed_eq : after.placed = Draft.leaves tokens ++ draft.placed
  rest_eq : draft.rest = tokens ++ after.rest
  trips_eq : after.trips = draft.trips

namespace Lays

theorem refl (draft : Draft) : Lays [] draft draft := ⟨rfl, rfl, rfl⟩

theorem trans {front back : List Token} {first second third : Draft}
    (earlier : Lays front first second) (later : Lays back second third) :
    Lays (front ++ back) first third where
  placed_eq := by
    rw [later.placed_eq, earlier.placed_eq]
    simp [Draft.leaves]
  rest_eq := by rw [earlier.rest_eq, later.rest_eq, List.append_assoc]
  trips_eq := later.trips_eq.trans earlier.trips_eq

theorem remaining_eq {tokens : List Token} {draft after : Draft} (lays : Lays tokens draft after) :
    draft.remaining = significant tokens ++ after.remaining := by
  rw [Draft.remaining, lays.rest_eq, Token.significant_append]
  rfl

theorem advance {draft : Draft} {token : Token} {others : List Token}
    (remainingEq : draft.remaining = token :: others) :
    ∃ tokens, Lays tokens draft draft.advance ∧ significant tokens = [token] ∧
      draft.advance.remaining = others := by
  obtain ⟨later, next, laterEq⟩ := Draft.exists_nextIs_of_remaining remainingEq
  refine ⟨draft.leading ++ [token], ⟨?_, ?_, draft.trips_advance⟩, ?_, ?_⟩
  · rw [next.advance_eq]
    simp [Draft.leaves]
  · rw [next.advance_eq, List.append_assoc]
    exact next.rest_eq
  · rw [Token.significant_append, Token.significant_cons next.significant,
      show significant draft.leading = [] from draft.pending_leading]
    rfl
  · rw [Draft.remaining, next.advance_eq]
    exact laterEq

end Lays

/-! ## Operators -/

theorem binaryOperator_facts {kind : Kind} (isOperator : binaryOperators.contains kind = true) :
    kind ≠ .dot ∧ kind ≠ .leftParen ∧ kind ≠ .assign ∧ starts kind = false ∧
      kind ≠ .endOfInput := by
  revert isOperator
  cases kind <;> decide

/-- Behind an atom of a chain comes an operator or nothing. -/
theorem Links.kind_facts {operators : Nat} {draft : Draft}
    (links : Links operators draft.remaining) :
    draft.kind ≠ .dot ∧ draft.kind ≠ .leftParen ∧ draft.kind ≠ .assign := by
  generalize remainingEq : draft.remaining = tokens at links
  cases links with
  | none =>
      rw [Draft.kind_of_remaining_nil remainingEq]
      decide
  | link isOperator =>
      rw [Draft.kind_of_remaining remainingEq]
      obtain ⟨notDot, notParen, notAssign, _⟩ := binaryOperator_facts isOperator
      exact ⟨notDot, notParen, notAssign⟩

theorem primary?_of_atom (limits : Limits) (nested : StatementRule) {draft : Draft}
    (isAtom : atoms.contains draft.kind = true) {operators : Nat}
    (links : Links operators draft.advance.remaining) :
    primary? limits nested draft = some draft.advance := by
  obtain ⟨notDot, notParen, _⟩ := links.kind_facts
  have noProperties : propertyChain limits draft.advance = draft.advance :=
    repeatWhile_of_unwanted (by simpa using notDot) _
  rw [primary?, if_pos isAtom, atomPrimary, noProperties, Draft.take?_eq_none_iff.mpr notParen]

section Turns

variable {limits : Limits} {levels : Nat}

/-- The links that the ceiling allows are taken one by one. -/
theorem operatorLoop_links {left right : Nat} {front back : List Token} (links : Links left front)
    (others : Links right back) (turns : Nat) {draft : Draft}
    (remainingEq : draft.remaining = front ++ back) :
    ∃ tokens after, Lays tokens draft after ∧ significant tokens = front ∧
      operatorLoop limits levels (left + turns) draft = operatorLoop limits levels turns after := by
  induction links generalizing draft with
  | none => exact ⟨[], draft, .refl draft, rfl, by rw [Nat.zero_add]⟩
  | @link operators operator atom later isOperator isAtom laterLinks inductionHypothesis =>
      obtain ⟨operatorTokens, operatorLays, operatorEq, behindOperator⟩ := Lays.advance remainingEq
      obtain ⟨atomTokens, atomLays, atomEq, behindAtom⟩ := Lays.advance behindOperator
      have operand : primary? limits (statement limits levels) draft.advance =
          some draft.advance.advance := by
        have linksBehind : Links (operators + right) draft.advance.advance.remaining :=
          behindAtom ▸ laterLinks.append others
        exact primary?_of_atom _ _ (Draft.kind_of_remaining behindOperator ▸ isAtom) linksBehind
      have turn : operatorTurn limits (statement limits levels) draft =
          .again draft.advance.advance := by
        rw [operatorTurn, operand]
      have loopEq : operatorLoop limits levels (operators + turns + 1) draft =
          operatorLoop limits levels (operators + turns) draft.advance.advance :=
        repeatWhile_of_again (by rw [Draft.kind_of_remaining remainingEq]; exact isOperator) turn _
      obtain ⟨tokens, after, lays, tokensEq, laterEq⟩ := inductionHypothesis behindAtom
      refine ⟨_, after, (operatorLays.trans atomLays).trans lays, ?_, ?_⟩
      · rw [Token.significant_append, Token.significant_append, operatorEq, atomEq, tokensEq]
        rfl
      · rw [Nat.add_right_comm, loopEq, laterEq]

theorem operatorLoop_of_nothing {draft : Draft} (nothing : draft.remaining = []) (turns : Nat) :
    operatorLoop limits levels turns draft = draft := by
  apply repeatWhile_of_unwanted
  rw [Draft.kind_of_remaining_nil nothing]
  decide

/-- A turn before an atom with links behind it: the links that the ceiling allows are taken,
and what the loop makes of the others comes behind them. -/
theorem topLevelTurn_atom (depthEq : limits.depth = levels + 1) {left right turns : Nat}
    {atom : Token} {front back : List Token} (isAtom : atoms.contains atom.kind = true)
    (chainEq : limits.chain = left + turns) (links : Links left front) (others : Links right back)
    {draft : Draft} (remainingEq : draft.remaining = atom :: (front ++ back)) :
    ∃ tokens inside, Lays tokens draft.opened inside ∧ significant tokens = atom :: front ∧
      inside.remaining = back ∧ topLevelTurn limits draft =
        (operatorLoop limits levels turns inside).closed .expression draft.settle.placed := by
  have openedEq : draft.opened.remaining = atom :: (front ++ back) :=
    draft.remaining_opened.trans remainingEq
  obtain ⟨atomTokens, atomLays, atomEq, behindAtom⟩ := Lays.advance openedEq
  have linksBehind : Links (left + right) draft.opened.advance.remaining :=
    behindAtom ▸ links.append others
  have first : primary? limits (statement limits levels) draft.opened =
      some draft.opened.advance :=
    primary?_of_atom _ _ (Draft.kind_of_remaining openedEq ▸ isAtom) linksBehind
  obtain ⟨tokens, inside, lays, tokensEq, loopEq⟩ :=
    @operatorLoop_links limits levels _ _ _ _ links others turns _ behindAtom
  have whole := atomLays.trans lays
  have wholeEq : significant (atomTokens ++ tokens) = atom :: front := by
    rw [Token.significant_append, atomEq, tokensEq]
    rfl
  have opens : opensPrimary draft.kind = true := by
    rw [Draft.kind_of_remaining remainingEq]
    exact opensPrimary_of_atom isAtom
  refine ⟨_, inside, whole, wholeEq, ?_, ?_⟩
  · have insideEq := whole.remaining_eq
    rw [openedEq, wholeEq, List.cons_append] at insideEq
    exact (List.append_cancel_left (List.cons.inj insideEq).2).symm
  · have chain : operatorChain limits (statement limits levels) draft.opened.advance =
        operatorLoop limits levels turns inside := by
      rw [← loopEq, ← chainEq]
      rfl
    have noAssignment := Draft.take?_eq_none_iff.mpr linksBehind.kind_facts.2.2
    rw [topLevelTurn, depthEq, StatementRule.placeOrAdvance, statement,
      statementAt_of_opensPrimary _ opens, expression, first]
    dsimp only
    rw [noAssignment]
    dsimp only
    rw [chain]

/-- The turn before a chain that the ceiling allows. -/
theorem topLevelTurn_last (depthEq : limits.depth = levels + 1) {operators : Nat} {draft : Draft}
    (le : operators ≤ limits.chain) (flat : FlatChain operators draft.remaining) :
    ∃ tokens, significant tokens = draft.remaining ∧
      (topLevelTurn limits draft).placed =
        .node .expression (tokens.map .leaf) :: draft.settle.placed ∧
      (topLevelTurn limits draft).remaining = [] ∧
      (topLevelTurn limits draft).trips = draft.trips := by
  obtain ⟨turns, chainEq⟩ := Nat.exists_eq_add_of_le le
  generalize remainingEq : draft.remaining = wanted at flat
  cases flat with
  | @chain atom later isAtom links =>
      obtain ⟨tokens, inside, lays, tokensEq, nothing, turnEq⟩ :=
        topLevelTurn_atom depthEq isAtom chainEq links .none (by rw [remainingEq, List.append_nil])
      rw [operatorLoop_of_nothing nothing] at turnEq
      refine ⟨tokens, tokensEq, ?_, ?_, ?_⟩ <;> rw [turnEq]
      · simp [Draft.closed, lays.placed_eq, Draft.leaves]
      · exact nothing
      · exact lays.trips_eq

/-- The turn before a chain that the ceiling cuts. -/
theorem topLevelTurn_cut (depthEq : limits.depth = levels + 1) {more : Nat}
    {piece later : List Token} {operator : Token} {draft : Draft}
    (flat : FlatChain limits.chain piece)
    (isOperator : binaryOperators.contains operator.kind = true) (others : FlatChain more later)
    (remainingEq : draft.remaining = piece ++ operator :: later) :
    ∃ tokens, significant tokens = piece ∧
      (topLevelTurn limits draft).placed =
        .node .expression (tokens.map .leaf) :: draft.settle.placed ∧
      (topLevelTurn limits draft).remaining = operator :: later ∧
      (topLevelTurn limits draft).trips =
        ⟨.operatorChain, operator.span.start⟩ :: draft.trips := by
  cases flat with
  | @chain atom front isAtom links =>
      cases others with
      | @chain nextAtom behind nextIsAtom nextLinks =>
          obtain ⟨tokens, inside, lays, tokensEq, insideEq, turnEq⟩ :=
            topLevelTurn_atom depthEq isAtom (Nat.add_zero _).symm links
              (.link isOperator nextIsAtom nextLinks) remainingEq
          have capped : operatorLoop limits levels 0 inside = inside.trip .operatorChain := by
            rw [operatorLoop, repeatWhile, if_pos]
            rw [Draft.kind_of_remaining insideEq]
            exact isOperator
          obtain ⟨_, next, _⟩ := Draft.exists_nextIs_of_remaining insideEq
          rw [capped] at turnEq
          refine ⟨tokens, tokensEq, ?_, ?_, ?_⟩ <;> rw [turnEq]
          · simp [Draft.closed, Draft.trip, lays.placed_eq, Draft.leaves]
          · exact insideEq
          · rw [show draft.trips = inside.trips from lays.trips_eq.symm]
            simp [Draft.closed, Draft.trip, Draft.offset, next.next?_eq]

/-- The turn before an operator. -/
theorem topLevelTurn_operator (depthEq : limits.depth = levels + 1) {operator : Token}
    {later : List Token} {draft : Draft}
    (isOperator : binaryOperators.contains operator.kind = true)
    (remainingEq : draft.remaining = operator :: later) :
    topLevelTurn limits draft = draft.advance := by
  obtain ⟨_, _, _, notStart, notEnd⟩ := binaryOperator_facts isOperator
  have kindEq := Draft.kind_of_remaining remainingEq
  have outcome : (statement limits (levels + 1) draft).1 = .nothing := by
    rw [statement, statementAt_outcome, kindEq, notStart]
    rfl
  have waits := statement_waits outcome
  rw [topLevelTurn, depthEq, StatementRule.placeOrAdvance]
  generalize statement limits (levels + 1) draft = answer at outcome waits
  obtain ⟨_, after⟩ := answer
  cases outcome
  rcases waits with rfl | rfl
  · rfl
  · exact Draft.advance_settle (Draft.atEnd_eq_false_of_kind kindEq notEnd)

end Turns

end Grammar

end TemplateFrontend
