import TemplateFrontend.Proofs.Grammar.Derivation
import TemplateFrontend.Proofs.Grammar.Turns
import Mathlib

/-!
Contract: the ceilings on turns bound what a rule can place in one node.

Owns:
- `within`, the words that weigh no more than a bound, and how the bounds of joined
  words add up;
- `places_within_repeatWhile`: a loop places no more than its turns times what one
  turn places;
- `Limits.branching`, the bound on the child nodes of a node, by its kind;
- `Origin.branching` and `program_branching`, which say that nodes keep to it.

Words of a production are as long as the text allows where a loop repeats them. The
bounds of nodes without such a loop are read off the production, the others off the
rules, turn by turn.
-/

namespace TemplateFrontend

open scoped Computability

/-- The weight that counts the nodes among children. -/
def Mark.nodeWeight : Mark → Nat
  | none => 1
  | some _ => 0

theorem Mark.nodeWeight_le_one (mark : Mark) : nodeWeight mark ≤ 1 := by
  cases mark with
  | none => exact Nat.le_refl 1
  | some kind => exact Nat.zero_le 1

/-- The weight that counts children of all sorts. -/
def Mark.unitWeight : Mark → Nat := fun _ => 1

/-- The most nodes that an element of a list can be: an entry has a key and a value. -/
def Grammar.Listing.size : Grammar.Listing → Nat
  | .arguments | .array | .header => 1
  | .entries => 2

/-- The most nodes that one primary can place. -/
def Limits.primaryNodes (limits : Limits) : Nat := max 1 (2 * limits.iterations)

/-- The most child nodes of a node, by its kind. -/
def Limits.branching (limits : Limits) : Kind → Nat
  | .root => limits.topLevelIterations
  | .templateBlock => limits.regionIterations
  | .forStmt => limits.iterations + 1
  | .ifStmt | .whileStmt => 3
  | .returnStmt | .statement | .functionDef => 1
  | .assignment => limits.primaryNodes + 1
  | .expression => (limits.chain + 1) * limits.primaryNodes
  | _ => 0

namespace Production

/-! ## Weights of words -/

/-- The words that weigh at most `bound`. -/
def within (weight : Mark → Nat) (bound : Nat) : Language Mark :=
  {marks | (marks.map weight).sum ≤ bound}

section Within

variable {weight : Mark → Nat} {front back words : Language Mark} {first second bound : Nat}

theorem within_mono (fits : first ≤ second) : within weight first ≤ within weight second :=
  fun _ member => Nat.le_trans member fits

theorem mul_le_within (frontFits : front ≤ within weight first)
    (backFits : back ≤ within weight second) (total : first + second ≤ bound) :
    front * back ≤ within weight bound := by
  rintro marks ⟨left, leftMember, right, rightMember, rfl⟩
  show ((left ++ right).map weight).sum ≤ bound
  rw [List.map_append, List.sum_append]
  exact (Nat.add_le_add (frontFits leftMember) (backFits rightMember)).trans total

/-- A word without weight in front changes nothing. -/
theorem zero_mul_le_within (frontFits : front ≤ within weight 0)
    (backFits : back ≤ within weight bound) : front * back ≤ within weight bound :=
  mul_le_within frontFits backFits (Nat.le_of_eq (Nat.zero_add bound))

theorem mul_zero_le_within (frontFits : front ≤ within weight bound)
    (backFits : back ≤ within weight 0) : front * back ≤ within weight bound :=
  mul_le_within frontFits backFits (Nat.le_refl bound)

theorem add_le_within (frontFits : front ≤ within weight bound)
    (backFits : back ≤ within weight bound) : front + back ≤ within weight bound := by
  rintro marks (member | member)
  · exact frontFits member
  · exact backFits member

theorem one_le_within : 1 ≤ within weight bound := by
  rintro marks rfl
  exact Nat.zero_le bound

theorem optional_le_within (fits : words ≤ within weight bound) :
    optional words ≤ within weight bound :=
  add_le_within one_le_within fits

theorem singleton_mem_within {mark : Mark} (fits : weight mark ≤ bound) :
    [mark] ∈ within weight bound :=
  fits

theorem tokenOf_le_within {belongs : Kind → Prop} (fits : ∀ kind, weight (some kind) ≤ bound) :
    tokenOf belongs ≤ within weight bound := by
  rintro marks ⟨kind, _, rfl⟩
  exact singleton_mem_within (fits kind)

theorem kstar_le_within_zero (fits : words ≤ within weight 0) : words∗ ≤ within weight 0 :=
  kstar_le_of_mul_le_left one_le_within (mul_zero_le_within le_rfl fits)

end Within

/-! ## Nodes among the words of a production -/

section Nodes

variable (levels : Nat) {belongs : Kind → Prop}

theorem tokens_le_within : tokenOf belongs ≤ within Mark.nodeWeight 0 :=
  tokenOf_le_within fun _ => Nat.le_refl 0

theorem optionalTokens_le_within : optional (tokenOf belongs) ≤ within Mark.nodeWeight 0 :=
  optional_le_within tokens_le_within

theorem filling_le_within : filling levels ≤ within Mark.nodeWeight 1 := by
  unfold filling
  split
  · exact tokens_le_within.trans (within_mono (Nat.zero_le 1))
  · rintro marks rfl
    exact Nat.le_refl 1

theorem slot_le_within : slot levels ≤ within Mark.nodeWeight 1 :=
  optional_le_within (filling_le_within levels)

theorem condition_le_within : condition levels ≤ within Mark.nodeWeight 1 :=
  optional_le_within (mul_zero_le_within
    (zero_mul_le_within tokens_le_within (slot_le_within levels)) optionalTokens_le_within)

theorem properties_le_within : properties ≤ within Mark.nodeWeight 0 :=
  mul_zero_le_within
    (kstar_le_within_zero (mul_zero_le_within tokens_le_within tokens_le_within))
    optionalTokens_le_within

theorem parameters_le_within : parameters ≤ within Mark.nodeWeight 0 :=
  optional_le_within (mul_zero_le_within
    (mul_zero_le_within tokens_le_within (mul_zero_le_within
      (kstar_le_within_zero (mul_zero_le_within tokens_le_within tokens_le_within))
      optionalTokens_le_within))
    optionalTokens_le_within)

theorem element_le_within (listing : Grammar.Listing) :
    element levels listing ≤ within Mark.nodeWeight listing.size := by
  cases listing with
  | entries =>
      exact mul_le_within (slot_le_within levels)
        (optional_le_within (zero_mul_le_within tokens_le_within (slot_le_within levels)))
        (Nat.le_refl 2)
  | arguments => exact slot_le_within levels
  | array => exact slot_le_within levels
  | header => exact slot_le_within levels

theorem item_le_within (listing : Grammar.Listing) :
    item levels listing ≤ within Mark.nodeWeight listing.size :=
  add_le_within (fun _ member => element_le_within levels listing member.1)
    (tokens_le_within.trans (within_mono (Nat.zero_le _)))

/-- The kinds of nodes whose child nodes the production alone bounds. -/
def fixedKinds : List Kind := [.ifStmt, .whileStmt, .returnStmt, .statement, .functionDef]

theorem production_le_within (limits : Limits) {kind : Kind} (isFixed : kind ∈ fixedKinds) :
    production levels kind ≤ within Mark.nodeWeight (limits.branching kind) := by
  have slot := slot_le_within levels
  have condition := condition_le_within levels
  simp only [fixedKinds, List.mem_cons, List.not_mem_nil, or_false] at isFixed
  rcases isFixed with rfl | rfl | rfl | rfl | rfl
  · exact mul_le_within
      (mul_le_within (zero_mul_le_within tokens_le_within condition) slot (Nat.le_refl 2))
      (optional_le_within (zero_mul_le_within tokens_le_within slot)) (Nat.le_refl 3)
  · apply add_le_within
    · exact mul_le_within (zero_mul_le_within tokens_le_within condition) slot (Nat.le_succ 2)
    · exact mul_le_within
        (mul_le_within (zero_mul_le_within tokens_le_within condition) slot (Nat.le_refl 2))
        (optional_le_within
          (zero_mul_le_within (add_le_within tokens_le_within tokens_le_within) condition))
        (Nat.le_refl 3)
  · exact zero_mul_le_within tokens_le_within slot
  · exact zero_mul_le_within tokens_le_within slot
  · exact zero_mul_le_within
      (mul_zero_le_within
        (mul_zero_le_within (add_le_within tokens_le_within tokens_le_within)
          optionalTokens_le_within)
        parameters_le_within)
      slot

end Nodes

end Production

namespace Grammar

open Production

/-! ## Loops -/

/-- One token at most is placed, and nothing at the end. -/
theorem places_advance_within {weight : Mark → Nat} {size : Nat}
    (tokensFit : ∀ kind, weight (some kind) ≤ size) (draft : Draft) :
    Places (within weight size) draft draft.advance := by
  rcases draft.next_cases with empty | ⟨token, later, next⟩
  · rw [Draft.advance_of_settle_rest_nil empty]
    exact ⟨[], Nat.zero_le _, rfl⟩
  · exact ⟨[some token.kind], singleton_mem_within (tokensFit _), next.marks_advance⟩

/-- A loop places no more than its turns times what one turn places. The loop works on
states that hold a draft, in which the ceiling places nothing. -/
theorem places_within_repeatWhile {State : Type} {wanted : State → Bool}
    {turn : State → Turn State} {capped : State → State} {weight : Mark → Nat} {size : Nat}
    (view : State → Draft) (kept : ∀ state, (view (capped state)).marks = (view state).marks)
    (turns : ∀ state, wanted state = true →
      Places (within weight size) (view state) (view (turn state).state))
    (budget : Nat) (state : State) :
    Places (within weight (budget * size)) (view state)
      (view (repeatWhile wanted turn capped budget state)) := by
  have nothing : ∀ {bound : Nat} {draft after : Draft}, after.marks = draft.marks →
      Places (within weight bound) draft after :=
    fun marksEq => ⟨[], Nat.zero_le _, marksEq⟩
  -- By induction on the turns that are left; the turn that ends a loop counts as well.
  induction budget generalizing state with
  | zero =>
      rw [repeatWhile]
      split
      · exact nothing (kept state)
      · exact nothing rfl
  | succ budget inductionHypothesis =>
      by_cases goesOn : wanted state = true
      · have first := turns state goesOn
        cases turnEq : turn state with
        | again next =>
            rw [turnEq] at first
            rw [repeatWhile_of_again goesOn turnEq, Nat.succ_mul, Nat.add_comm]
            exact (first.trans (inductionHypothesis next)).mono
              (mul_le_within le_rfl le_rfl (Nat.le_refl _))
        | done last =>
            rw [turnEq] at first
            rw [repeatWhile_of_done goesOn turnEq]
            exact first.mono (within_mono (Nat.le_mul_of_pos_left size (Nat.succ_pos budget)))
      · rw [repeatWhile_of_unwanted (by simpa using goesOn)]
        exact nothing rfl

/-- What a turn placed, whether or not the loop goes on. -/
theorem TurnPlaces.placed {step last words : Language Mark} {draft : Draft}
    {turn : Turn Draft} (places : TurnPlaces step last draft turn) (stepFits : step ≤ words)
    (lastFits : last ≤ words) : Places words draft turn.state := by
  rcases places with ⟨next, rfl, placed⟩ | ⟨final, rfl, placed⟩
  · exact placed.mono stepFits
  · exact placed.mono lastFits

section Rules

variable {levels : Nat} {nested : StatementRule} (limits : Limits)

theorem places_within_separated (listing : Listing) {elementRule : ElementRule}
    (items : ∀ {draft : Draft}, draft.atEnd = false → draft.kind ≠ listing.closing →
      Places (item levels listing) draft (elementRule.placeOrAdvance draft))
    (draft : Draft) :
    Places (within Mark.nodeWeight (limits.iterations * listing.size)) draft
      (separated limits listing.construct listing.closing listing.separators elementRule
        draft) := by
  have itemFits := item_le_within levels listing
  unfold separated
  refine Places.mono (mul_zero_le_within le_rfl optionalTokens_le_within)
    (Places.trans ?_ (.skip listing.closing_ne_endOfInput _))
  refine places_within_repeatWhile id ?_ ?_ limits.iterations draft
  · exact fun _ => rfl
  · intro current wanted
    exact (places_separatedTurn listing items wanted).placed
      (mul_zero_le_within itemFits tokens_le_within) itemFits

variable (fills : Fills levels nested)

include fills

/-- A list of statements holds one node a turn. -/
theorem Fills.statements_within (listing : Listing) (noEntries : listing ≠ .entries)
    (draft : Draft) :
    Places (within Mark.nodeWeight limits.iterations) draft
      (separated limits listing.construct listing.closing listing.separators
        (statementElement nested) draft) := by
  have single : listing.size = 1 := by
    cases listing with
    | entries => exact absurd rfl noEntries
    | arguments => rfl
    | array => rfl
    | header => rfl
  have elements := places_within_separated limits listing (fills.statement_item noEntries) draft
  rwa [single, Nat.mul_one] at elements

theorem Fills.header_within (draft : Draft) :
    Places (within Mark.nodeWeight limits.iterations) draft (loopHeader limits nested draft) := by
  unfold loopHeader
  split
  · next inside taken =>
      have elements := fills.statements_within limits .header (by decide) inside
      exact (Places.trans (.take? (by decide) taken) elements).mono
        (zero_mul_le_within tokens_le_within le_rfl)
  · exact ⟨[], Nat.zero_le _, rfl⟩

theorem Fills.atom_within {draft : Draft} (isAtom : atoms.contains draft.kind = true) :
    Places (within Mark.nodeWeight limits.iterations) draft (atomPrimary limits nested draft) := by
  have name : Places (tokenIn atoms) draft draft.advance :=
    .advance (Draft.atEnd_eq_false_of_contains isAtom (by decide)) isAtom
  have chain := (name.trans (places_propertyChain limits draft.advance)).mono
    (zero_mul_le_within tokens_le_within properties_le_within)
  unfold atomPrimary
  dsimp only
  split
  · next inside taken =>
      have arguments := fills.statements_within limits .arguments (by decide) inside
      exact (chain.trans (Places.trans (.take? (by decide) taken) arguments)).mono
        (zero_mul_le_within le_rfl (zero_mul_le_within tokens_le_within le_rfl))
  · exact chain.mono (within_mono (Nat.zero_le _))

/-- A parenthesis holds one node even where lists hold none. -/
theorem Fills.primary_within {draft first : Draft}
    (begun : primary? limits nested draft = some first) :
    Places (within Mark.nodeWeight limits.primaryNodes) draft first := by
  have oneFits : 1 ≤ limits.primaryNodes := Nat.le_max_left _ _
  have entriesFit : limits.iterations * 2 ≤ limits.primaryNodes := by
    unfold Limits.primaryNodes
    omega
  have statementsFit : limits.iterations ≤ limits.primaryNodes := by omega
  unfold primary? at begun
  split at begun
  · next isAtom =>
      cases begun
      exact (fills.atom_within limits isAtom).mono (within_mono statementsFit)
  · split at begun
    · next kindEq =>
        cases begun
        have opening : Places (token .leftParen) draft draft.advance :=
          .token (by decide) kindEq
        have inner := (opening.trans (fills.place draft.advance)).mono
          (zero_mul_le_within tokens_le_within (slot_le_within levels))
        have whole : Places (within Mark.nodeWeight 1) draft (parenthesized nested draft) :=
          Places.mono (mul_zero_le_within le_rfl optionalTokens_le_within)
            (inner.trans (.skip (by decide) _))
        exact whole.mono (within_mono oneFits)
    · next kindEq =>
        cases begun
        have entries := places_within_separated limits .entries fills.entry_item draft.advance
        have opening : Places (token .leftBracket) draft draft.advance :=
          .token (by decide) kindEq
        exact (opening.trans entries).mono
          (zero_mul_le_within tokens_le_within (within_mono entriesFit))
    · next kindEq =>
        cases begun
        have elements := fills.statements_within limits .array (by decide) draft.advance
        have opening : Places (token .leftBrace) draft draft.advance :=
          .token (by decide) kindEq
        exact (opening.trans elements).mono
          (zero_mul_le_within tokens_le_within (within_mono statementsFit))
    · cases begun

theorem Fills.operators_within (draft : Draft) :
    Places (within Mark.nodeWeight (limits.chain * limits.primaryNodes)) draft
      (operatorChain limits nested draft) := by
  refine places_within_repeatWhile id ?_ ?_ limits.chain draft
  · exact fun _ => rfl
  · intro current isOperator
    have operator : Places (tokenIn binaryOperators) current current.advance :=
      .advance (Draft.atEnd_eq_false_of_contains isOperator (by decide)) isOperator
    unfold operatorTurn
    dsimp only
    split
    · next next begun =>
        exact (operator.trans (fills.primary_within limits begun)).mono
          (zero_mul_le_within tokens_le_within le_rfl)
    · exact operator.mono (tokens_le_within.trans (within_mono (Nat.zero_le _)))

/-! ## Regions -/

/-- Outside its end a draft moves on by one child. -/
theorem Fills.placeOrAdvance_within {weight : Mark → Nat} (small : ∀ mark, weight mark ≤ 1)
    {draft : Draft} (notEnd : draft.atEnd = false) :
    Places (within weight 1) draft (nested.placeOrAdvance draft) := by
  obtain ⟨mark, marksEq, _⟩ := fills.placeOrAdvance_mark notEnd
  exact ⟨[mark], singleton_mem_within (small mark), marksEq⟩

theorem Fills.region_within {weight : Mark → Nat} (small : ∀ mark, weight mark ≤ 1)
    (draft : Draft) :
    Places (within weight limits.regionIterations) draft (regionBody limits nested draft) := by
  have body : Places (within weight (limits.regionIterations * 1)) draft
      (regionBody limits nested draft) := by
    refine places_within_repeatWhile Region.draft ?_ ?_ limits.regionIterations ⟨1, draft⟩
    · exact fun _ => rfl
    · intro region wanted
      have notEnd : region.draft.atEnd = false := by simpa using wanted
      have brace : Places (within weight 1) region.draft region.draft.advance :=
        ⟨[some region.draft.kind], singleton_mem_within (small _), Draft.marks_advance notEnd⟩
      unfold regionTurn
      split
      · exact brace
      · split <;> exact brace
      · exact fills.placeOrAdvance_within small notEnd
  rwa [Nat.mul_one] at body

/-- A markup block begins with two tokens at most. -/
theorem Fills.templateParts_within {weight : Mark → Nat} {size : Nat}
    (small : ∀ mark, weight mark ≤ 1) (tokensFit : ∀ kind, weight (some kind) ≤ size)
    (draft : Draft) :
    Places (within weight (2 * size + limits.regionIterations)) draft
      (Grammar.templateParts limits nested draft) := by
  have tokens (kind : Kind) : token kind ≤ within weight size := tokenOf_le_within tokensFit
  have region := fills.region_within limits small
  have opener := places_advance_within tokensFit draft
  unfold Grammar.templateParts
  split
  · exact Places.mono (mul_le_within le_rfl (optional_le_within (tokens .rightBrace)) (by omega))
      (opener.trans (.skip (by decide) _))
  · split
    · next inside taken =>
        have sign : Places (within weight (2 * size)) draft inside :=
          Places.mono (mul_le_within le_rfl (tokens .leftBrace) (by omega))
            (opener.trans (.take? (by decide) taken))
        exact (sign.trans (region inside)).mono (mul_le_within le_rfl le_rfl (Nat.le_refl _))
    · exact opener.mono (within_mono (by omega))
  · exact (opener.trans (region draft.advance)).mono (mul_le_within le_rfl le_rfl (by omega))

/-! ## Nodes -/

/-- What the children of a node may be, by its kind: not too many nodes, and for markup
blocks not too many children of any sort. -/
def Branching (limits : Limits) (kind : Kind) (marks : List Mark) : Prop :=
  marks ∈ within Mark.nodeWeight (limits.branching kind) ∧
    (kind = .templateBlock → marks ∈ within Mark.unitWeight (limits.regionIterations + 2))

/-- The node that an answer places keeps to the bounds of its kind, unless the production
alone sees to that. -/
def Branches (limits : Limits) (draft : Draft) (answer : Outcome × Draft) : Prop :=
  ∀ result, answer = (.node, result) → ∃ (kind : Kind) (inside : Draft),
    result = inside.closed kind draft.settle.placed ∧
      (kind ∉ fixedKinds → Branching limits kind inside.marks.reverse)

section Closing

omit fills

variable {limits} {draft inside : Draft} {kind : Kind}

theorem branches_of_fixed (isFixed : kind ∈ fixedKinds) :
    Branches limits draft (.node, inside.closed kind draft.settle.placed) := by
  intro result answer
  cases answer
  exact ⟨kind, inside, rfl, fun notFixed => absurd isFixed notFixed⟩

theorem branches_closed (notTemplate : kind ≠ .templateBlock)
    (placed : Places (within Mark.nodeWeight (limits.branching kind)) draft.opened inside) :
    Branches limits draft (.node, inside.closed kind draft.settle.placed) := by
  intro result answer
  cases answer
  exact ⟨kind, inside, rfl, fun _ =>
    ⟨placed.mem_of_opened, fun isTemplate => absurd isTemplate notTemplate⟩⟩

end Closing

theorem Fills.forLoop_branches (draft : Draft) :
    Branches limits draft (.node, forStatement limits nested draft) := by
  apply branches_closed (by decide)
  have keyword : Places (within Mark.nodeWeight 0) draft.opened draft.opened.advance :=
    places_advance_within (fun _ => Nat.le_refl 0) draft.opened
  have headed := (keyword.trans (fills.header_within limits draft.opened.advance)).mono
    (zero_mul_le_within le_rfl le_rfl)
  exact (headed.trans (fills.place _)).mono
    (mul_le_within le_rfl (slot_le_within levels) (Nat.le_refl _))

theorem Fills.expression_branches (draft : Draft) :
    Branches limits draft (Grammar.expression limits nested draft) := by
  unfold Grammar.expression
  dsimp only
  split
  · exact fun _ => nofun
  · next first begun =>
      have firstPlaced := fills.primary_within limits begun
      split
      · next afterSign taken =>
          apply branches_closed (by decide)
          have target : Places (within Mark.nodeWeight limits.primaryNodes) draft.opened
              afterSign := Places.mono (mul_zero_le_within le_rfl tokens_le_within)
            (firstPlaced.trans (.take? (by decide) taken))
          exact (target.trans (fills.place afterSign)).mono
            (mul_le_within le_rfl (slot_le_within levels) (Nat.le_refl _))
      · apply branches_closed (by decide)
        apply (firstPlaced.trans (fills.operators_within limits first)).mono
        apply mul_le_within le_rfl le_rfl
        rw [Limits.branching, Nat.succ_mul, Nat.add_comm]

theorem Fills.template_branches (draft : Draft) :
    Branches limits draft (.node, templateBlock limits nested draft) := by
  have nodes : Places (within Mark.nodeWeight limits.regionIterations) draft.opened
      (Grammar.templateParts limits nested draft.opened) :=
    (fills.templateParts_within limits Mark.nodeWeight_le_one (fun _ => Nat.le_refl 0)
      draft.opened).mono (within_mono (by omega))
  have all : Places (within Mark.unitWeight (limits.regionIterations + 2)) draft.opened
      (Grammar.templateParts limits nested draft.opened) :=
    (fills.templateParts_within limits (fun _ => Nat.le_refl 1) (fun _ => Nat.le_refl 1)
      draft.opened).mono (within_mono (by omega))
  intro result answer
  cases answer
  exact ⟨.templateBlock, _, rfl, fun _ => ⟨nodes.mem_of_opened, fun _ => all.mem_of_opened⟩⟩

/-- Whatever a statement rule places keeps to the bounds of its kind, unless the
production alone sees to that. -/
theorem statementAt_branches (draft : Draft) :
    Branches limits draft (statementAt limits nested draft) := by
  unfold statementAt
  split
  · exact fun _ => nofun
  · exact branches_of_fixed (by decide)
  · exact fills.forLoop_branches limits draft
  · exact fills.forLoop_branches limits draft
  · exact branches_of_fixed (by decide)
  · exact branches_of_fixed (by decide)
  · exact branches_of_fixed (by decide)
  · exact branches_of_fixed (by decide)
  · exact branches_of_fixed (by decide)
  · exact branches_of_fixed (by decide)
  · exact branches_of_fixed (by decide)
  · exact branches_of_fixed (by decide)
  · exact branches_of_fixed (by decide)
  · exact fills.template_branches limits draft
  · split
    · exact fills.template_branches limits draft
    · exact fills.expression_branches limits draft

end Rules

/-- A node with its origin in a statement rule keeps to the bounds of its kind. -/
theorem Origin.branching {limits : Limits} {trips : List Trip} {levels : Nat}
    {after : List Token} {kind : Kind} {parts : List Outline}
    (origin : Origin limits trips levels after kind parts) :
    Branching limits kind (Outline.marks parts) := by
  by_cases isFixed : kind ∈ fixedKinds
  · refine ⟨production_le_within levels limits isFixed origin.derives, ?_⟩
    rintro rfl
    exact absurd isFixed (by decide)
  · obtain ⟨draft, result, answer, placedEq, _, _⟩ := origin
    obtain ⟨ownKind, inside, rfl, branching⟩ :=
      statementAt_branches limits (fills_statement limits levels) draft result answer
    obtain ⟨rfl, rfl⟩ : ownKind = kind ∧ inside.placed.reverse = parts := by
      simpa [Draft.closed] using placedEq
    rw [Outline.marks_reverse]
    exact branching isFixed

/-! ## Whole programs -/

/-- A turn of the top level places one child. -/
theorem topLevelTurn_within (limits : Limits) {draft : Draft} (notEnd : draft.atEnd = false) :
    Places (within Mark.nodeWeight 1) draft (topLevelTurn limits draft) :=
  (fills_statement limits limits.depth).placeOrAdvance_within Mark.nodeWeight_le_one notEnd

/-- What the top level leaves over is placed as tokens. -/
theorem placeRest_within (draft : Draft) :
    Places (within Mark.nodeWeight 0) draft (placeRest draft) := by
  -- Trivia leaves have no mark, and no token has weight.
  refine ⟨(Outline.marks (Draft.leaves draft.rest)).reverse, ?_, ?_⟩
  · show (List.map _ _).sum ≤ 0
    rw [Nat.le_zero, List.sum_eq_zero_iff]
    intro weight member
    simp only [Outline.marks, Draft.leaves, List.mem_map, List.mem_reverse, List.mem_filter]
      at member
    obtain ⟨_, ⟨_, ⟨⟨token, _, rfl⟩, _⟩, rfl⟩, rfl⟩ := member
    rfl
  · rw [List.reverse_reverse, Draft.marks, Draft.marks, ← Outline.marks_append,
      ← Draft.foldl_leaf]
    rfl

theorem program_branching {limits : Limits} {tokens : List Token} {stop : Nat}
    {parts : List Outline} (outlineEq : (program limits tokens stop).1 = .node .root parts) :
    Branching limits .root (Outline.marks parts) := by
  refine ⟨?_, nofun⟩
  have turns : Places (within Mark.nodeWeight (limits.topLevelIterations * 1))
      (.ofTokens tokens stop) (topLevel limits (.ofTokens tokens stop)) := by
    refine places_within_repeatWhile id ?_ ?_ limits.topLevelIterations _
    · exact fun _ => rfl
    · intro current wanted
      exact topLevelTurn_within limits (by simpa using wanted)
  rw [Nat.mul_one] at turns
  obtain ⟨added, fits, marksEq⟩ := (turns.trans (placeRest_within _)).mono
    (mul_zero_le_within le_rfl le_rfl)
  cases outlineEq
  have unplaced : (Draft.ofTokens tokens stop).marks = [] := rfl
  rw [Outline.marks_reverse, ← Draft.marks, marksEq, unplaced, List.append_nil,
    List.reverse_reverse]
  exact fits

end Grammar

end TemplateFrontend
