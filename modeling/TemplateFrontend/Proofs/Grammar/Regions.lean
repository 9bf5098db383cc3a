import TemplateFrontend.Proofs.Grammar.Origin
import TemplateFrontend.Proofs.Grammar.Waiting

/-!
Contract: the brace count of markup regions.

Owns:
- `braceStep` and `balance`, the count of open braces over tokens;
- `directBalance`, the same over the tokens that stand directly in a node;
- one lemma for each turn of a region, and `regionBody_ending`: without a met
  ceiling a region ends at the end of the input, or with the brace that brings
  the count over its direct tokens to zero.

The count of a region sees its direct tokens alone. Braces inside its statements
are counted by `balance` but not by the region.
-/

namespace TemplateFrontend

/-! ## Counting braces -/

/-- What a token adds to the count of open braces. A markup opener contains a
brace. -/
def Kind.braceStep (kind : Kind) : Int :=
  if kind = .leftBrace ∨ kind.isMarkup = true then 1 else if kind = .rightBrace then -1 else 0

/-- The open braces of a row of tokens less the closed ones. -/
def balance (tokens : List Token) : Int :=
  tokens.foldr (fun token total => token.kind.braceStep + total) 0

@[simp] theorem balance_nil : balance [] = 0 := rfl

@[simp] theorem balance_cons (token : Token) (later : List Token) :
    balance (token :: later) = token.kind.braceStep + balance later :=
  rfl

@[simp] theorem balance_append (left right : List Token) :
    balance (left ++ right) = balance left + balance right := by
  induction left with
  | nil => simp
  | cons token later inductionHypothesis =>
      rw [List.cons_append, balance_cons, balance_cons, inductionHypothesis, Int.add_assoc]

@[simp] theorem balance_reverse (tokens : List Token) :
    balance tokens.reverse = balance tokens := by
  induction tokens with
  | nil => rfl
  | cons token later inductionHypothesis =>
      rw [List.reverse_cons, balance_append, inductionHypothesis, balance_cons, balance_cons,
        balance_nil]
      omega

theorem braceStep_of_isTrivia {kind : Kind} (trivia : kind.isTrivia = true) :
    kind.braceStep = 0 := by
  cases kind <;> first | rfl | cases trivia

theorem balance_of_trivia {tokens : List Token}
    (trivia : ∀ token ∈ tokens, token.isTrivia = true) : balance tokens = 0 := by
  induction tokens with
  | nil => rfl
  | cons token later inductionHypothesis =>
      rw [balance_cons, braceStep_of_isTrivia (trivia token (List.mem_cons_self ..)), Int.zero_add]
      exact inductionHypothesis fun other member => trivia other (List.mem_cons_of_mem _ member)

namespace Outline

def token? : Outline → Option Token
  | .leaf token => some token
  | .node _ _ => none

/-- The tokens that stand directly in a row of parts. -/
def direct (parts : List Outline) : List Token := parts.filterMap token?

@[simp] theorem direct_append (left right : List Outline) :
    direct (left ++ right) = direct left ++ direct right :=
  List.filterMap_append

@[simp] theorem direct_leaf_cons (token : Token) (later : List Outline) :
    direct (.leaf token :: later) = token :: direct later := rfl

@[simp] theorem direct_node_cons (kind : Kind) (parts later : List Outline) :
    direct (.node kind parts :: later) = direct later := rfl

@[simp] theorem direct_map_leaf (tokens : List Token) : direct (tokens.map .leaf) = tokens := by
  simp [direct, List.filterMap_map, Function.comp_def, token?]

@[simp] theorem direct_leaves (tokens : List Token) :
    direct (Draft.leaves tokens) = tokens.reverse := by
  rw [Draft.leaves, ← List.map_reverse, direct_map_leaf]

end Outline

namespace Draft

def directBalance (draft : Draft) : Int := balance (Outline.direct draft.placed)

theorem directBalance_leading (draft : Draft) :
    balance (Outline.direct (leaves draft.leading ++ draft.placed)) = draft.directBalance := by
  simp [directBalance, balance_of_trivia fun _ => isTrivia_of_mem_leading]

theorem directBalance_advance {draft : Draft} (notEnd : draft.atEnd = false) :
    draft.advance.directBalance = draft.kind.braceStep + draft.directBalance := by
  obtain ⟨token, later, next⟩ := exists_nextIs notEnd
  rw [next.kind_eq, ← draft.directBalance_leading, directBalance, next.advance_eq]
  rfl

/-- What was placed last is a closing brace. -/
def EndsInBrace (draft : Draft) : Prop :=
  ∃ brace earlier, draft.placed = .leaf brace :: earlier ∧ brace.kind = .rightBrace

theorem endsInBrace_advance {draft : Draft} (kindEq : draft.kind = .rightBrace) :
    draft.advance.EndsInBrace := by
  obtain ⟨token, later, next⟩ := exists_nextIs (atEnd_eq_false_of_kind kindEq (by decide))
  refine ⟨token, leaves draft.leading ++ draft.placed, by rw [next.advance_eq], ?_⟩
  rw [← next.kind_eq, kindEq]

end Draft

namespace Grammar

/-! ## Statements between the braces -/

/-- Below the ceiling a statement, or the token of noise in its place, leaves
the direct count as it is. -/
theorem placeOrAdvance_directBalance (limits : Limits) (levels : Nat) {draft : Draft}
    (notEnd : draft.atEnd = false) (notLeft : draft.kind ≠ .leftBrace)
    (notRight : draft.kind ≠ .rightBrace) :
    (StatementRule.placeOrAdvance (statement limits (levels + 1)) draft).directBalance =
      draft.directBalance := by
  have regular := regular_statement limits levels
  unfold StatementRule.placeOrAdvance
  rcases regular.answers notEnd with answer | ⟨result, kind, parts, answer, placedEq⟩
  · have notMarkup : ¬ draft.kind.isMarkup = true := by
      intro isMarkup
      have placed := statementAt_of_isMarkup limits (statement limits levels) isMarkup
      rw [show statementAt limits (statement limits levels) draft = _ from answer] at placed
      cases placed
    rw [answer]
    dsimp only
    rw [Draft.directBalance_advance (draft.atEnd_settle.trans notEnd), draft.kind_settle,
      Kind.braceStep, if_neg (by simp [notLeft, notMarkup]), if_neg notRight, Int.zero_add]
    exact draft.directBalance_leading
  · rw [answer]
    dsimp only
    rw [Draft.directBalance, placedEq, Outline.direct_node_cons]
    exact draft.directBalance_leading

theorem placeOrAdvance_ceiling (limits : Limits) (draft : Draft) :
    (StatementRule.placeOrAdvance (statement limits 0) draft).trips ≠ [] := by
  show (draft.trip .recursionDepth).advance.trips ≠ []
  rw [Draft.trips_advance]
  exact List.cons_ne_nil _ _

/-! ## Turns of a region -/

/-- What the direct count of a region exceeds its own count by. -/
def Region.excess (region : Region) : Int := region.draft.directBalance - region.braces

section Regions

variable (limits : Limits) (levels : Nat)

/-- A turn after which the region goes on keeps the two counts together. -/
theorem regionTurn_again {region next : Region} (notEnd : region.draft.atEnd = false)
    (turn : regionTurn (statement limits levels) region = .again next)
    (unguarded : next.draft.trips = []) :
    next.excess = region.excess ∧ (1 ≤ region.braces → 1 ≤ next.braces) := by
  unfold regionTurn at turn
  split at turn
  · next kindEq =>
      cases turn
      have step := Draft.directBalance_advance notEnd
      rw [kindEq, show Kind.braceStep .leftBrace = 1 from rfl] at step
      constructor
      · simp only [Region.excess, step]
        omega
      · intro _
        exact Nat.le_add_left 1 _
  · next kindEq =>
      split at turn
      · cases turn
      · next open_ =>
          cases turn
          have step := Draft.directBalance_advance notEnd
          rw [kindEq, show Kind.braceStep .rightBrace = -1 from rfl] at step
          constructor
          · simp only [Region.excess, step]
            omega
          · intro _
            dsimp only
            omega
  · next notLeft notRight =>
      cases turn
      constructor
      · cases levels with
        | zero => exact absurd unguarded (placeOrAdvance_ceiling limits region.draft)
        | succ levels =>
            simp only [Region.excess,
              placeOrAdvance_directBalance limits levels notEnd notLeft notRight]
      · exact id

/-- The turn that closes a region brings its own count to zero. -/
theorem regionTurn_done {region last : Region} (notEnd : region.draft.atEnd = false)
    (positive : 1 ≤ region.braces)
    (turn : regionTurn (statement limits levels) region = .done last) :
    last.draft.directBalance = region.excess ∧ last.draft.EndsInBrace := by
  unfold regionTurn at turn
  split at turn
  · cases turn
  · next kindEq =>
      split at turn
      · next closes =>
          cases turn
          have step := Draft.directBalance_advance notEnd
          rw [kindEq, show Kind.braceStep .rightBrace = -1 from rfl] at step
          constructor
          · simp only [Region.excess, step]
            omega
          · exact Draft.endsInBrace_advance kindEq
      · cases turn
  · cases turn

theorem regionLoop_trips (budget : Nat) (region : Region) :
    region.draft.trips <:+ (regionLoop (statement limits levels) budget region).draft.trips := by
  obtain ⟨_, added⟩ := grows_of_path (origin_lasting limits)
    (path_regionLoop (statement_grows limits levels) budget region)
  exact added.trips_suffix

/-- By induction on the turns: without a met ceiling the loop ends with the
input, or with a brace that leaves the direct count at what it exceeded its own
count by at first. -/
theorem regionLoop_ending (budget : Nat) {region : Region} (positive : 1 ≤ region.braces)
    (unguarded : (regionLoop (statement limits levels) budget region).draft.trips = []) :
    (regionLoop (statement limits levels) budget region).draft.atEnd = true ∨
      (regionLoop (statement limits levels) budget region).draft.directBalance = region.excess ∧
        (regionLoop (statement limits levels) budget region).draft.EndsInBrace := by
  induction budget generalizing region with
  | zero =>
      rw [regionLoop, repeatWhile] at unguarded ⊢
      split at unguarded
      · cases unguarded
      · next ended =>
          rw [if_neg ended]
          exact Or.inl (by simpa using ended)
  | succ budget inductionHypothesis =>
      rw [regionLoop, repeatWhile] at unguarded ⊢
      split at unguarded
      · next goesOn =>
          have notEnd : region.draft.atEnd = false := by simpa using goesOn
          rw [if_pos goesOn]
          cases turn : regionTurn (statement limits levels) region with
          | again next =>
              rw [turn] at unguarded
              have nextUnguarded : next.draft.trips = [] :=
                List.suffix_nil.mp (unguarded ▸ regionLoop_trips limits levels budget next)
              obtain ⟨excessEq, nextPositive⟩ :=
                regionTurn_again limits levels notEnd turn nextUnguarded
              rw [← excessEq]
              exact inductionHypothesis (nextPositive positive) unguarded
          | done last => exact Or.inr (regionTurn_done limits levels notEnd positive turn)
      · next ended =>
          rw [if_neg ended]
          exact Or.inl (by simpa using ended)

/-- A region whose opening counts for one ends with the input, or with the brace
that brings the count over its direct tokens to zero. -/
theorem regionBody_ending {draft : Draft} (opened : draft.directBalance = 1)
    (unguarded : (regionBody limits (statement limits levels) draft).trips = []) :
    (regionBody limits (statement limits levels) draft).atEnd = true ∨
      (regionBody limits (statement limits levels) draft).directBalance = 0 ∧
        (regionBody limits (statement limits levels) draft).EndsInBrace := by
  have excessEq : Region.excess ⟨1, draft⟩ = 0 := by simp [Region.excess, opened]
  rw [← excessEq]
  exact regionLoop_ending limits levels limits.regionIterations (Nat.le_refl 1) unguarded

end Regions

/-! ## Markup blocks -/

/-- Only the rule for markup blocks places one. -/
theorem statementAt_block {limits : Limits} {nested : StatementRule} {draft result : Draft}
    {parts earlier : List Outline}
    (answer : statementAt limits nested draft = (.node, result))
    (placedEq : result.placed = .node .templateBlock parts :: earlier) :
    (draft.kind = .atSign ∨ draft.kind.isMarkup = true) ∧
      result = (templateParts limits nested draft.opened).closed .templateBlock
        draft.settle.placed := by
  unfold statementAt at answer
  split at answer
  case h_14 kindEq =>
    cases answer
    exact ⟨Or.inl kindEq, rfl⟩
  case h_15 =>
    split at answer
    · next isMarkup =>
        cases answer
        exact ⟨Or.inr isMarkup, rfl⟩
    · unfold expression at answer
      dsimp only at answer
      split at answer
      · cases answer
      · split at answer
        · cases answer
          cases placedEq
        · cases answer
          cases placedEq
  all_goals (cases answer <;> cases placedEq)

/-- The tokens that open a region: a markup opener other than the end marker, or
an at sign, trivia and a brace. The opening token comes after `head`. -/
def OpensRegion (head : List Token) (opening : Token) : Prop :=
  (head = [] ∧ opening.kind.isMarkup = true ∧ opening.kind ≠ .markupEnd) ∨
    ∃ sign gap, head = sign :: gap ∧ sign.kind = .atSign ∧
      (∀ token ∈ gap, token.isTrivia = true) ∧ opening.kind = .leftBrace

theorem OpensRegion.balance_eq {head : List Token} {opening : Token}
    (opens : OpensRegion head opening) : balance (head ++ [opening]) = 1 := by
  rcases opens with ⟨rfl, isMarkup, _⟩ | ⟨sign, gap, rfl, signEq, gapTrivia, openingEq⟩
  · simp [Kind.braceStep, isMarkup]
  · simp [balance_of_trivia gapTrivia, signEq, openingEq, Kind.braceStep]
    decide

theorem OpensRegion.ne_rightBrace {head : List Token} {opening : Token}
    (opens : OpensRegion head opening) : opening.kind ≠ .rightBrace := by
  intro kindEq
  rcases opens with ⟨_, isMarkup, _⟩ | ⟨_, _, _, _, _, openingEq⟩
  · rw [kindEq] at isMarkup
    cases isMarkup
  · rw [kindEq] at openingEq
    cases openingEq

/-- The parts of a markup block with a region: the tokens that open it, then a
body that ends with the input, or with the brace that brings the count over the
direct tokens to zero. -/
structure RegionParts (after : List Token) (parts : List Outline) (head : List Token)
    (opening : Token) (body : List Outline) : Prop where
  parts_eq : parts = (head ++ [opening]).map .leaf ++ body
  opens : OpensRegion head opening
  ending : (∀ token ∈ after, token.isTrivia = true) ∨
    balance (Outline.direct parts) = 0 ∧
      ∃ inner brace, body = inner ++ [.leaf brace] ∧ brace.kind = .rightBrace

theorem regionBody_parts {limits : Limits} {levels : Nat} {inside : Draft} {head : List Token}
    {opening : Token} (placedEq : inside.placed = Draft.leaves (head ++ [opening]))
    (opens : OpensRegion head opening)
    (unguarded : (regionBody limits (statement limits levels) inside).trips = [])
    (kinds : ∀ token ∈ (regionBody limits (statement limits levels) inside).rest,
      Lexeme.IsTokenKind token.kind) :
    ∃ body, RegionParts (regionBody limits (statement limits levels) inside).rest
      (regionBody limits (statement limits levels) inside).placed.reverse head opening body := by
  obtain ⟨body, added⟩ := grows_of_path (origin_lasting limits)
    (path_regionBody limits (statement_grows limits levels) inside)
  have partsEq := congrArg List.reverse added.placed_eq
  simp only [placedEq, Draft.leaves, List.reverse_append, List.reverse_reverse] at partsEq
  refine ⟨body, partsEq, opens, ?_⟩
  have opened : inside.directBalance = 1 := by
    rw [Draft.directBalance, placedEq, Outline.direct_leaves, balance_reverse, opens.balance_eq]
  rcases regionBody_ending limits levels opened unguarded with
    isEnd | ⟨balanceEq, brace, earlier, lastEq, braceEq⟩
  · left
    by_contra significant
    simp only [not_forall, Bool.not_eq_true] at significant
    obtain ⟨token, member, notTrivia⟩ := significant
    rw [Draft.atEnd_eq_false_of_mem ⟨token, member, notTrivia⟩ kinds] at isEnd
    cases isEnd
  · right
    constructor
    · rw [Outline.direct, List.filterMap_reverse, balance_reverse]
      exact balanceEq
    · rw [lastEq, List.reverse_cons] at partsEq
      rcases List.eq_nil_or_concat body with rfl | ⟨inner, last, rfl⟩
      · have sameLast := congrArg List.getLast? partsEq
        simp only [List.map_append, List.map_cons, List.map_nil, List.append_nil,
          List.getLast?_concat] at sameLast
        cases sameLast
        exact absurd braceEq opens.ne_rightBrace
      · rw [List.concat_eq_append, ← List.append_assoc] at partsEq
        cases List.append_inj_right' partsEq rfl
        exact ⟨inner, brace, List.concat_eq_append, braceEq⟩

/-- A markup block without a met ceiling has no region, or the parts of one. -/
theorem Origin.block {limits : Limits} {levels : Nat} {after : List Token} {parts : List Outline}
    (origin : Origin limits [] levels after .templateBlock parts)
    (kinds : ∀ token ∈ after, Lexeme.IsTokenKind token.kind) :
    (∃ first later, parts = .leaf first :: later ∧
      (first.kind = .markupEnd ∨ first.kind = .atSign ∧ later = [])) ∨
    ∃ head opening body, RegionParts after parts head opening body := by
  obtain ⟨draft, result, answer, placedEq, rfl, met⟩ := origin
  obtain ⟨begins, rfl⟩ := statementAt_block answer placedEq
  cases placedEq
  have unguarded := List.suffix_nil.mp met
  have kindOpened := draft.kind_opened
  have notEnd : draft.opened.atEnd = false := by
    apply Draft.atEnd_eq_false_of_kind kindOpened
    intro isEnd
    rcases begins with kindEq | isMarkup
    · rw [kindEq] at isEnd
      cases isEnd
    · rw [isEnd] at isMarkup
      cases isMarkup
  obtain ⟨first, later, next⟩ := Draft.exists_nextIs notEnd
  have advancedPlaced : draft.opened.advance.placed = Draft.leaves [first] := by
    rw [next.advance_eq, show draft.opened.leading = [] from draft.settled_opened]
    rfl
  have firstKind := next.kind_eq
  simp only [Draft.closed] at unguarded kinds ⊢
  revert unguarded kinds
  unfold templateParts
  split
  · next kindEq =>
      intro _ _
      left
      obtain ⟨parts, added⟩ := grows_of_path (origin_lasting limits)
        (Path.skip draft.opened.advance .rightBrace : Path (Grows (Origin limits) levels) _ _)
      refine ⟨first, parts, ?_, Or.inl (firstKind.symm.trans kindEq)⟩
      rw [added.placed_eq, advancedPlaced]
      simp [Draft.leaves]
  · next kindEq =>
      split
      · next inside taken =>
          intro kinds unguarded
          obtain ⟨braceKind, rfl⟩ := Draft.take?_eq_some_iff.mp taken
          obtain ⟨brace, behind, nextBrace⟩ := Draft.exists_nextIs
            (Draft.atEnd_eq_false_of_kind braceKind (by decide))
          have opens : OpensRegion (first :: draft.opened.advance.leading) brace :=
            Or.inr ⟨first, _, rfl, firstKind.symm.trans kindEq,
              fun _ => Draft.isTrivia_of_mem_leading, nextBrace.kind_eq.symm.trans braceKind⟩
          refine Or.inr ⟨_, brace, regionBody_parts ?_ opens unguarded kinds⟩
          rw [nextBrace.advance_eq, advancedPlaced]
          simp [Draft.leaves]
      · intro _ _
        left
        refine ⟨first, [], ?_, Or.inr ⟨firstKind.symm.trans kindEq, rfl⟩⟩
        rw [advancedPlaced]
        rfl
  · next notEndMarker notSign =>
      intro kinds unguarded
      have opens : OpensRegion [] first := by
        left
        refine ⟨rfl, ?_, ?_⟩
        · rw [← firstKind, kindOpened]
          exact begins.resolve_left fun kindEq => notSign (kindOpened.trans kindEq)
        · rw [← firstKind]
          exact notEndMarker
      exact Or.inr ⟨[], first, regionBody_parts advancedPlaced opens unguarded kinds⟩

end Grammar

end TemplateFrontend
