import TemplateFrontend.Proofs.Grammar.Origin
import TemplateFrontend.Proofs.Grammar.Production
import TemplateFrontend.Proofs.Grammar.Regions
import TemplateFrontend.Proofs.Grammar.Waiting
import TemplateFrontend.Proofs.KindSet
import Mathlib

/-!
Contract: every rule places a word of its production.

Owns:
- `Places`, a draft that has moved on by children whose marks are a word of a
  language, and how such words are joined;
- `Fills`, what a rule for nested statements places where an operand is due;
- `statementAt_derives`, which says that the marks of every placed node are a
  word of the production of its kind.

No rule looks back, so each one is followed from left to right and its words
are joined in the order of its transitions.
-/

namespace TemplateFrontend.Grammar

open Production
open scoped Computability

/-! ## Placed words -/

/-- `after` is `draft` moved on by significant children with the marks of one of
the words. -/
def Places (words : Language Mark) (draft after : Draft) : Prop :=
  ∃ added ∈ words, after.marks = added.reverse ++ draft.marks

namespace Places

variable {words front back : Language Mark} {draft after first second third : Draft}

theorem mono (included : front ≤ back) (placed : Places front draft after) :
    Places back draft after := by
  obtain ⟨added, member, marksEq⟩ := placed
  exact ⟨added, included member, marksEq⟩

theorem trans (earlier : Places front first second) (later : Places back second third) :
    Places (front * back) first third := by
  obtain ⟨left, leftMember, secondMarks⟩ := earlier
  obtain ⟨right, rightMember, thirdMarks⟩ := later
  refine ⟨left ++ right, Language.append_mem_mul leftMember rightMember, ?_⟩
  rw [thirdMarks, secondMarks, List.reverse_append, List.append_assoc]

theorem left (placed : Places front draft after) : Places (front + back) draft after :=
  placed.mono fun _ member => Or.inl member

theorem right (placed : Places back draft after) : Places (front + back) draft after :=
  placed.mono fun _ member => Or.inr member

/-- Nothing significant was placed. -/
theorem nothing (marksEq : after.marks = draft.marks) : Places (optional words) draft after :=
  ⟨[], Or.inl Language.nil_mem_one, marksEq⟩

theorem something (placed : Places words draft after) : Places (optional words) draft after :=
  placed.right

theorem advance {belongs : Kind → Prop} (notEnd : draft.atEnd = false)
    (kindBelongs : belongs draft.kind) : Places (tokenOf belongs) draft draft.advance :=
  ⟨[some draft.kind], ⟨draft.kind, kindBelongs, rfl⟩, Draft.marks_advance notEnd⟩

theorem token {kind : Kind} (notEnd : kind ≠ .endOfInput) (kindEq : draft.kind = kind) :
    Places (Production.token kind) draft draft.advance :=
  advance (Draft.atEnd_eq_false_of_kind kindEq notEnd) kindEq

theorem take? {kind : Kind} (notEnd : kind ≠ .endOfInput)
    (taken : draft.take? kind = some after) : Places (Production.token kind) draft after := by
  obtain ⟨kindEq, rfl⟩ := Draft.take?_eq_some_iff.mp taken
  exact token notEnd kindEq

theorem skip {kind : Kind} (notEnd : kind ≠ .endOfInput) (draft : Draft) :
    Places (optional (Production.token kind)) draft (draft.skip kind) := by
  by_cases same : draft.kind = kind
  · rw [Draft.skip_of_kind same]
    exact (token notEnd same).something
  · rw [Draft.skip_of_kind_ne same]
    exact nothing rfl

theorem settle (placed : Places words draft.settle after) : Places words draft after := by
  obtain ⟨added, member, marksEq⟩ := placed
  exact ⟨added, member, marksEq.trans (by rw [draft.marks_settle])⟩

/-- What was placed since a node was opened is all that it holds. -/
theorem mem_of_opened (placed : Places words draft.opened after) : after.marks.reverse ∈ words := by
  obtain ⟨added, member, marksEq⟩ := placed
  rw [marksEq, draft.marks_opened, List.append_nil, List.reverse_reverse]
  exact member

end Places

/-! ## Loops -/

/-- What a turn of a loop places, depending on whether the loop goes on. -/
def TurnPlaces (step last : Language Mark) (draft : Draft) (turn : Turn Draft) : Prop :=
  (∃ next, turn = .again next ∧ Places step draft next) ∨
    ∃ final, turn = .done final ∧ Places last draft final

/-- A loop places one word for each turn that goes on, and perhaps one for a
last turn. Its ceiling does not matter. -/
theorem places_repeatWhile {step last : Language Mark} {wanted : Draft → Bool}
    {turn : Draft → Turn Draft} {construct : Construct}
    (turns : ∀ draft, wanted draft = true → TurnPlaces step last draft (turn draft))
    (budget : Nat) (draft : Draft) :
    Places (step∗ * optional last) draft
      (repeatWhile wanted turn (·.trip construct) budget draft) := by
  have stops : ∀ {current after : Draft}, after.marks = current.marks →
      Places (step∗ * optional last) current after := by
    intro current after marksEq
    exact ⟨[], ⟨[], Language.nil_mem_kstar step, [], Or.inl Language.nil_mem_one, rfl⟩, marksEq⟩
  induction budget generalizing draft with
  | zero =>
      rw [repeatWhile]
      split
      · exact stops rfl
      · exact stops rfl
  | succ budget inductionHypothesis =>
      by_cases goesOn : wanted draft = true
      · rcases turns draft goesOn with ⟨next, turnEq, placed⟩ | ⟨final, turnEq, placed⟩
        · rw [repeatWhile_of_again goesOn turnEq]
          have whole := placed.trans (inductionHypothesis next)
          rw [← mul_assoc] at whole
          exact whole.mono (mul_le_mul_left mul_kstar_le_kstar _)
        · rw [repeatWhile_of_done goesOn turnEq]
          have none : Places step∗ draft draft := ⟨[], Language.nil_mem_kstar step, rfl⟩
          exact none.trans placed.something
      · rw [repeatWhile_of_unwanted (by simpa using goesOn)]
        exact stops rfl

theorem places_propertyChain (limits : Limits) (draft : Draft) :
    Places properties draft (propertyChain limits draft) := by
  apply places_repeatWhile
  intro current wanted
  have dot : Places (token .dot) current current.advance :=
    .token (by decide) (by simpa using wanted)
  unfold propertyTurn TurnPlaces
  dsimp only
  split
  · next next taken => exact Or.inl ⟨next, rfl, dot.trans (.take? (by decide) taken)⟩
  · exact Or.inr ⟨_, rfl, dot⟩

theorem places_parameters (limits : Limits) (draft : Draft) :
    Places Production.parameters draft (parameters limits draft) := by
  unfold parameters
  split
  · next inside taken =>
      apply Places.something
      refine (Places.trans (.take? (by decide) taken) ?_).trans (.skip (by decide) _)
      apply places_repeatWhile
      intro current wanted
      have name : Places (token .identifier) current current.advance :=
        .token (by decide) (by simpa using wanted)
      unfold parameterTurn TurnPlaces
      dsimp only
      split
      · next next commaTaken => exact Or.inl ⟨next, rfl, name.trans (.take? (by decide) commaTaken)⟩
      · exact Or.inr ⟨_, rfl, name⟩
  · exact .nothing rfl

/-! ## Operands -/

/-- What a rule for nested statements with `levels` levels left for it places:
an operand or nothing, and nothing before the end only when it misses. A token
in the place of an operand is the next one. -/
structure Fills (levels : Nat) (nested : StatementRule) : Prop where
  place : ∀ draft, Places (slot levels) draft (nested.place draft)
  answers : ∀ {draft : Draft}, draft.atEnd = false →
    nested draft = (.nothing, draft.settle) ∨
      (nested draft).1 ≠ .nothing ∧ ∃ mark, [mark] ∈ filling levels ∧
        (mark = none ∨ mark = some draft.kind) ∧
        (nested.place draft).marks = mark :: draft.marks

theorem fills_statement_zero (limits : Limits) : Fills 0 (statement limits 0) where
  place := by
    intro draft
    show Places (slot 0) draft (draft.trip .recursionDepth).advance
    rcases (draft.trip .recursionDepth).next_cases with empty | ⟨token, later, next⟩
    · rw [Draft.advance_of_settle_rest_nil empty]
      exact .nothing rfl
    · exact Places.something ⟨[some token.kind], ⟨token.kind, trivial, rfl⟩, next.marks_advance⟩
  answers := by
    intro draft notEnd
    right
    refine ⟨by simp [statement], some draft.kind, ⟨draft.kind, trivial, rfl⟩, Or.inr rfl, ?_⟩
    have tripNotEnd : (draft.trip .recursionDepth).atEnd = false := notEnd
    exact Draft.marks_advance tripNotEnd

theorem fills_statement_succ (limits : Limits) (levels : Nat) :
    Fills (levels + 1) (statement limits (levels + 1)) := by
  have regular := regular_statement limits levels
  have answers : ∀ {draft : Draft}, draft.atEnd = false →
      statement limits (levels + 1) draft = (.nothing, draft.settle) ∨
        (statement limits (levels + 1) draft).1 ≠ .nothing ∧
          ∃ mark, [mark] ∈ filling (levels + 1) ∧ (mark = none ∨ mark = some draft.kind) ∧
            (StatementRule.place (statement limits (levels + 1)) draft).marks =
              mark :: draft.marks := by
    intro draft notEnd
    rcases regular.answers notEnd with answer | ⟨result, kind, parts, answer, placedEq⟩
    · exact Or.inl answer
    · right
      rw [StatementRule.place, answer]
      refine ⟨by simp, none, rfl, Or.inl rfl, ?_⟩
      rw [Draft.marks, placedEq, Outline.marks_cons (.node kind parts) _ rfl]
      exact congrArg (none :: ·) draft.marks_settle
  refine ⟨?_, answers⟩
  intro draft
  cases isEnd : draft.atEnd with
  | true =>
      rw [StatementRule.place, regular.atEnd isEnd]
      exact .nothing rfl
  | false =>
      rcases answers isEnd with answer | ⟨_, mark, fills, _, marksEq⟩
      · rw [StatementRule.place, answer]
        exact .nothing draft.marks_settle
      · exact Places.something ⟨[mark], fills, marksEq⟩

theorem fills_statement (limits : Limits) : ∀ levels, Fills levels (statement limits levels)
  | 0 => fills_statement_zero limits
  | levels + 1 => fills_statement_succ limits levels

section Rules

variable {levels : Nat} {nested : StatementRule} (limits : Limits) (fills : Fills levels nested)

include fills

theorem Fills.condition (draft : Draft) :
    Places (Production.condition levels) draft (condition nested draft) := by
  unfold Grammar.condition
  split
  · next inside taken =>
      apply Places.something
      exact (Places.trans (.take? (by decide) taken) (fills.place inside)).trans
        (.skip (by decide) _)
  · exact .nothing rfl

/-- A statement, or the token of noise in its place, is one child. -/
theorem Fills.placeOrAdvance_mark {draft : Draft} (notEnd : draft.atEnd = false) :
    ∃ mark, (nested.placeOrAdvance draft).marks = mark :: draft.marks ∧
      (mark = none ∨ mark = some draft.kind) := by
  unfold StatementRule.placeOrAdvance
  rcases fills.answers notEnd with answer | ⟨placed, mark, _, markCases, marksEq⟩
  · rw [answer]
    refine ⟨some draft.kind, ?_, Or.inr rfl⟩
    dsimp only
    rw [Draft.marks_advance (draft.atEnd_settle.trans notEnd), draft.kind_settle,
      draft.marks_settle]
  · refine ⟨mark, ?_, markCases⟩
    split
    · next missed answer =>
        rw [answer] at placed
        exact absurd rfl placed
    · next answer =>
        rwa [StatementRule.place, answer] at marksEq

/-! ## Lists -/

omit fills in
/-- Words that are there and belong to an element are items. -/
theorem le_item {words : Language Mark} {listing : Listing} (nonempty : [] ∉ words)
    (isElement : words ≤ element levels listing) : words ≤ item levels listing := by
  intro marks member
  left
  refine ⟨isElement member, ?_⟩
  rintro rfl
  exact nonempty member

omit fills in
theorem nil_notMem_filling : [] ∉ filling levels := by
  unfold filling
  split
  · rintro ⟨kind, _, impossible⟩
    cases impossible
  · exact fun impossible => List.cons_ne_nil _ _ (Set.mem_singleton_iff.mp impossible).symm

theorem Fills.statement_item {listing : Listing} (noEntries : listing ≠ .entries) {draft : Draft}
    (notEnd : draft.atEnd = false) (notClosing : draft.kind ≠ listing.closing) :
    Places (item levels listing) draft ((statementElement nested).placeOrAdvance draft) := by
  have isElement : filling levels ≤ element levels listing := by
    intro marks member
    cases listing with
    | entries => exact absurd rfl noEntries
    | arguments => exact Or.inr member
    | array => exact Or.inr member
    | header => exact Or.inr member
  unfold ElementRule.placeOrAdvance statementElement
  rcases fills.answers notEnd with answer | ⟨placed, mark, filled, _, marksEq⟩
  · rw [answer]
    exact (Places.advance (draft.atEnd_settle.trans notEnd)
      (by rwa [draft.kind_settle])).right.settle
  · have there : ((nested draft).1 != .nothing) = true := by simpa using placed
    simp only [there]
    exact Places.mono (le_item nil_notMem_filling isElement) ⟨[mark], filled, marksEq⟩

theorem Fills.entry_item {draft : Draft} (notEnd : draft.atEnd = false)
    (notClosing : draft.kind ≠ .rightBracket) :
    Places (item levels .entries) draft ((entryElement nested).placeOrAdvance draft) := by
  have value : ∀ {key afterColon : Draft}, key.take? .colon = some afterColon →
      Places (token .colon * slot levels) key (nested.place afterColon) :=
    fun taken => Places.trans (.take? (by decide) taken) (fills.place _)
  have colonFirst : ∀ {words : Language Mark}, [] ∉ token .colon * words := by
    rintro words ⟨_, ⟨kind, _, rfl⟩, later, _, impossible⟩
    cases impossible
  have keyFirst : ∀ {words : Language Mark}, [] ∉ filling levels * words := by
    rintro words ⟨front, member, later, _, impossible⟩
    rw [(List.append_eq_nil_iff.mp impossible).1] at member
    exact nil_notMem_filling member
  unfold ElementRule.placeOrAdvance entryElement
  rcases fills.answers notEnd with answer | ⟨placed, mark, filled, _, marksEq⟩
  · rw [answer]
    dsimp only
    cases taken : draft.settle.take? .colon with
    | some afterColon =>
        have noKey : token .colon * slot levels ≤ element levels .entries := by
          intro marks member
          exact ⟨[], Or.inl Language.nil_mem_one, marks, Or.inr member, rfl⟩
        exact (value taken).settle.mono (le_item colonFirst noKey)
    | none =>
        exact (Places.advance (draft.atEnd_settle.trans notEnd)
          (by rwa [draft.kind_settle])).right.settle
  · have key : Places (filling levels) draft (nested draft).2 := ⟨[mark], filled, marksEq⟩
    have isElement : filling levels * optional (token .colon * slot levels) ≤
        element levels .entries :=
      mul_le_mul_left (fun _ member => Or.inr member) _
    have there : ((nested draft).1 != .nothing) = true := by simpa using placed
    dsimp only
    cases taken : (nested draft).2.take? .colon with
    | some afterColon =>
        exact (key.trans (value taken).something).mono (le_item keyFirst isElement)
    | none =>
        simp only [there]
        exact (key.trans (.nothing rfl)).mono (le_item keyFirst isElement)

omit fills in
/-- A turn of a list places an item, and a separator if the list goes on. -/
theorem places_separatedTurn (listing : Listing) {elementRule : ElementRule}
    (items : ∀ {draft : Draft}, draft.atEnd = false → draft.kind ≠ listing.closing →
      Places (item levels listing) draft (elementRule.placeOrAdvance draft))
    {draft : Draft} (wanted : (draft.kind != listing.closing && !draft.atEnd) = true) :
    TurnPlaces (item levels listing * tokenIn listing.separators) (item levels listing) draft
      (separatedTurn listing.separators elementRule draft) := by
  have separatorsNotEnd : listing.separators.contains .endOfInput = false := by
    cases listing <;> decide
  obtain ⟨notClosing, notEnd⟩ : draft.kind ≠ listing.closing ∧ draft.atEnd = false := by
    simpa using wanted
  have placed := items notEnd notClosing
  unfold separatedTurn TurnPlaces
  dsimp only
  split
  · next next taken =>
      obtain ⟨separates, rfl⟩ := Draft.takeIn?_eq_some_iff.mp taken
      exact Or.inl ⟨_, rfl, placed.trans (.advance
        (Draft.atEnd_eq_false_of_contains separates separatorsNotEnd) separates)⟩
  · exact Or.inr ⟨_, rfl, placed⟩

omit fills in
theorem Listing.closing_ne_endOfInput (listing : Listing) : listing.closing ≠ .endOfInput := by
  cases listing <;> decide

omit fills in
theorem places_separated (listing : Listing) {elementRule : ElementRule}
    (items : ∀ {draft : Draft}, draft.atEnd = false → draft.kind ≠ listing.closing →
      Places (item levels listing) draft (elementRule.placeOrAdvance draft))
    (draft : Draft) :
    Places (list levels listing) draft
      (separated limits listing.construct listing.closing listing.separators elementRule
        draft) := by
  unfold separated
  refine Places.trans ?_ (.skip listing.closing_ne_endOfInput _)
  apply places_repeatWhile
  exact fun _ wanted => places_separatedTurn listing items wanted

theorem Fills.header (draft : Draft) :
    Places (Production.header levels) draft (loopHeader limits nested draft) := by
  unfold loopHeader
  split
  · next inside taken =>
      apply Places.something
      exact Places.trans (.take? (by decide) taken)
        (places_separated limits .header (fills.statement_item (by decide)) inside)
  · exact .nothing rfl

/-! ## Expressions -/

theorem Fills.atom {draft : Draft} (isAtom : atoms.contains draft.kind = true) :
    Places (tokenIn atoms * properties * optional (token .leftParen * list levels .arguments))
      draft (atomPrimary limits nested draft) := by
  have name : Places (tokenIn atoms) draft draft.advance :=
    .advance (Draft.atEnd_eq_false_of_contains isAtom (by decide)) isAtom
  have chain := name.trans (places_propertyChain limits draft.advance)
  unfold atomPrimary
  dsimp only
  split
  · next inside taken =>
      exact chain.trans (Places.trans (.take? (by decide) taken)
        (places_separated limits .arguments (fills.statement_item (by decide)) inside)).something
  · exact chain.trans (.nothing rfl)

theorem Fills.primary {draft first : Draft} (begun : primary? limits nested draft = some first) :
    Places (primary levels) draft first := by
  unfold primary? at begun
  split at begun
  · next isAtom =>
      cases begun
      exact (fills.atom limits isAtom).left.left.left
  · split at begun
    · next kindEq =>
        cases begun
        have inner := Places.trans (.token (by decide) kindEq) (fills.place draft.advance)
        exact (inner.trans (.skip (by decide) _)).right.left.left
    · next kindEq =>
        cases begun
        exact (Places.trans (.token (by decide) kindEq)
          (places_separated limits .entries fills.entry_item _)).right.left
    · next kindEq =>
        cases begun
        exact (Places.trans (.token (by decide) kindEq)
          (places_separated limits .array (fills.statement_item (by decide)) _)).right
    · cases begun

theorem Fills.operators (draft : Draft) :
    Places (operators levels) draft (operatorChain limits nested draft) := by
  apply places_repeatWhile
  intro current isOperator
  have operator : Places (tokenIn binaryOperators) current current.advance :=
    .advance (Draft.atEnd_eq_false_of_contains isOperator (by decide)) isOperator
  unfold operatorTurn TurnPlaces
  dsimp only
  split
  · next next begun => exact Or.inl ⟨next, rfl, operator.trans (fills.primary limits begun)⟩
  · exact Or.inr ⟨_, rfl, operator⟩

/-! ## Regions -/

omit fills in
theorem fitsRegion_other (braces : Nat) {mark : Mark} (notLeft : mark ≠ some .leftBrace)
    (notRight : mark ≠ some .rightBrace) (later : List Mark) :
    fitsRegion (braces + 1) (mark :: later) = fitsRegion (braces + 1) later := by
  rw [fitsRegion]
  · exact notLeft
  · exact notRight

/-- The brace that closes a region is its last child, by induction on the
turns. -/
theorem Fills.regionLoop_fits (turns braces : Nat) (draft : Draft) :
    ∃ added, (regionLoop nested turns ⟨braces + 1, draft⟩).draft.marks =
        added.reverse ++ draft.marks ∧ fitsRegion (braces + 1) added = true := by
  induction turns generalizing braces draft with
  | zero =>
      rw [regionLoop, repeatWhile]
      split
      · exact ⟨[], rfl, rfl⟩
      · exact ⟨[], rfl, rfl⟩
  | succ turns inductionHypothesis =>
      cases isEnd : draft.atEnd with
      | true =>
          rw [regionLoop, repeatWhile_of_unwanted (by simp [isEnd])]
          exact ⟨[], rfl, rfl⟩
      | false =>
          have wanted : (!draft.atEnd) = true := by simp [isEnd]
          have advancedMarks := Draft.marks_advance isEnd
          by_cases isLeft : draft.kind = .leftBrace
          · have turn : regionTurn nested ⟨braces + 1, draft⟩ =
                .again ⟨braces + 1 + 1, draft.advance⟩ := by
              simp only [regionTurn, isLeft]
            rw [regionLoop, repeatWhile_of_again (by exact wanted) turn]
            obtain ⟨added, marksEq, fitting⟩ := inductionHypothesis (braces + 1) draft.advance
            rw [advancedMarks, isLeft] at marksEq
            exact ⟨some .leftBrace :: added, by rw [← regionLoop, marksEq]; simp, fitting⟩
          · by_cases isRight : draft.kind = .rightBrace
            · rw [isRight] at advancedMarks
              cases braces with
              | zero =>
                  have turn : regionTurn nested ⟨0 + 1, draft⟩ = .done ⟨0, draft.advance⟩ := by
                    simp only [regionTurn, isRight]
                    rfl
                  rw [regionLoop, repeatWhile_of_done (by exact wanted) turn]
                  exact ⟨[some .rightBrace], advancedMarks, rfl⟩
              | succ braces =>
                  have turn : regionTurn nested ⟨braces + 1 + 1, draft⟩ =
                      .again ⟨braces + 1, draft.advance⟩ := by
                    simp only [regionTurn, isRight]
                    rw [if_neg (by omega)]
                    rfl
                  rw [regionLoop, repeatWhile_of_again (by exact wanted) turn]
                  obtain ⟨added, marksEq, fitting⟩ := inductionHypothesis braces draft.advance
                  rw [advancedMarks] at marksEq
                  exact ⟨some .rightBrace :: added, by rw [← regionLoop, marksEq]; simp, fitting⟩
            · have turn : regionTurn nested ⟨braces + 1, draft⟩ =
                  .again ⟨braces + 1, nested.placeOrAdvance draft⟩ := by
                unfold regionTurn
                split
                · next kindEq => exact absurd kindEq isLeft
                · next kindEq => exact absurd kindEq isRight
                · rfl
              obtain ⟨mark, placedMarks, markCases⟩ := fills.placeOrAdvance_mark isEnd
              have other : ∀ kind, draft.kind ≠ kind → mark ≠ some kind := by
                rintro kind notKind rfl
                rcases markCases with impossible | sameKind
                · cases impossible
                · exact notKind (Option.some.inj sameKind).symm
              rw [regionLoop, repeatWhile_of_again (by exact wanted) turn]
              obtain ⟨added, marksEq, fitting⟩ :=
                inductionHypothesis braces (nested.placeOrAdvance draft)
              rw [placedMarks] at marksEq
              refine ⟨mark :: added, by rw [← regionLoop, marksEq]; simp, ?_⟩
              rwa [fitsRegion_other braces (other _ isLeft) (other _ isRight)]

theorem Fills.region (draft : Draft) : Places region draft (regionBody limits nested draft) := by
  obtain ⟨added, marksEq, fitting⟩ := fills.regionLoop_fits limits.regionIterations 0 draft
  exact ⟨added, fitting, marksEq⟩

/-! ## Nodes -/

/-- The children of every node that an answer places are marked as its
production allows. -/
def Derives (levels : Nat) (draft : Draft) (answer : Outcome × Draft) : Prop :=
  ∀ result, answer = (.node, result) → ∃ (kind : Kind) (inside : Draft),
    result = inside.closed kind draft.settle.placed ∧
      inside.marks.reverse ∈ production levels kind

omit fills in
theorem derives_closed {draft inside : Draft} {kind : Kind}
    (placed : Places (production levels kind) draft.opened inside) :
    Derives levels draft (.node, inside.closed kind draft.settle.placed) := by
  intro result answer
  cases answer
  exact ⟨kind, inside, rfl, placed.mem_of_opened⟩

theorem Fills.templateParts {draft : Draft}
    (begins : draft.kind = .atSign ∨ draft.kind.isMarkup = true) :
    Places (production levels .templateBlock) draft (templateParts limits nested draft) := by
  unfold Grammar.templateParts
  split
  · next kindEq =>
      exact (Places.trans (.token (by decide) kindEq) (.skip (by decide) _)).left.left
  · next kindEq =>
      have sign : Places (token .atSign) draft draft.advance := .token (by decide) kindEq
      split
      · next inside taken =>
          exact ((sign.trans (.take? (by decide) taken)).right.trans (fills.region limits _)).right
      · exact sign.right.left
  · next notEnd notSign =>
      have isMarkup : draft.kind.isMarkup = true := begins.resolve_left notSign
      have notAtEnd : draft.atEnd = false := by
        apply Draft.atEnd_eq_false_of_kind rfl
        intro isEnd
        rw [isEnd] at isMarkup
        cases isMarkup
      have opener : Places (tokenOf fun kind => kind.isMarkup = true ∧ kind ≠ .markupEnd)
          draft draft.advance := .advance notAtEnd ⟨isMarkup, notEnd⟩
      exact (opener.left.trans (fills.region limits _)).right

theorem Fills.expression (draft : Draft) :
    Derives levels draft (expression limits nested draft) := by
  unfold Grammar.expression
  dsimp only
  split
  · exact fun _ => nofun
  · next first begun =>
      have firstPlaced := fills.primary limits begun
      split
      · next afterSign taken =>
          apply derives_closed
          exact (firstPlaced.trans (.take? (by decide) taken)).trans (fills.place afterSign)
      · apply derives_closed
        exact firstPlaced.trans (fills.operators limits first)

omit fills in
/-- A node begins with a token of the kind that decides for it. -/
theorem places_keyword {draft : Draft} {kind : Kind} (notEnd : kind ≠ .endOfInput)
    (kindEq : draft.kind = kind) : Places (token kind) draft.opened draft.opened.advance :=
  .token notEnd (draft.kind_opened.trans kindEq)

theorem Fills.conditional {draft : Draft} (kindEq : draft.kind = .ifKeyword) :
    Derives levels draft (.node, ifStatement nested draft) := by
  have branch := ((places_keyword (by decide) kindEq).trans (fills.condition _)).trans
    (fills.place _)
  apply derives_closed
  dsimp only
  split
  · next afterElse taken =>
      exact branch.trans
        (Places.trans (.take? (by decide) taken) (fills.place afterElse)).something
  · exact branch.trans (.nothing rfl)

theorem Fills.forLoop {draft : Draft}
    (kindEq : draft.kind = .forKeyword ∨ draft.kind = .foreachKeyword) :
    Derives levels draft (.node, forStatement limits nested draft) := by
  have keyword : Places (token .forKeyword + token .foreachKeyword) draft.opened
      draft.opened.advance := by
    rcases kindEq with isFor | isForeach
    · exact (places_keyword (by decide) isFor).left
    · exact (places_keyword (by decide) isForeach).right
  exact derives_closed ((keyword.trans (fills.header limits _)).trans (fills.place _))

theorem Fills.whileLoop {draft : Draft} (kindEq : draft.kind = .whileKeyword) :
    Derives levels draft (.node, whileStatement nested draft) :=
  derives_closed (((places_keyword (by decide) kindEq).trans (fills.condition _)).trans
    (fills.place _)).left

theorem Fills.doLoop {draft : Draft} (kindEq : draft.kind = .doKeyword) :
    Derives levels draft (.node, doStatement nested draft) := by
  have body := ((places_keyword (by decide) kindEq).trans (fills.condition _)).trans
    (fills.place _)
  apply derives_closed
  apply Places.right
  dsimp only
  split
  · next afterWhile taken =>
      exact body.trans (Places.trans (Places.take? (by decide) taken).left
        (fills.condition afterWhile)).something
  · split
    · next afterUntil taken =>
        exact body.trans (Places.trans (Places.take? (by decide) taken).right
          (fills.condition afterUntil)).something
    · exact body.trans (.nothing rfl)

theorem Fills.function {draft : Draft}
    (kindEq : draft.kind = .defKeyword ∨ draft.kind = .functionKeyword) :
    Derives levels draft (.node, functionDefinition limits nested draft) := by
  have keyword : Places (token .defKeyword + token .functionKeyword) draft.opened
      draft.opened.advance := by
    rcases kindEq with isDef | isFunction
    · exact (places_keyword (by decide) isDef).left
    · exact (places_keyword (by decide) isFunction).right
  exact derives_closed (((keyword.trans (.skip (by decide) _)).trans
    (places_parameters limits _)).trans (fills.place _))

theorem Fills.keyword {draft : Draft} {kind : Kind}
    (listed : kind ∈ [Kind.newKeyword, .assertKeyword, .isdefKeyword, .withKeyword])
    (kindEq : draft.kind = kind) :
    Derives levels draft (.node, keywordStatement .statement nested draft) := by
  have notEnd : kind ≠ .endOfInput := by
    rintro rfl
    exact absurd listed (by decide)
  have first : Places (tokenOf (· ∈ [Kind.newKeyword, .assertKeyword, .isdefKeyword,
      .withKeyword])) draft.opened draft.opened.advance := by
    have openedEq := draft.kind_opened.trans kindEq
    exact .advance (Draft.atEnd_eq_false_of_kind openedEq notEnd) (openedEq ▸ listed)
  exact derives_closed (first.trans (fills.place _))

theorem Fills.template {draft : Draft}
    (begins : draft.kind = .atSign ∨ draft.kind.isMarkup = true) :
    Derives levels draft (.node, templateBlock limits nested draft) := by
  rw [← draft.kind_opened] at begins
  exact derives_closed (fills.templateParts limits begins)

/-- Whatever a statement rule places is a node whose children are marked as its
production allows. -/
theorem statementAt_derives (draft : Draft) :
    Derives levels draft (statementAt limits nested draft) := by
  unfold statementAt
  split
  · exact fun _ => nofun
  · next kindEq => exact fills.conditional kindEq
  · next kindEq => exact fills.forLoop limits (Or.inl kindEq)
  · next kindEq => exact fills.forLoop limits (Or.inr kindEq)
  · next kindEq => exact fills.whileLoop kindEq
  · next kindEq => exact fills.doLoop kindEq
  · next kindEq =>
      exact derives_closed ((places_keyword (by decide) kindEq).trans (fills.place _))
  · next kindEq => exact fills.function limits (Or.inl kindEq)
  · next kindEq => exact fills.function limits (Or.inr kindEq)
  · next kindEq => exact fills.keyword (by decide) kindEq
  · next kindEq => exact fills.keyword (by decide) kindEq
  · next kindEq => exact fills.keyword (by decide) kindEq
  · next kindEq => exact fills.keyword (by decide) kindEq
  · next kindEq => exact fills.template limits (Or.inl kindEq)
  · split
    · next isMarkup => exact fills.template limits (Or.inr isMarkup)
    · exact fills.expression limits draft

end Rules

/-- The children of a node with its origin in a statement rule are marked as
its production allows. -/
theorem Origin.derives {limits : Limits} {trips : List Trip} {levels : Nat} {after : List Token}
    {kind : Kind} {parts : List Outline} (origin : Origin limits trips levels after kind parts) :
    Outline.marks parts ∈ production levels kind := by
  obtain ⟨draft, result, answer, placedEq, _, _⟩ := origin
  obtain ⟨ownKind, inside, rfl, derived⟩ :=
    statementAt_derives limits (fills_statement limits levels) draft result answer
  obtain ⟨rfl, rfl⟩ : ownKind = kind ∧ inside.placed.reverse = parts := by
    simpa [Draft.closed] using placedEq
  rw [Outline.marks_reverse]
  exact derived

end TemplateFrontend.Grammar
