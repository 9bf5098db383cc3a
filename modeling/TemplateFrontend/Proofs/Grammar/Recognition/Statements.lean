import TemplateFrontend.Proofs.Grammar.Recognition.Expressions

/-!
Contract: the rules for statements, markup blocks and programs recognize their
phrases.

Owns:
- one lemma for each production;
- `wellFormed_recognized`, the induction over derivations that puts the
  productions together.
-/

namespace TemplateFrontend.Grammar

open Shape (spellingAll)

section Phrases

variable {limits : Limits} {levels : Nat}

theorem condition_reads {inner : List Shape}
    (recognized : Recognized limits (.statement levels) inner) {draft : Draft} (more : List Kind)
    (pendingEq : draft.pending = .leftParen :: (spellingAll inner ++ .rightParen :: more)) :
    Reads (.leaf .leftParen :: (inner ++ [.leaf .rightParen])) more draft
      (condition (statement limits levels) draft) := by
  have opened := Reads.advance pendingEq
  have placed := recognized.place opened.pending_eq (stops_cons more (by decide))
  rw [condition, Draft.take?_of_pending pendingEq]
  dsimp only
  rw [Draft.skip_of_pending placed.pending_eq]
  exact opened.cons (placed.trans (.advance placed.pending_eq))

/-! ## Statements that begin with a keyword -/

/-- A statement is recognized when its rule reads the parts of its node. The
kind of the first token has been seen by then. -/
theorem recognized_node {kind first : Kind} {later : List Shape} (begins : starts first = true)
    (body : ∀ draft more, draft.kind = first →
      draft.opened.pending = first :: (spellingAll later ++ more) → Stops more →
      ∃ inside : Draft, statement limits (levels + 1) draft =
          (.node, inside.closed kind draft.settle.placed) ∧
        Reads (.leaf first :: later) more draft.opened inside) :
    Recognized limits (.statement (levels + 1)) [.node kind (.leaf first :: later)] := by
  constructor
  · exact ⟨first, spellingAll later, by simp, begins⟩
  · intro draft more pendingEq stops
    have pendingCons : draft.pending = first :: (spellingAll later ++ more) := by
      simpa using pendingEq
    obtain ⟨inside, answer, reads⟩ := body draft more (Draft.kind_of_pending pendingCons)
      (draft.pending_opened.trans pendingCons) stops
    exact ⟨_, answer, reads.closed kind⟩

theorem recognized_returned {value : List Shape}
    (recognized : Recognized limits (.statement levels) value) :
    Recognized limits (.statement (levels + 1))
      [.node .returnStmt (.leaf .returnKeyword :: value)] := by
  apply recognized_node rfl
  intro draft more kindEq pendingEq stops
  have opened := Reads.advance pendingEq
  exact ⟨_, by rw [statement, statementAt, kindEq]; rfl,
    opened.cons (recognized.place opened.pending_eq stops)⟩

theorem recognized_keyword {keyword : Kind} {operand : List Shape}
    (keywordEq : keyword = .newKeyword ∨ keyword = .assertKeyword ∨ keyword = .isdefKeyword ∨
      keyword = .withKeyword)
    (recognized : Recognized limits (.statement levels) operand) :
    Recognized limits (.statement (levels + 1)) [.node .statement (.leaf keyword :: operand)] := by
  apply recognized_node (by rcases keywordEq with rfl | rfl | rfl | rfl <;> rfl)
  intro draft more kindEq pendingEq stops
  have opened := Reads.advance pendingEq
  refine ⟨(statement limits levels).place draft.opened.advance, ?_,
    opened.cons (recognized.place opened.pending_eq stops)⟩
  rw [statement, statementAt, kindEq]
  rcases keywordEq with rfl | rfl | rfl | rfl <;> rfl

theorem recognized_conditional {condition branch otherwise : List Shape}
    (conditionRecognized : Recognized limits (.statement levels) condition)
    (branchRecognized : Recognized limits (.statement levels) branch)
    (otherwiseRecognized : Recognized limits (.statement levels) otherwise) :
    Recognized limits (.statement (levels + 1))
      [.node .ifStmt (.leaf .ifKeyword :: .leaf .leftParen :: (condition ++
        .leaf .rightParen :: (branch ++ .leaf .elseKeyword :: otherwise)))] := by
  apply recognized_node rfl
  intro draft more kindEq pendingEq stops
  have opened := Reads.advance pendingEq
  have conditionRead := condition_reads conditionRecognized
    (spellingAll branch ++ .elseKeyword :: (spellingAll otherwise ++ more))
    (by simpa using opened.pending_eq)
  have branchRead := branchRecognized.place conditionRead.pending_eq (stops_cons _ rfl)
  have elseRead := Reads.advance branchRead.pending_eq
  have otherwiseRead := otherwiseRecognized.place elseRead.pending_eq stops
  refine ⟨_, by rw [statement, statementAt, kindEq]; rfl, ?_⟩
  dsimp only
  rw [Draft.take?_of_pending branchRead.pending_eq]
  simpa using opened.cons (conditionRead.trans (branchRead.trans (elseRead.cons otherwiseRead)))

theorem recognized_whileLoop {condition body : List Shape}
    (conditionRecognized : Recognized limits (.statement levels) condition)
    (bodyRecognized : Recognized limits (.statement levels) body) :
    Recognized limits (.statement (levels + 1))
      [.node .whileStmt (.leaf .whileKeyword :: .leaf .leftParen :: (condition ++
        .leaf .rightParen :: body))] := by
  apply recognized_node rfl
  intro draft more kindEq pendingEq stops
  have opened := Reads.advance pendingEq
  have conditionRead := condition_reads conditionRecognized (spellingAll body ++ more)
    (by simpa using opened.pending_eq)
  have bodyRead := bodyRecognized.place conditionRead.pending_eq stops
  refine ⟨_, by rw [statement, statementAt, kindEq]; rfl, ?_⟩
  simpa using opened.cons (conditionRead.trans bodyRead)

theorem recognized_doLoop {keyword : Kind} {body test : List Shape}
    (bodyRecognized : Recognized limits (.statement levels) body)
    (noCondition : firstKind? body ≠ some .leftParen)
    (keywordEq : keyword = .whileKeyword ∨ keyword = .untilKeyword)
    (testRecognized : Recognized limits (.statement levels) test) :
    Recognized limits (.statement (levels + 1))
      [.node .whileStmt (.leaf .doKeyword :: (body ++ .leaf keyword :: .leaf .leftParen ::
        (test ++ [.leaf .rightParen])))] := by
  apply recognized_node rfl
  intro draft more kindEq pendingEq stops
  have opened := Reads.advance pendingEq
  have bodyPending : draft.opened.advance.pending = spellingAll body ++
      keyword :: .leftParen :: (spellingAll test ++ .rightParen :: more) := by
    simpa using opened.pending_eq
  -- The body does not begin with a parenthesis, so no condition is read before it.
  have noConditionRead : condition (statement limits levels) draft.opened.advance =
      draft.opened.advance := by
    obtain ⟨first, later, spelled, _⟩ := bodyRecognized.1
    have notTaken : draft.opened.advance.take? .leftParen = none := by
      apply Draft.take?_eq_none_of_pending (by decide)
      rw [bodyPending, spelled]
      rwa [firstKind?, spelled] at noCondition
    rw [condition, notTaken]
  have bodyRead := bodyRecognized.place bodyPending
    (stops_cons _ (by rcases keywordEq with rfl | rfl <;> rfl))
  have keywordRead := Reads.advance bodyRead.pending_eq
  have testRead := condition_reads testRecognized more keywordRead.pending_eq
  refine ⟨_, by rw [statement, statementAt, kindEq]; rfl, ?_⟩
  dsimp only
  rw [noConditionRead]
  rcases keywordEq with rfl | rfl
  · rw [Draft.take?_of_pending bodyRead.pending_eq]
    simpa using opened.cons (bodyRead.trans (keywordRead.cons testRead))
  · rw [Draft.take?_eq_none_of_pending (by decide) (by simp [bodyRead.pending_eq]),
      Draft.take?_of_pending bodyRead.pending_eq]
    simpa using opened.cons (bodyRead.trans (keywordRead.cons testRead))

theorem recognized_forLoop {keyword : Kind} {header body : List Shape}
    (keywordEq : keyword = .forKeyword ∨ keyword = .foreachKeyword)
    (headerRecognized : Recognized limits (.list .header levels limits.iterations) header)
    (bodyRecognized : Recognized limits (.statement levels) body) :
    Recognized limits (.statement (levels + 1))
      [.node .forStmt (.leaf keyword :: .leaf .leftParen :: (header ++
        .leaf .rightParen :: body))] := by
  apply recognized_node (by rcases keywordEq with rfl | rfl <;> rfl)
  intro draft more kindEq pendingEq stops
  have opened := Reads.advance pendingEq
  have parenPending : draft.opened.advance.pending =
      .leftParen :: (spellingAll header ++ .rightParen :: (spellingAll body ++ more)) := by
    simpa using opened.pending_eq
  have parenRead := Reads.advance parenPending
  have headerEq : loopHeader limits (statement limits levels) draft.opened.advance =
      separated limits Listing.header.construct Listing.header.closing Listing.header.separators
        (Listing.header.rule limits levels) draft.opened.advance.advance := by
    rw [loopHeader, Draft.take?_of_pending parenPending]
    rfl
  have headerRead : Reads (header ++ [.leaf .rightParen]) (spellingAll body ++ more) _ _ :=
    separated_reads headerRecognized (spellingAll body ++ more) parenRead.pending_eq
  have bodyRead := bodyRecognized.place headerRead.pending_eq stops
  refine ⟨(statement limits levels).place
    (loopHeader limits (statement limits levels) draft.opened.advance), ?_, ?_⟩
  · rw [statement, statementAt, kindEq]
    rcases keywordEq with rfl | rfl <;> rfl
  · rw [headerEq]
    simpa using opened.cons (parenRead.cons (headerRead.trans bodyRead))

theorem name_reads {name : List Shape} (nameEq : name = [] ∨ name = [.leaf .identifier])
    {draft : Draft} {more : List Kind}
    (pendingEq : draft.pending = spellingAll name ++ .leftParen :: more) :
    Reads name (.leftParen :: more) draft (draft.skip .identifier) := by
  rcases nameEq with rfl | rfl
  · rw [Draft.skip_of_kind_ne (by rw [Draft.kind_of_pending pendingEq]; decide)]
    exact ⟨pendingEq, rfl, rfl⟩
  · rw [Draft.skip_of_pending pendingEq]
    exact .advance pendingEq

theorem recognized_function {keyword : Kind} {name names body : List Shape}
    (keywordEq : keyword = .defKeyword ∨ keyword = .functionKeyword)
    (nameEq : name = [] ∨ name = [.leaf .identifier])
    (namesRecognized : Recognized limits (.names limits.iterations) names)
    (bodyRecognized : Recognized limits (.statement levels) body) :
    Recognized limits (.statement (levels + 1))
      [.node .functionDef (.leaf keyword :: (name ++ .leaf .leftParen :: (names ++
        .leaf .rightParen :: body)))] := by
  apply recognized_node (by rcases keywordEq with rfl | rfl <;> rfl)
  intro draft more kindEq pendingEq stops
  have opened := Reads.advance pendingEq
  have nameRead : Reads name (.leftParen :: (spellingAll names ++ .rightParen ::
      (spellingAll body ++ more))) draft.opened.advance (draft.opened.advance.skip .identifier) :=
    name_reads nameEq (by simpa using opened.pending_eq)
  have parenRead := Reads.advance nameRead.pending_eq
  have namesRead := namesRecognized _ _ parenRead.pending_eq
  have closingRead := Reads.advance namesRead.pending_eq
  have bodyRead := bodyRecognized.place closingRead.pending_eq stops
  have parametersEq : parameters limits (draft.opened.advance.skip .identifier) =
      (parameterLoop limits.iterations
        (draft.opened.advance.skip .identifier).advance).advance := by
    rw [parameters, Draft.take?_of_pending nameRead.pending_eq]
    exact Draft.skip_of_pending namesRead.pending_eq
  refine ⟨(statement limits levels).place
    (parameters limits (draft.opened.advance.skip .identifier)), ?_, ?_⟩
  · rw [statement, statementAt, kindEq]
    rcases keywordEq with rfl | rfl <;> rfl
  · rw [parametersEq]
    simpa using opened.cons (nameRead.trans (parenRead.cons (namesRead.trans
      (closingRead.cons bodyRead))))

/-! ## Markup blocks -/

theorem recognized_endMarker : Recognized limits (.statement (levels + 1))
    [.node .templateBlock [.leaf .markupEnd, .leaf .rightBrace]] := by
  apply recognized_node rfl
  intro draft more kindEq pendingEq stops
  have opened := Reads.advance pendingEq
  have partsEq : templateParts limits (statement limits levels) draft.opened =
      draft.opened.advance.advance := by
    rw [templateParts, draft.kind_opened, kindEq]
    exact Draft.skip_of_pending opened.pending_eq
  refine ⟨_, by rw [statement, statementAt_of_isMarkup _ _ (by rw [kindEq]; rfl)]; rfl, ?_⟩
  rw [partsEq]
  exact opened.cons (.advance opened.pending_eq)

theorem recognized_markupRegion {opener : Kind} {body : List Shape}
    (isMarkup : opener.isMarkup = true) (notEnd : opener ≠ .markupEnd)
    (recognized : Recognized limits (.region levels limits.regionIterations) body) :
    Recognized limits (.statement (levels + 1)) [.node .templateBlock (.leaf opener :: body)] := by
  have begins : starts opener = true := by
    revert isMarkup
    cases opener <;> decide
  apply recognized_node begins
  intro draft more kindEq pendingEq stops
  have opened := Reads.advance pendingEq
  have notSign : opener ≠ .atSign := by
    rintro rfl
    cases isMarkup
  have partsEq : templateParts limits (statement limits levels) draft.opened =
      regionBody limits (statement limits levels) draft.opened.advance := by
    rw [templateParts, draft.kind_opened, kindEq]
    split
    · exact absurd rfl notEnd
    · exact absurd rfl notSign
    · rfl
  refine ⟨_, by rw [statement, statementAt_of_isMarkup _ _ (kindEq ▸ isMarkup)]; rfl, ?_⟩
  rw [partsEq]
  exact opened.cons (recognized.2 _ _ opened.pending_eq)

theorem recognized_signRegion {body : List Shape}
    (recognized : Recognized limits (.region levels limits.regionIterations) body) :
    Recognized limits (.statement (levels + 1))
      [.node .templateBlock (.leaf .atSign :: .leaf .leftBrace :: body)] := by
  apply recognized_node rfl
  intro draft more kindEq pendingEq stops
  have opened := Reads.advance pendingEq
  have braceRead := Reads.advance opened.pending_eq
  have partsEq : templateParts limits (statement limits levels) draft.opened =
      regionBody limits (statement limits levels) draft.opened.advance.advance := by
    rw [templateParts, draft.kind_opened, kindEq]
    dsimp only
    rw [Draft.take?_of_pending opened.pending_eq]
  refine ⟨_, by rw [statement, statementAt, kindEq]; rfl, ?_⟩
  rw [partsEq]
  exact opened.cons (braceRead.cons (recognized.2 _ _ braceRead.pending_eq))

theorem recognized_closeRegion {turns : Nat} :
    Recognized limits (.region levels (turns + 1)) [.leaf .rightBrace] := by
  constructor
  · exact fun more => stops_cons more rfl
  · intro draft more pendingEq
    have kindEq := Draft.kind_of_pending pendingEq
    have notEnd := Draft.atEnd_eq_false_of_kind kindEq (by decide)
    have last : regionLoop (statement limits levels) (turns + 1) ⟨1, draft⟩ = ⟨0, draft.advance⟩ :=
      repeatWhile_of_done (by simp [notEnd]) (by simp [regionTurn, kindEq]) turns
    rw [last]
    exact .advance pendingEq

theorem recognized_inRegion {turns : Nat} {first later : List Shape}
    (firstRecognized : Recognized limits (.statement levels) first)
    (noParen : firstKind? first ≠ some .leftParen) (noBrace : firstKind? first ≠ some .leftBrace)
    (laterRecognized : Recognized limits (.region levels turns) later) :
    Recognized limits (.region levels (turns + 1)) (first ++ later) := by
  obtain ⟨kind, others, spelled, startsKind⟩ := firstRecognized.1
  obtain ⟨notEnd, _, _, notRight, stopsKind⟩ := starts_facts startsKind
  rw [firstKind?, spelled, List.head?_cons, ne_eq, Option.some_inj] at noParen noBrace
  constructor
  · intro more
    rw [Shape.spellingAll_append, spelled]
    exact stops_cons _ (stopsKind noParen)
  · intro draft more pendingEq
    rw [Shape.spellingAll_append, List.append_assoc] at pendingEq
    have firstRead := firstRecognized.placeOrAdvance pendingEq (laterRecognized.1 more)
    rw [spelled] at pendingEq
    have kindEq := Draft.kind_of_pending pendingEq
    have draftNotEnd := Draft.atEnd_eq_false_of_kind kindEq notEnd
    have turn : regionTurn (statement limits levels) ⟨1, draft⟩ =
        .again ⟨1, (statement limits levels).placeOrAdvance draft⟩ := by
      unfold regionTurn
      split
      · next other => exact absurd (kindEq.symm.trans other) noBrace
      · next other => exact absurd (kindEq.symm.trans other) notRight
      · rfl
    have loopEq : regionLoop (statement limits levels) (turns + 1) ⟨1, draft⟩ =
        regionLoop (statement limits levels) turns
          ⟨1, (statement limits levels).placeOrAdvance draft⟩ :=
      repeatWhile_of_again (by simp [draftNotEnd]) turn turns
    rw [loopEq]
    exact firstRead.trans (laterRecognized.2 _ _ firstRead.pending_eq)

/-! ## Programs -/

theorem recognized_noStatements {turns : Nat} :
    Recognized limits (.program levels turns) [] := by
  constructor
  · exact Or.inl rfl
  · intro draft pendingEq
    have isEnd : draft.atEnd = true := by
      rw [Draft.atEnd, draft.kind_eq_head?, pendingEq]
      rfl
    have loopEq : programLoop limits levels turns draft = draft :=
      repeatWhile_of_unwanted (by rw [isEnd]; rfl) turns
    rw [loopEq]
    exact ⟨pendingEq, rfl, rfl⟩

theorem recognized_nextStatement {turns : Nat} {first later : List Shape}
    (firstRecognized : Recognized limits (.statement levels) first)
    (laterRecognized : Recognized limits (.program levels turns) later)
    (noParen : firstKind? later ≠ some .leftParen) :
    Recognized limits (.program levels (turns + 1)) (first ++ later) := by
  obtain ⟨kind, others, spelled, startsKind⟩ := firstRecognized.1
  constructor
  · exact Or.inr (firstRecognized.1.append later)
  · intro draft pendingEq
    rw [Shape.spellingAll_append] at pendingEq
    have stops : Stops (spellingAll later) := by
      rcases laterRecognized.1 with rfl | begins
      · exact fun _ => nofun
      · obtain ⟨next, behind, nextSpelled, startsNext⟩ := begins
        rw [firstKind?, nextSpelled, List.head?_cons, ne_eq, Option.some_inj] at noParen
        rw [nextSpelled]
        exact stops_cons _ ((starts_facts startsNext).2.2.2.2 noParen)
    have firstRead := firstRecognized.placeOrAdvance pendingEq stops
    have notEnd : draft.atEnd = false := by
      rw [spelled] at pendingEq
      have kindEq := Draft.kind_of_pending pendingEq
      exact Draft.atEnd_eq_false_of_kind kindEq (starts_facts startsKind).1
    have loopEq : programLoop limits levels (turns + 1) draft =
        programLoop limits levels turns ((statement limits levels).placeOrAdvance draft) :=
      repeatWhile_of_again (by rw [notEnd]; rfl) (by rfl) turns
    rw [loopEq]
    exact firstRead.trans (laterRecognized.2 _ firstRead.pending_eq)

end Phrases

/-! ## Derivations -/

/-- Every well-formed phrase is recognized, by induction on its derivation. -/
theorem wellFormed_recognized {limits : Limits} {phrase : Phrase} {parts : List Shape}
    (wellFormed : WellFormed limits phrase parts) : Recognized limits phrase parts := by
  induction wellFormed with
  | expression _ _ firstRecognized chainRecognized =>
      exact recognized_expression firstRecognized chainRecognized
  | assignment _ _ targetRecognized valueRecognized =>
      exact recognized_assignment targetRecognized valueRecognized
  | conditional _ _ _ conditionRecognized branchRecognized otherwiseRecognized =>
      exact recognized_conditional conditionRecognized branchRecognized otherwiseRecognized
  | forLoop keywordEq _ _ headerRecognized bodyRecognized =>
      exact recognized_forLoop keywordEq headerRecognized bodyRecognized
  | whileLoop _ _ conditionRecognized bodyRecognized =>
      exact recognized_whileLoop conditionRecognized bodyRecognized
  | doLoop _ noCondition keywordEq _ bodyRecognized conditionRecognized =>
      exact recognized_doLoop bodyRecognized noCondition keywordEq conditionRecognized
  | returned _ valueRecognized => exact recognized_returned valueRecognized
  | keyword keywordEq _ operandRecognized => exact recognized_keyword keywordEq operandRecognized
  | function keywordEq nameEq _ _ namesRecognized bodyRecognized =>
      exact recognized_function keywordEq nameEq namesRecognized bodyRecognized
  | endMarker => exact recognized_endMarker
  | markupRegion isMarkup notEnd _ bodyRecognized =>
      exact recognized_markupRegion isMarkup notEnd bodyRecognized
  | signRegion _ bodyRecognized => exact recognized_signRegion bodyRecognized
  | atom isAtom _ linksRecognized => exact recognized_atom isAtom linksRecognized
  | call isAtom _ _ linksRecognized argumentsRecognized =>
      exact recognized_call isAtom linksRecognized argumentsRecognized
  | parenthesized _ innerRecognized => exact recognized_parenthesized innerRecognized
  | listLiteral _ entriesRecognized => exact recognized_listLiteral entriesRecognized
  | arrayLiteral _ elementsRecognized => exact recognized_arrayLiteral elementsRecognized
  | noProperties => exact recognized_noProperties
  | property _ laterRecognized => exact recognized_property laterRecognized
  | noOperators => exact recognized_noOperators
  | operator isOperator _ _ operandRecognized laterRecognized =>
      exact recognized_operator isOperator operandRecognized laterRecognized
  | element _ valueRecognized => exact recognized_element valueRecognized
  | keyedElement _ _ keyRecognized valueRecognized =>
      exact recognized_keyedElement keyRecognized valueRecognized
  | noElements => exact recognized_noElements
  | lastElement _ lastRecognized => exact recognized_lastElement lastRecognized
  | nextElement _ separates _ _ firstRecognized laterRecognized =>
      exact recognized_nextElement firstRecognized separates laterRecognized
  | noNames => exact recognized_noNames
  | lastName => exact recognized_lastName
  | nextName _ _ laterRecognized => exact recognized_nextName laterRecognized
  | closeRegion => exact recognized_closeRegion
  | inRegion _ noParen noBrace _ firstRecognized laterRecognized =>
      exact recognized_inRegion firstRecognized noParen noBrace laterRecognized
  | noStatements => exact recognized_noStatements
  | nextStatement _ _ noParen firstRecognized laterRecognized =>
      exact recognized_nextStatement firstRecognized laterRecognized noParen

end TemplateFrontend.Grammar
