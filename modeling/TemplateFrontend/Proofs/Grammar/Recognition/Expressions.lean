import TemplateFrontend.Proofs.Grammar.Recognition

/-!
Contract: the rules for lists, primaries and expressions recognize their
phrases.

Owns one lemma for each production, from the inside out: chains, elements and
lists, primaries, expressions and assignments.
-/

namespace TemplateFrontend.Grammar

open Shape (spellingAll)

section Phrases

variable {limits : Limits} {levels : Nat}

/-! ## Chains -/

omit levels in
theorem recognized_noProperties {turns : Nat} : Recognized limits (.properties turns) [] := by
  intro draft more pendingEq notDot
  have notTaken : draft.take? .dot = none :=
    Draft.take?_eq_none_of_pending (by decide) (by rwa [show draft.pending = more from pendingEq])
  have loopEq : propertyLoop turns draft = draft :=
    repeatWhile_of_unwanted (by simpa [Draft.take?_eq_none_iff] using notTaken) turns
  rw [loopEq]
  exact ⟨pendingEq, rfl, rfl⟩

omit levels in
theorem recognized_property {turns : Nat} {later : List Shape}
    (recognized : Recognized limits (.properties turns) later) :
    Recognized limits (.properties (turns + 1)) (.leaf .dot :: .leaf .identifier :: later) := by
  intro draft more pendingEq notDot
  have dotRead := Reads.advance pendingEq
  have nameRead := Reads.advance dotRead.pending_eq
  have turn : propertyTurn draft = .again draft.advance.advance := by
    rw [propertyTurn, Draft.take?_of_pending dotRead.pending_eq]
  have loopEq : propertyLoop (turns + 1) draft = propertyLoop turns draft.advance.advance :=
    repeatWhile_of_again (by simp [Draft.kind_of_pending pendingEq]) turn turns
  rw [loopEq]
  exact dotRead.cons (nameRead.cons (recognized _ _ nameRead.pending_eq notDot))

/-- Behind a primary come operators, or what ends the expression. -/
theorem operators_head {turns : Nat} {chain : List Shape}
    (recognized : Recognized limits (.operators levels turns) chain) {more : List Kind}
    (stops : Stops more) :
    (spellingAll chain ++ more).head? ≠ some .dot ∧
      (spellingAll chain ++ more).head? ≠ some .leftParen ∧
      (spellingAll chain ++ more).head? ≠ some .assign := by
  have headCases : ∀ kind, (spellingAll chain ++ more).head? = some kind →
      binaryOperators.contains kind = true ∨ goesOn kind = false := by
    intro kind headEq
    cases spelled : spellingAll chain with
    | nil =>
        rw [spelled] at headEq
        exact Or.inr (stops kind headEq)
    | cons first later =>
        rw [spelled] at headEq
        exact Or.inl (recognized.1 kind (by rw [firstKind?, spelled]; exact headEq))
  refine ⟨?_, ?_, ?_⟩ <;>
    (intro headEq
     exact absurd (headCases _ headEq) (by decide))

theorem recognized_noOperators {turns : Nat} :
    Recognized limits (.operators levels turns) [] := by
  constructor
  · exact fun _ => nofun
  · intro draft more pendingEq stops
    have unwanted : binaryOperators.contains draft.kind = false := by
      rw [draft.kind_eq_head?, show draft.pending = more from pendingEq]
      cases head : more.head? with
      | none => decide
      | some kind => exact (goesOn_facts (stops kind head)).2
    have loopEq : operatorLoop limits levels turns draft = draft :=
      repeatWhile_of_unwanted (by exact unwanted) turns
    rw [loopEq]
    exact ⟨pendingEq, rfl, rfl⟩

theorem recognized_operator {turns : Nat} {kind : Kind} {operand later : List Shape}
    (isOperator : binaryOperators.contains kind = true)
    (operandRecognized : Recognized limits (.primary levels) operand)
    (laterRecognized : Recognized limits (.operators levels turns) later) :
    Recognized limits (.operators levels (turns + 1)) (.leaf kind :: (operand ++ later)) := by
  constructor
  · intro first firstEq
    cases firstEq
    exact isOperator
  · intro draft more pendingEq stops
    have operatorRead := Reads.advance pendingEq
    obtain ⟨notDot, notParen, _⟩ := operators_head laterRecognized stops
    obtain ⟨after, begun, operandRead⟩ := operandRecognized.2 draft.advance _
      (by simpa using operatorRead.pending_eq) notDot notParen
    have turn : operatorTurn limits (statement limits levels) draft = .again after := by
      rw [operatorTurn, begun]
    have loopEq : operatorLoop limits levels (turns + 1) draft =
        operatorLoop limits levels turns after :=
      repeatWhile_of_again (by rw [Draft.kind_of_pending pendingEq]; exact isOperator) turn turns
    rw [loopEq]
    exact operatorRead.cons
      (operandRead.trans (laterRecognized.2 _ _ operandRead.pending_eq stops))

/-! ## Lists -/

omit limits levels in
theorem Listing.closing_facts (listing : Listing) :
    listing.separators.contains listing.closing = false ∧ goesOn listing.closing = false ∧
      listing.closing ≠ .colon ∧ listing.closing ≠ .endOfInput := by
  cases listing <;> decide

omit limits levels in
theorem Listing.stopsElement_closing (listing : Listing) (more : List Kind) :
    listing.StopsElement (listing.closing :: more) := by
  obtain ⟨_, stops, notColon, _⟩ := listing.closing_facts
  exact ⟨stops_cons more stops, fun _ => by simpa using notColon⟩

omit limits levels in
theorem Listing.stopsElement_separator {listing : Listing} {separator : Kind}
    (separates : listing.separators.contains separator = true) (more : List Kind) :
    listing.StopsElement (separator :: more) := by
  have facts : goesOn separator = false ∧ (listing = .entries → separator ≠ .colon) := by
    cases listing <;>
      simp only [separators, commaOnly, arraySeparators, headerSeparators,
        KindSet.contains_ofList, List.contains_cons, List.contains_nil, Bool.or_false,
        Bool.or_eq_true, beq_iff_eq] at separates
    · subst separates
      decide
    · subst separates
      decide
    · rcases separates with rfl | rfl <;> decide
    · rcases separates with rfl | rfl <;> decide
  exact ⟨stops_cons more facts.1, fun isEntries => by simpa using facts.2 isEntries⟩

theorem recognized_element {listing : Listing} {value : List Shape}
    (recognized : Recognized limits (.statement levels) value) :
    Recognized limits (.element listing levels) value := by
  constructor
  · exact recognized.1
  · intro draft more pendingEq stops
    obtain ⟨after, answer, reads⟩ := recognized.2 draft more pendingEq stops.1
    have plain : statementElement (statement limits levels) draft = (true, after) := by
      rw [statementElement, answer]
      rfl
    cases listing with
    | entries =>
        refine ⟨after, ?_, reads⟩
        have notColon : after.take? .colon = none :=
          Draft.take?_eq_none_of_pending (by decide) (by rw [reads.pending_eq]; exact stops.2 rfl)
        rw [Listing.rule, entryElement, answer]
        dsimp only
        rw [notColon]
        rfl
    | arguments => exact ⟨after, plain, reads⟩
    | array => exact ⟨after, plain, reads⟩
    | header => exact ⟨after, plain, reads⟩

theorem recognized_keyedElement {key value : List Shape}
    (keyRecognized : Recognized limits (.statement levels) key)
    (valueRecognized : Recognized limits (.statement levels) value) :
    Recognized limits (.element .entries levels) (key ++ .leaf .colon :: value) := by
  constructor
  · exact keyRecognized.1.append _
  · intro draft more pendingEq stops
    obtain ⟨after, answer, keyRead⟩ := keyRecognized.2 draft
      (.colon :: (spellingAll value ++ more)) (by simpa using pendingEq) (stops_cons _ rfl)
    have colonRead := Reads.advance keyRead.pending_eq
    have valueRead := valueRecognized.place colonRead.pending_eq stops.1
    refine ⟨_, ?_, keyRead.trans (colonRead.cons valueRead)⟩
    rw [Listing.rule, entryElement, answer]
    dsimp only
    rw [Draft.take?_of_pending keyRead.pending_eq]

theorem recognized_noElements {listing : Listing} {turns : Nat} :
    Recognized limits (.list listing levels turns) [] := by
  intro draft more pendingEq
  have loopEq : listing.loop limits levels turns draft = draft :=
    repeatWhile_of_unwanted (by simp [Draft.kind_of_pending pendingEq]) turns
  rw [loopEq]
  exact ⟨pendingEq, rfl, rfl⟩

/-- The first turn of a list that is not empty reads its first element. -/
theorem element_reads {listing : Listing} {first : List Shape}
    (recognized : Recognized limits (.element listing levels) first) {draft : Draft}
    {more : List Kind} (pendingEq : draft.pending = spellingAll first ++ more)
    (stops : listing.StopsElement more) :
    (draft.kind != listing.closing && !draft.atEnd) = true ∧
      Reads first more draft ((listing.rule limits levels).placeOrAdvance draft) := by
  obtain ⟨kind, later, spelled, startsKind⟩ := recognized.1
  obtain ⟨notEnd, notParen, notBracket, notBrace, _⟩ := starts_facts startsKind
  obtain ⟨after, answer, reads⟩ := recognized.2 draft more pendingEq stops
  rw [spelled] at pendingEq
  have kindEq := Draft.kind_of_pending pendingEq
  constructor
  · have notClosing : kind ≠ listing.closing := by
      cases listing
      · exact notParen
      · exact notBracket
      · exact notBrace
      · exact notParen
    simp [kindEq, notClosing, Draft.atEnd_eq_false_of_kind kindEq notEnd]
  · rwa [ElementRule.placeOrAdvance, answer]

theorem recognized_lastElement {listing : Listing} {turns : Nat} {last : List Shape}
    (recognized : Recognized limits (.element listing levels) last) :
    Recognized limits (.list listing levels (turns + 1)) last := by
  intro draft more pendingEq
  obtain ⟨wanted, reads⟩ := element_reads recognized pendingEq (listing.stopsElement_closing more)
  have notTaken : ((listing.rule limits levels).placeOrAdvance draft).takeIn? listing.separators =
      none := by
    rw [Draft.takeIn?_eq_none_iff, Draft.kind_of_pending reads.pending_eq]
    exact listing.closing_facts.1
  have loopEq : listing.loop limits levels (turns + 1) draft =
      (listing.rule limits levels).placeOrAdvance draft :=
    repeatWhile_of_done (by exact wanted) (by rw [separatedTurn, notTaken]) turns
  rwa [loopEq]

theorem recognized_nextElement {listing : Listing} {turns : Nat} {separator : Kind}
    {first later : List Shape}
    (firstRecognized : Recognized limits (.element listing levels) first)
    (separates : listing.separators.contains separator = true)
    (laterRecognized : Recognized limits (.list listing levels turns) later) :
    Recognized limits (.list listing levels (turns + 1)) (first ++ .leaf separator :: later) := by
  intro draft more pendingEq
  obtain ⟨wanted, firstRead⟩ := element_reads firstRecognized
    (by simpa using pendingEq) (Listing.stopsElement_separator separates _)
  have separatorRead := Reads.advance firstRead.pending_eq
  have taken : ((listing.rule limits levels).placeOrAdvance draft).takeIn? listing.separators =
      some ((listing.rule limits levels).placeOrAdvance draft).advance := by
    rw [Draft.takeIn?_eq_some_iff, Draft.kind_of_pending firstRead.pending_eq]
    exact ⟨separates, rfl⟩
  have loopEq : listing.loop limits levels (turns + 1) draft =
      listing.loop limits levels turns
        ((listing.rule limits levels).placeOrAdvance draft).advance :=
    repeatWhile_of_again (by exact wanted) (by rw [separatedTurn, taken]) turns
  rw [loopEq]
  exact firstRead.trans (separatorRead.cons (laterRecognized _ _ separatorRead.pending_eq))

/-- A bracketed list behind its opening token, with its closing token. -/
theorem separated_reads {listing : Listing} {parts : List Shape}
    (recognized : Recognized limits (.list listing levels limits.iterations) parts) {draft : Draft}
    (more : List Kind) (pendingEq : draft.pending = spellingAll parts ++ listing.closing :: more) :
    Reads (parts ++ [.leaf listing.closing]) more draft
      (separated limits listing.construct listing.closing listing.separators
        (listing.rule limits levels) draft) := by
  have listRead := recognized draft more pendingEq
  have separatedEq : separated limits listing.construct listing.closing listing.separators
      (listing.rule limits levels) draft =
      (listing.loop limits levels limits.iterations draft).skip listing.closing := rfl
  rw [separatedEq, Draft.skip_of_pending listRead.pending_eq]
  exact listRead.trans (.advance listRead.pending_eq)

omit levels in
theorem recognized_noNames {turns : Nat} : Recognized limits (.names turns) [] := by
  intro draft more pendingEq
  have loopEq : parameterLoop turns draft = draft :=
    repeatWhile_of_unwanted (by rw [Draft.kind_of_pending pendingEq]; rfl) turns
  rw [loopEq]
  exact ⟨pendingEq, rfl, rfl⟩

omit levels in
theorem recognized_lastName {turns : Nat} :
    Recognized limits (.names (turns + 1)) [.leaf .identifier] := by
  intro draft more pendingEq
  have nameRead := Reads.advance pendingEq
  have notTaken : draft.advance.take? .comma = none :=
    Draft.take?_eq_none_of_pending (by decide) (by simp [nameRead.pending_eq])
  have loopEq : parameterLoop (turns + 1) draft = draft.advance :=
    repeatWhile_of_done (by simp [Draft.kind_of_pending pendingEq])
      (by rw [parameterTurn, notTaken]) turns
  rw [loopEq]
  exact nameRead

omit levels in
theorem recognized_nextName {turns : Nat} {later : List Shape}
    (recognized : Recognized limits (.names turns) later) :
    Recognized limits (.names (turns + 1)) (.leaf .identifier :: .leaf .comma :: later) := by
  intro draft more pendingEq
  have nameRead := Reads.advance pendingEq
  have commaRead := Reads.advance nameRead.pending_eq
  have loopEq : parameterLoop (turns + 1) draft = parameterLoop turns draft.advance.advance :=
    repeatWhile_of_again (by simp [Draft.kind_of_pending pendingEq])
      (by rw [parameterTurn, Draft.take?_of_pending nameRead.pending_eq]) turns
  rw [loopEq]
  exact nameRead.cons (commaRead.cons (recognized _ _ commaRead.pending_eq))

/-! ## Primaries -/

theorem recognized_atom {kind : Kind} {links : List Shape} (isAtom : atoms.contains kind = true)
    (recognized : Recognized limits (.properties limits.chain) links) :
    Recognized limits (.primary levels) (.leaf kind :: links) := by
  constructor
  · exact ⟨kind, spellingAll links, rfl, opensPrimary_of_atom isAtom⟩
  · intro draft more pendingEq notDot notParen
    have atomRead := Reads.advance pendingEq
    have linksRead := recognized _ _ atomRead.pending_eq notDot
    refine ⟨_, ?_, atomRead.cons linksRead⟩
    have notTaken : (propertyChain limits draft.advance).take? .leftParen = none := by
      rw [← linksRead.pending_eq] at notParen
      exact Draft.take?_eq_none_of_pending (by decide) notParen
    rw [primary?, Draft.kind_of_pending pendingEq, if_pos isAtom, atomPrimary]
    rw [notTaken]
    rfl

theorem recognized_call {kind : Kind} {links arguments : List Shape}
    (isAtom : atoms.contains kind = true)
    (linksRecognized : Recognized limits (.properties limits.chain) links)
    (argumentsRecognized :
      Recognized limits (.list .arguments levels limits.iterations) arguments) :
    Recognized limits (.primary levels)
      (.leaf kind :: (links ++ .leaf .leftParen :: (arguments ++ [.leaf .rightParen]))) := by
  constructor
  · exact ⟨kind, _, rfl, opensPrimary_of_atom isAtom⟩
  · intro draft more pendingEq _ _
    have atomRead : Reads [.leaf kind] (spellingAll links ++ .leftParen ::
        (spellingAll arguments ++ .rightParen :: more)) draft draft.advance :=
      .advance (by simpa using pendingEq)
    have linksRead := linksRecognized _ _ atomRead.pending_eq (by simp)
    have parenRead := Reads.advance linksRead.pending_eq
    have listRead := separated_reads argumentsRecognized more parenRead.pending_eq
    refine ⟨_, ?_, atomRead.cons (linksRead.trans (parenRead.cons listRead))⟩
    rw [primary?, Draft.kind_of_pending pendingEq, if_pos isAtom, atomPrimary]
    rw [show propertyChain limits draft.advance = propertyLoop limits.chain draft.advance from rfl,
      Draft.take?_of_pending linksRead.pending_eq]
    rfl

theorem recognized_parenthesized {inner : List Shape}
    (recognized : Recognized limits (.statement levels) inner) :
    Recognized limits (.primary levels) (.leaf .leftParen :: (inner ++ [.leaf .rightParen])) := by
  constructor
  · exact ⟨.leftParen, _, rfl, rfl⟩
  · intro draft more pendingEq _ _
    have parenRead := Reads.advance pendingEq
    have innerRead : Reads inner (.rightParen :: more) _ _ :=
      recognized.place (by simpa using parenRead.pending_eq) (stops_cons more rfl)
    refine ⟨_, ?_, parenRead.cons (innerRead.trans (.advance innerRead.pending_eq))⟩
    rw [primary?, Draft.kind_of_pending pendingEq]
    exact congrArg some (Draft.skip_of_pending innerRead.pending_eq)

/-- A bracketed list that begins a primary. -/
theorem recognized_bracketed {listing : Listing} {opener : Kind} {parts : List Shape}
    (opens : opensPrimary opener = true)
    (begins : ∀ draft : Draft, draft.kind = opener →
      primary? limits (statement limits levels) draft =
        some (separated limits listing.construct listing.closing listing.separators
          (listing.rule limits levels) draft.advance))
    (recognized : Recognized limits (.list listing levels limits.iterations) parts) :
    Recognized limits (.primary levels)
      (.leaf opener :: (parts ++ [.leaf listing.closing])) := by
  constructor
  · exact ⟨opener, _, rfl, opens⟩
  · intro draft more pendingEq _ _
    have openerRead := Reads.advance pendingEq
    have listRead := separated_reads recognized more (by simpa using openerRead.pending_eq)
    exact ⟨_, begins draft (Draft.kind_of_pending pendingEq), openerRead.cons listRead⟩

theorem recognized_listLiteral {entries : List Shape}
    (recognized : Recognized limits (.list .entries levels limits.iterations) entries) :
    Recognized limits (.primary levels)
      (.leaf .leftBracket :: (entries ++ [.leaf .rightBracket])) := by
  apply recognized_bracketed rfl _ recognized
  intro draft kindEq
  rw [primary?, kindEq]
  rfl

theorem recognized_arrayLiteral {elements : List Shape}
    (recognized : Recognized limits (.list .array levels limits.iterations) elements) :
    Recognized limits (.primary levels)
      (.leaf .leftBrace :: (elements ++ [.leaf .rightBrace])) := by
  apply recognized_bracketed rfl _ recognized
  intro draft kindEq
  rw [primary?, kindEq]
  rfl

/-! ## Expressions -/

omit levels in
theorem statementAt_of_opensPrimary (nested : StatementRule) {draft : Draft}
    (opens : opensPrimary draft.kind = true) :
    statementAt limits nested draft = expression limits nested draft := by
  unfold statementAt
  split
  case h_15 => rw [if_neg (by simp [(opensPrimary_facts opens).2])]
  all_goals
    next kindEq =>
      rw [kindEq] at opens
      exact absurd opens (by decide)

theorem recognized_expression {first chain : List Shape}
    (firstRecognized : Recognized limits (.primary levels) first)
    (chainRecognized : Recognized limits (.operators levels limits.chain) chain) :
    Recognized limits (.statement (levels + 1)) [.node .expression (first ++ chain)] := by
  obtain ⟨kind, later, spelled, opens⟩ := firstRecognized.1
  constructor
  · exact ⟨kind, later ++ spellingAll chain, by simp [spelled], (opensPrimary_facts opens).1⟩
  · intro draft more pendingEq stops
    have openedPending : draft.opened.pending =
        spellingAll first ++ (spellingAll chain ++ more) := by
      simpa using pendingEq
    have kindEq : draft.kind = kind := by
      rw [← draft.kind_opened, Draft.kind_of_pending (by rw [openedPending, spelled]; rfl)]
    obtain ⟨notDot, notParen, notAssign⟩ := operators_head chainRecognized stops
    obtain ⟨after, begun, firstRead⟩ := firstRecognized.2 _ _ openedPending notDot notParen
    have chainRead := chainRecognized.2 _ _ firstRead.pending_eq stops
    refine ⟨_, ?_, (firstRead.trans chainRead).closed .expression⟩
    rw [statement, statementAt_of_opensPrimary _ (kindEq ▸ opens), expression, begun]
    dsimp only
    rw [Draft.take?_eq_none_of_pending (by decide) (by rwa [firstRead.pending_eq])]
    rfl

theorem recognized_assignment {target value : List Shape}
    (targetRecognized : Recognized limits (.primary levels) target)
    (valueRecognized : Recognized limits (.statement levels) value) :
    Recognized limits (.statement (levels + 1))
      [.node .assignment (target ++ .leaf .assign :: value)] := by
  obtain ⟨kind, later, spelled, opens⟩ := targetRecognized.1
  have begins : Begins [.node .assignment (target ++ .leaf .assign :: value)] :=
    ⟨kind, later ++ .assign :: spellingAll value, by simp [spelled], (opensPrimary_facts opens).1⟩
  refine ⟨begins, ?_⟩
  intro draft more pendingEq stops
  have openedPending : draft.opened.pending =
      spellingAll target ++ .assign :: (spellingAll value ++ more) := by
    simpa using pendingEq
  have kindEq : draft.kind = kind := by
    rw [← draft.kind_opened, Draft.kind_of_pending (by rw [openedPending, spelled]; rfl)]
  obtain ⟨after, begun, targetRead⟩ :=
    targetRecognized.2 _ _ openedPending (by simp) (by simp)
  have signRead := Reads.advance targetRead.pending_eq
  have valueRead := valueRecognized.place signRead.pending_eq stops
  refine ⟨_, ?_, (targetRead.trans (signRead.cons valueRead)).closed .assignment⟩
  rw [statement, statementAt_of_opensPrimary _ (kindEq ▸ opens), expression, begun]
  dsimp only
  rw [Draft.take?_of_pending targetRead.pending_eq]

end Phrases

end TemplateFrontend.Grammar
