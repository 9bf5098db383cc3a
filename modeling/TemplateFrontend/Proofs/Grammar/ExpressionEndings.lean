import TemplateFrontend.Proofs.Grammar.Endings
import TemplateFrontend.Proofs.KindSet

/-!
Contract: how expressions end.

Owns:
- `Inside`, marks that open nothing since an opening token, and what they say
  about an awaited operand;
- the ending of bracketed lists, of every primary, and of operator chains.
-/

namespace TemplateFrontend.Grammar

/-- What has been placed since `opener` opens nothing. -/
def Inside (opener draft : Draft) : Prop :=
  ∃ added, draft.marks = added ++ opener.marks ∧ ∀ mark ∈ added, isOpening mark = false

theorem Inside.refl (draft : Draft) : Inside draft draft :=
  ⟨[], rfl, fun _ member => absurd member List.not_mem_nil⟩

theorem Inside.trans {first second third : Draft} (front : Inside first second)
    (back : Inside second third) : Inside first third := by
  obtain ⟨frontAdded, frontEq, frontCloses⟩ := front
  obtain ⟨backAdded, backEq, backCloses⟩ := back
  refine ⟨backAdded ++ frontAdded, by rw [backEq, frontEq, List.append_assoc], ?_⟩
  intro mark member
  exact (List.mem_append.mp member).elim (backCloses mark) (frontCloses mark)

theorem Inside.single {opener draft : Draft} {mark : Mark}
    (marksEq : draft.marks = mark :: opener.marks) (closes : isOpening mark = false) :
    Inside opener draft :=
  ⟨[mark], marksEq, by simpa using closes⟩

/-- Tokens that neither open anything nor announce a value. -/
def Closes (kind : Kind) : Prop :=
  kind ≠ .endOfInput ∧ kind ≠ .colon ∧ isOpening (some kind) = false

/-- Inside brackets only the value of a list entry is awaited. A parenthesis
must be that of arguments, which `startsPrimary` tells. -/
theorem expressionAwaits_inside {opener draft : Draft} {kind : Kind} {earlier : List Mark}
    (inside : Inside opener draft) (openerMarks : opener.marks = some kind :: earlier)
    (opening : isOpening (some kind) = true)
    (arguments : kind = .leftParen → startsPrimary earlier = false) :
    expressionAwaits draft.marks =
      (kind == .leftBracket && draft.marks.head? == some (some .colon)) := by
  obtain ⟨added, marksEq, closes⟩ := inside
  rw [marksEq, openerMarks]
  cases added with
  | nil =>
      rcases isOpening_cases opening with rfl | rfl | rfl
      · exact arguments rfl
      · rfl
      · rfl
  | cons mark more =>
      have moreCloses : more.find? isOpening = none := by
        apply List.find?_eq_none.mpr
        intro other member
        simp [closes other (List.mem_cons_of_mem _ member)]
      by_cases announces : mark = some .colon
      · subst announces
        simp [expressionAwaits, List.find?_append, moreCloses, opening, Bool.beq_eq_decide_eq]
      · have notParen : mark ≠ some .leftParen := by
          rintro rfl
          exact absurd (closes _ (List.mem_cons_self ..)) (by decide)
        have notAwaited : expressionAwaits (mark :: more ++ some kind :: earlier) = false := by
          unfold expressionAwaits
          split <;> simp_all
        rw [List.cons_append] at notAwaited ⊢
        rw [notAwaited]
        simp [announces]

section Endings

variable {nested : StatementRule} (limits : Limits) (regular : Regular nested)

/-! ## Bracketed lists -/

/-- A list keeps what its elements, its separators and its closing token keep.
`Ends` says how an element may end. -/
theorem separated_ending {Ends : Draft → Prop} (construct : Construct) (closing : Kind)
    {separators : KindSet} {element : ElementRule}
    (closingCloses : Closes closing)
    (separatorCloses : ∀ kind, separators.contains kind = true → Closes kind)
    (elementEnds : ∀ {current : Draft}, current.atEnd = false →
      Inside current (element.placeOrAdvance current) ∧ Ends (element.placeOrAdvance current))
    (tokenEnds : ∀ {current : Draft}, current.atEnd = false → current.kind ≠ .colon →
      Ends current.advance)
    (tripEnds : ∀ {current : Draft}, Ends current → Ends (current.trip construct))
    {inside : Draft} (begun : Ends inside) :
    Inside inside (separated limits construct closing separators element inside) ∧
      Ends (separated limits construct closing separators element inside) := by
  have token : ∀ {current : Draft}, Closes current.kind →
      Inside current current.advance ∧ Ends current.advance := by
    rintro current ⟨notEndKind, notColon, closes⟩
    have notEnd := Draft.atEnd_eq_false_of_kind rfl notEndKind
    exact ⟨.single (Draft.marks_advance notEnd) closes, tokenEnds notEnd notColon⟩
  have turnKeeps : ∀ current : Draft, (current.kind != closing && !current.atEnd) = true →
      Inside current (separatedTurn separators element current).state ∧
        (Ends current → Ends (separatedTurn separators element current).state) := by
    intro current wanted
    have notEnd : current.atEnd = false := by
      simp only [Bool.and_eq_true, Bool.not_eq_true'] at wanted
      exact wanted.2
    obtain ⟨elementInside, ends⟩ := elementEnds notEnd
    unfold separatedTurn
    dsimp only
    split
    · next next taken =>
        obtain ⟨separates, rfl⟩ := Draft.takeIn?_eq_some_iff.mp taken
        obtain ⟨tokenInside, tokenEnded⟩ := token (separatorCloses _ separates)
        exact ⟨elementInside.trans tokenInside, fun _ => tokenEnded⟩
    · exact ⟨elementInside, fun _ => ends⟩
  have tripKeeps : ∀ current : Draft, (current.kind != closing && !current.atEnd) = true →
      Inside current (current.trip construct) ∧
        (Ends current → Ends (current.trip construct)) :=
    fun current _ => ⟨.refl current, tripEnds⟩
  obtain ⟨elementsInside, keep⟩ := repeatWhile_related
    (fun before after : Draft => Inside before after ∧ (Ends before → Ends after))
    (fun draft => ⟨.refl draft, id⟩) (fun front back => ⟨front.1.trans back.1, back.2 ∘ front.2⟩)
    turnKeeps tripKeeps limits.iterations inside
  unfold separated
  dsimp only
  generalize repeatWhile _ _ _ _ inside = last at elementsInside keep ⊢
  by_cases closes : last.kind = closing
  · rw [Draft.skip_of_kind closes]
    obtain ⟨tokenInside, tokenEnded⟩ := token (closes ▸ closingCloses)
    exact ⟨elementsInside.trans tokenInside, tokenEnded⟩
  · rw [Draft.skip_of_kind_ne closes]
    exact ⟨elementsInside, keep begun⟩

theorem commaOnly_closes (kind : Kind) (separates : commaOnly.contains kind = true) :
    Closes kind := by
  obtain rfl : kind = .comma := by simpa [commaOnly] using separates
  exact ⟨by decide, by decide, rfl⟩

theorem arraySeparators_closes (kind : Kind) (separates : arraySeparators.contains kind = true) :
    Closes kind := by
  obtain rfl | rfl : kind = .comma ∨ kind = .semicolon := by
    simpa [arraySeparators] using separates
  · exact ⟨by decide, by decide, rfl⟩
  · exact ⟨by decide, by decide, rfl⟩

/-- A draft whose last mark is a colon is waiting; any other one is clean. -/
abbrev EndsAsEntry (nested : StatementRule) (draft : Draft) : Prop :=
  EndsAs nested (draft.marks.head? == some (some .colon)) draft

include regular

theorem statement_element_ending {current : Draft} (notEnd : current.atEnd = false) :
    Inside current ((statementElement nested).placeOrAdvance current) ∧
      ((statementElement nested).placeOrAdvance current).Clean := by
  rw [statementElement_placeOrAdvance]
  obtain ⟨clean, mark, marksEq, markCases⟩ := placeOrAdvance_cases regular notEnd
  refine ⟨.single marksEq ?_, clean⟩
  rcases markCases with rfl | ⟨_, closes⟩
  · rfl
  · exact closes

theorem value_ending {current key : Draft} (inside : Inside current key)
    (kindEq : key.kind = .colon) :
    Inside current (nested.place key.advance) ∧ EndsAsEntry nested (nested.place key.advance) := by
  obtain ⟨colonMarks, colonClean⟩ := Draft.advance_marks (by decide) kindEq
  have insideColon : Inside current key.advance := inside.trans (.single colonMarks rfl)
  rcases regular.place_cases colonClean with ⟨_, marksEq, placed⟩ | ⟨_, marksEq, placed⟩
  · exact ⟨insideColon.trans (.single marksEq rfl), .of_clean placed (by rw [marksEq]; rfl)⟩
  · refine ⟨insideColon.trans ⟨[], marksEq, fun _ member => absurd member List.not_mem_nil⟩, ?_⟩
    exact .of_waiting placed (by rw [marksEq, colonMarks]; rfl)

/-- An entry waits after its colon, and ends clean otherwise. -/
theorem entry_element_ending {current : Draft} (notEnd : current.atEnd = false) :
    Inside current ((entryElement nested).placeOrAdvance current) ∧
      EndsAsEntry nested ((entryElement nested).placeOrAdvance current) := by
  unfold ElementRule.placeOrAdvance entryElement
  rcases regular.answers notEnd with answer | ⟨result, kind, parts, answer, placedEq⟩
  · rw [answer]
    dsimp only
    cases taken : current.settle.take? .colon with
    | some afterColon =>
        obtain ⟨kindEq, rfl⟩ := Draft.take?_eq_some_iff.mp taken
        exact value_ending regular ⟨[], current.marks_settle, fun _ => nofun⟩ kindEq
    | none =>
        have notColon := Draft.take?_eq_none_iff.mp taken
        have settledNotEnd := current.atEnd_settle.trans notEnd
        have marksEq := Draft.marks_advance settledNotEnd
        rw [current.kind_settle] at notColon marksEq
        rw [current.marks_settle] at marksEq
        refine ⟨.single marksEq (regular.opens (by rw [answer])), ?_⟩
        exact .of_clean (Draft.clean_advance settledNotEnd) (by simp [marksEq, notColon])
  · have marksEq : result.marks = none :: current.marks := by
      rw [Draft.marks, placedEq, Outline.marks_cons (.node kind parts) _ rfl]
      exact congrArg (none :: ·) current.marks_settle
    rw [answer]
    dsimp only
    cases taken : result.take? .colon with
    | some afterColon =>
        obtain ⟨kindEq, rfl⟩ := Draft.take?_eq_some_iff.mp taken
        exact value_ending regular (.single marksEq rfl) kindEq
    | none =>
        show Inside current result ∧ EndsAsEntry nested result
        refine ⟨.single marksEq rfl, ?_⟩
        exact .of_clean (Draft.clean_cons placedEq rfl) (by rw [marksEq]; rfl)

theorem statements_ending (construct : Construct) (closing : Kind) {separators : KindSet}
    (closingCloses : Closes closing)
    (separatorCloses : ∀ kind, separators.contains kind = true → Closes kind)
    {inside : Draft} (clean : inside.Clean) :
    Inside inside (separated limits construct closing separators (statementElement nested) inside) ∧
      (separated limits construct closing separators (statementElement nested) inside).Clean :=
  separated_ending limits construct closing closingCloses separatorCloses
    (statement_element_ending regular) (fun notEnd _ => Draft.clean_advance notEnd) id clean

/-! ## Primaries and operators -/

theorem Regular.waiting_trip {draft : Draft} (waiting : draft.Waiting nested)
    (construct : Construct) : (draft.trip construct).Waiting nested where
  settled notEnd := waiting.settled notEnd
  misses notEnd := by
    have sameKind : (draft.trip construct).kind = draft.kind := Draft.kind_congr rfl
    rw [regular.decided sameKind]
    exact waiting.misses notEnd
  clean isEnd := waiting.clean isEnd

theorem endsAs_trip {awaited : Bool} {draft : Draft} (ends : EndsAs nested awaited draft)
    (construct : Construct) : EndsAs nested awaited (draft.trip construct) :=
  ends.imp (And.imp_right fun waiting => regular.waiting_trip waiting construct) id

theorem entries_ending {inside : Draft} (begins : EndsAsEntry nested inside) :
    Inside inside
        (separated limits .listLiteral .rightBracket commaOnly (entryElement nested) inside) ∧
      EndsAsEntry nested
        (separated limits .listLiteral .rightBracket commaOnly (entryElement nested) inside) := by
  have tokenEnds : ∀ {current : Draft}, current.atEnd = false → current.kind ≠ .colon →
      EndsAsEntry nested current.advance := by
    intro current notEnd notColon
    apply EndsAs.of_clean (Draft.clean_advance notEnd)
    simp [Draft.marks_advance notEnd, notColon]
  exact separated_ending limits .listLiteral .rightBracket ⟨by decide, by decide, rfl⟩
    commaOnly_closes (entry_element_ending regular) tokenEnds
    (fun ends => endsAs_trip regular ends _) begins

omit regular in
theorem expressionAwaits_token {kind : Kind} {earlier : List Mark} (notParen : kind ≠ .leftParen)
    (notColon : kind ≠ .colon) : expressionAwaits (some kind :: earlier) = false := by
  unfold expressionAwaits
  split <;> simp_all

omit regular in
/-- Names and literals open nothing, announce nothing, and are no operators. -/
theorem nameKind_facts {kind : Kind} (isName : atoms.contains kind = true ∨ kind = .dot) :
    kind ≠ .leftParen ∧ kind ≠ .colon ∧ binaryOperators.contains kind = false := by
  have listed : kind ∈ [Kind.identifier, .string, .number, .boolean, .null, .empty, .dot] := by
    simpa [atoms, or_assoc] using isName
  simp only [List.mem_cons, List.not_mem_nil, or_false] at listed
  rcases listed with rfl | rfl | rfl | rfl | rfl | rfl | rfl <;> decide

omit regular in
theorem operator_facts {kind : Kind} (isOperator : binaryOperators.contains kind = true) :
    kind ≠ .endOfInput ∧ kind ≠ .leftParen ∧ kind ≠ .colon := by
  refine ⟨?_, ?_, ?_⟩ <;> (rintro rfl; revert isOperator; decide)

omit regular in
/-- A clean draft whose last mark is that of a name, a literal or a dot. -/
def EndsInName (draft : Draft) : Prop :=
  (∃ kind earlier, draft.marks = some kind :: earlier ∧
    (atoms.contains kind = true ∨ kind = .dot)) ∧ draft.Clean

omit regular in
theorem endsInName_advance {draft : Draft}
    (isName : atoms.contains draft.kind = true ∨ draft.kind = .dot) :
    EndsInName draft.advance := by
  have notEnd : draft.atEnd = false := by
    rcases isName with isAtom | isDot
    · exact Draft.atEnd_eq_false_of_contains isAtom (by decide)
    · exact Draft.atEnd_eq_false_of_kind isDot (by decide)
  exact ⟨⟨draft.kind, draft.marks, Draft.marks_advance notEnd, isName⟩, Draft.clean_advance notEnd⟩

omit regular in
theorem EndsInName.propertyChain {draft : Draft} (ends : EndsInName draft) :
    EndsInName (propertyChain limits draft) := by
  have turnEnds : ∀ current : Draft, (current.kind == .dot) = true →
      EndsInName (propertyTurn current).state := by
    intro current wanted
    unfold propertyTurn
    dsimp only
    split
    · next next taken =>
        obtain ⟨kindEq, rfl⟩ := Draft.take?_eq_some_iff.mp taken
        exact endsInName_advance (Or.inl (by rw [kindEq]; decide))
    · exact endsInName_advance (Or.inr (by simpa using wanted))
  refine repeatWhile_related (fun before after : Draft => EndsInName before → EndsInName after)
    (fun _ => id) (fun front back => back ∘ front) (fun current wanted _ => turnEnds current wanted)
    (fun _ _ currentEnds => ?_) limits.chain draft ends
  exact currentEnds

theorem atomPrimary_ending {draft : Draft} (isAtom : atoms.contains draft.kind = true) :
    EndsAs nested (expressionAwaits (atomPrimary limits nested draft).marks)
      (atomPrimary limits nested draft) := by
  obtain ⟨⟨kind, earlier, marksEq, isName⟩, clean⟩ :=
    (endsInName_advance (Or.inl isAtom)).propertyChain limits
  obtain ⟨notParen, notColon, notOperator⟩ := nameKind_facts isName
  unfold atomPrimary
  dsimp only
  split
  · next inside taken =>
      obtain ⟨insideMarks, insideClean⟩ := Draft.take?_marks (by decide) taken
      obtain ⟨listInside, listClean⟩ := statements_ending limits regular
        .argumentList .rightParen ⟨by decide, by decide, rfl⟩
        commaOnly_closes insideClean
      apply EndsAs.of_clean listClean
      rw [marksEq] at insideMarks
      rw [expressionAwaits_inside listInside insideMarks rfl fun _ => notOperator]
      rfl
  · exact .of_clean clean (by rw [marksEq, expressionAwaits_token notParen notColon])

theorem parenthesized_ending {draft : Draft} (kindEq : draft.kind = .leftParen)
    (starts : startsPrimary draft.marks = true) :
    EndsAs nested (expressionAwaits (parenthesized nested draft).marks)
      (parenthesized nested draft) := by
  obtain ⟨openMarks, openClean⟩ := Draft.advance_marks (by decide) kindEq
  unfold parenthesized
  by_cases closes : (nested.place draft.advance).kind = .rightParen
  · obtain ⟨closedMarks, closedClean⟩ := Draft.advance_marks (by decide) closes
    rw [Draft.skip_of_kind closes]
    apply EndsAs.of_clean closedClean
    rw [closedMarks]
    rfl
  · rw [Draft.skip_of_kind_ne closes]
    apply endsAs_place regular openClean expressionAwaits
    · rfl
    · rw [openMarks]
      exact starts

/-- Every primary ends waiting or clean, as its marks tell. -/
theorem primary_ending {draft first : Draft} (begun : primary? limits nested draft = some first)
    (starts : startsPrimary draft.marks = true) :
    EndsAs nested (expressionAwaits first.marks) first := by
  unfold primary? at begun
  split at begun
  · next isAtom =>
      cases begun
      exact atomPrimary_ending limits regular isAtom
  · split at begun
    · next kindEq =>
        cases begun
        exact parenthesized_ending regular kindEq starts
    · next kindEq =>
        cases begun
        obtain ⟨openMarks, openClean⟩ := Draft.advance_marks (by decide) kindEq
        have begins : EndsAsEntry nested draft.advance :=
          .of_clean openClean (by rw [openMarks]; rfl)
        obtain ⟨listInside, listEnds⟩ := entries_ending limits regular begins
        rw [listLiteral, expressionAwaits_inside listInside openMarks rfl nofun]
        exact listEnds
    · next kindEq =>
        cases begun
        obtain ⟨openMarks, openClean⟩ := Draft.advance_marks (by decide) kindEq
        obtain ⟨listInside, listClean⟩ := statements_ending limits regular
          .arrayLiteral .rightBrace ⟨by decide, by decide, rfl⟩
          arraySeparators_closes openClean
        apply EndsAs.of_clean listClean
        rw [arrayLiteral, expressionAwaits_inside listInside openMarks rfl nofun]
        rfl
    · cases begun

theorem operatorChain_ending {draft : Draft}
    (ends : EndsAs nested (expressionAwaits draft.marks) draft) :
    EndsAs nested (expressionAwaits (operatorChain limits nested draft).marks)
      (operatorChain limits nested draft) := by
  have turnEnds : ∀ current : Draft, binaryOperators.contains current.kind = true →
      EndsAs nested (expressionAwaits (operatorTurn limits nested current).state.marks)
        (operatorTurn limits nested current).state := by
    intro current isOperator
    obtain ⟨notEndKind, notParen, notColon⟩ := operator_facts isOperator
    obtain ⟨operatorMarks, operatorClean⟩ := Draft.advance_marks notEndKind rfl
    unfold operatorTurn
    dsimp only
    split
    · next next begun =>
        exact primary_ending limits regular begun (by rw [operatorMarks]; exact isOperator)
    · apply EndsAs.of_clean operatorClean
      show expressionAwaits current.advance.marks = false
      rw [operatorMarks, expressionAwaits_token notParen notColon]
  exact repeatWhile_related
    (fun before after : Draft => EndsAs nested (expressionAwaits before.marks) before →
      EndsAs nested (expressionAwaits after.marks) after)
    (fun _ => id) (fun front back => back ∘ front) (fun current wanted _ => turnEnds current wanted)
    (fun _ _ currentEnds => endsAs_trip regular currentEnds .operatorChain) limits.chain draft ends

end Endings

end TemplateFrontend.Grammar
