import TemplateFrontend.Proofs.Recording.Actions

/-!
Contract: every rule of the grammar, as an action on a recorder, does what it does
to drafts.

Owns:
- one lemma for each rule;
- `performs_statement`, which joins them by induction on the levels of nesting.

The ceilings have to be words. Where it is not cramped, no number of open braces and no
depth leaves the words either.
-/

namespace TemplateFrontend

/-- Every ceiling is a word. -/
structure Limits.AreWords (limits : Limits) : Prop where
  depth : limits.depth ≤ Limits.greatest
  iterations : limits.iterations ≤ Limits.greatest
  chain : limits.chain ≤ Limits.greatest
  regionIterations : limits.regionIterations ≤ Limits.greatest
  topLevelIterations : limits.topLevelIterations ≤ Limits.greatest

namespace Record

open Outline (stepsAll)
open Grammar (ElementRule Proceeds Region StatementRule Turn branch regionLoop
  statementElement)

variable {cramped : Prop} {height : Nat} {limits : Limits}

/-! ## Lists -/

section Elements

variable {element : Record Unit} {rule : ElementRule}
  (performs : Performs cramped height element (fun draft => (rule draft).2))
  (proceeds : ∀ draft, Proceeds draft (rule draft))

include performs proceeds

/-- Positions tell whether the element has recorded a significant token. -/
theorem performsAhead_elementOrAdvance :
    PerformsAhead cramped height (elementOrAdvance element) rule.placeOrAdvance := by
  intro frame armed recorder draft heightEq represents notEnd
  apply Yields.observe_bind
  apply (performs heightEq represents).bind
  intro _ after (representsAfter : Represents cramped 0 frame armed after (rule draft).2)
  apply Yields.observe_bind
  have stayed := (proceeds draft).offset_eq_iff represents.tiled notEnd
  rw [representsAfter.start_eq, represents.start_eq]
  unfold ElementRule.placeOrAdvance
  generalize rule draft = answer at representsAfter stayed ⊢
  rcases answer with ⟨_ | _, placed⟩
  · rw [if_pos (stayed.mpr rfl)]
    exact performs_advance heightEq representsAfter
  · rw [if_neg (by simp [stayed])]
    exact .pure representsAfter

theorem performs_delimited (words : limits.AreWords) (closing : Kind)
    (notEnd : closing ≠ .endOfInput) (separators : KindSet)
    (noEnd : separators.contains .endOfInput = false) (construct : Construct) :
    Performs cramped height (delimited limits closing separators construct element)
      (Grammar.separated limits construct closing separators rule) := by
  have loop := performs_repeatTurns (fun ahead => ahead != closing && ahead != .endOfInput)
    (by simp) construct words.iterations (performsAhead_elementOrAdvance performs proceeds)
    (tries_eatIn noEnd)
  simp only [← Grammar.separatedTurn_eq_behind] at loop
  exact loop.andThen (performs_skip notEnd)

end Elements

section Nested

variable {nested : Record Bool} {rule : StatementRule}
  (performs : PerformsStatement cramped height nested rule)
  (proceeds : ∀ draft, Proceeds draft (statementElement rule draft))

include performs

theorem performs_place : Performs cramped height (ignore nested) rule.place := by
  intro frame armed recorder draft heightEq represents
  apply (performs heightEq represents).bind
  rintro found after ⟨_, representsAfter⟩
  exact .pure representsAfter

theorem performs_entry :
    Performs cramped height (entry nested) (fun draft => (Grammar.entryElement rule draft).2) := by
  have entryEq : (fun draft => (Grammar.entryElement rule draft).2) = fun draft =>
      branch .colon rule.place (fun key => key) (rule.place draft) := by
    funext draft
    unfold Grammar.entryElement branch StatementRule.place
    dsimp only
    cases (rule draft).2.take? .colon <;> rfl
  rw [entryEq]
  exact (performs_place performs).andThen
    (performs_branch (by decide) (performs_place performs) performs_nothing)

include proceeds

theorem performsAhead_statementOrAdvance :
    PerformsAhead cramped height (statementOrAdvance nested) rule.placeOrAdvance := by
  intro frame armed recorder draft heightEq represents notEnd
  apply Yields.observe_bind
  apply (performs heightEq represents).bind
  rintro found after ⟨rfl, representsAfter⟩
  apply Yields.observe_bind
  have stayed := (proceeds draft).offset_eq_iff represents.tiled notEnd
  unfold statementElement at stayed
  rw [representsAfter.start_eq, represents.start_eq]
  unfold StatementRule.placeOrAdvance
  generalize rule draft = answer at representsAfter stayed ⊢
  rcases answer with ⟨_ | _ | _, placed⟩
  case node => exact .pure representsAfter
  case nothing =>
    have same : placed.offset = draft.offset := stayed.mpr rfl
    rw [if_pos (by simp [same])]
    exact performs_advance heightEq representsAfter
  case skipped =>
    have moved : placed.offset ≠ draft.offset := by simpa using stayed
    rw [if_neg (by simp [moved])]
    exact .pure representsAfter

end Nested

/-! ## Rules that call no nested statement -/

section Plain

variable (words : limits.AreWords)

include words

theorem performs_propertyChain :
    Performs cramped height (propertyChain limits) (Grammar.propertyChain limits) := by
  have loop : Performs cramped height (propertyChain limits) _ :=
    performs_repeatTurns (· == .dot) rfl .propertyChain words.chain opens_advance.ahead
      (tries_eat .identifier (by decide))
  simp only [← Grammar.propertyTurn_eq_behind] at loop
  exact loop

theorem performs_parameterList :
    Performs cramped height (parameterList limits) (Grammar.parameterList limits) := by
  have loop : Performs cramped height (parameterList limits) _ :=
    performs_repeatTurns (· == .identifier) rfl .parameterList words.iterations
      opens_advance.ahead (tries_eat .comma (by decide))
  simp only [← Grammar.parameterTurn_eq_behind] at loop
  exact loop

theorem performs_parameters :
    Performs cramped height (parameters limits) (Grammar.parameters limits) :=
  performs_branch (by decide)
    ((performs_parameterList words).andThen (performs_skip (by decide))) performs_nothing

end Plain

/-! ## Expressions -/

section Expressions

variable {nested : Record Bool} {rule : StatementRule} (words : limits.AreWords)
  (performs : PerformsStatement cramped height nested rule)
  (proceeds : ∀ draft, Proceeds draft (statementElement rule draft))

include performs

theorem opens_parenthesized :
    Opens cramped height (parenthesized nested) (Grammar.parenthesized rule) :=
  opens_advance.andThen ((performs_place performs).andThen (performs_skip (by decide)))

include words proceeds

theorem opens_atomPrimary :
    Opens cramped height (atomPrimary limits nested) (Grammar.atomPrimary limits rule) := by
  have argumentList := performs_delimited (performs_place performs) proceeds words .rightParen
    (by decide) Grammar.commaOnly (by decide) .argumentList
  exact opens_advance.andThen ((performs_propertyChain words).andThen
    (performs_branch (by decide) argumentList performs_nothing))

theorem opens_listLiteral :
    Opens cramped height (listLiteral limits nested) (Grammar.listLiteral limits rule) :=
  opens_advance.andThen (performs_delimited (performs_entry performs)
    (Grammar.entryElement_proceeds proceeds) words _ (by decide) _ (by decide) _)

theorem opens_arrayLiteral :
    Opens cramped height (arrayLiteral limits nested) (Grammar.arrayLiteral limits rule) :=
  opens_advance.andThen
    (performs_delimited (performs_place performs) proceeds words _ (by decide) _ (by decide) _)

/-- A primary records its first token before anything else. -/
theorem tries_primary :
    Tries cramped height (primary limits nested) (Grammar.primary? limits rule) := by
  intro frame armed recorder draft heightEq represents
  apply Yields.observe_bind
  rw [represents.kind_eq]
  split
  · next isAtom =>
      rw [Grammar.primary?, if_pos isAtom]
      exact (opens_atomPrimary words performs proceeds).found heightEq represents
        (Draft.atEnd_eq_false_of_contains isAtom (by decide))
  · next notAtom =>
      split
      · next kindEq =>
          rw [Grammar.primary?, if_neg notAtom, kindEq]
          exact (opens_parenthesized performs).found heightEq represents
            (Draft.atEnd_eq_false_of_kind kindEq (by decide))
      · next kindEq =>
          rw [Grammar.primary?, if_neg notAtom, kindEq]
          exact (opens_listLiteral words performs proceeds).found heightEq represents
            (Draft.atEnd_eq_false_of_kind kindEq (by decide))
      · next kindEq =>
          rw [Grammar.primary?, if_neg notAtom, kindEq]
          exact (opens_arrayLiteral words performs proceeds).found heightEq represents
            (Draft.atEnd_eq_false_of_kind kindEq (by decide))
      · rw [Grammar.primary?, if_neg notAtom]
        split
        case h_4 => exact .pure .missed
        all_goals contradiction

theorem performs_operatorChain :
    Performs cramped height (operatorChain limits nested) (Grammar.operatorChain limits rule) := by
  have loop := performs_repeatTurns Grammar.binaryOperators.contains (by decide) .operatorChain
    words.chain opens_advance.ahead (tries_primary words performs proceeds)
  simp only [← Grammar.operatorTurn_eq_behind] at loop
  exact loop

end Expressions

/-! ## Nodes -/

/-- A node around what an action records that opens with a token. -/
theorem yields_node {body : Record Unit} {rule : Draft → Draft}
    (opens : Opens cramped (height + 1) body rule) {kind : Kind} (ofNode : kind ≠ .tombstone)
    {frame : List BuildStep} {armed : List Nat} {recorder : Recorder} {draft : Draft}
    (heightEq : armed.length = height)
    (represents : Represents cramped 0 frame armed recorder draft) (notEnd : draft.atEnd = false) :
    (node kind body).Yields cramped recorder fun found after => found = true ∧
      Represents cramped 0 frame armed after (draft.node kind rule) := by
  apply (represents.start notEnd).bind
  rintro marker started ⟨earlier, marks, _, representsOpened⟩
  have insideHeight : (marker.serial :: armed).length = height + 1 := by simp [heightEq]
  apply (opens insideHeight representsOpened (draft.atEnd_opened.trans notEnd)).bind
  intro _ _ representsInside
  apply (representsInside.complete marks represents.enclosed ofNode).bind
  intro _ _ representsAfter
  exact .pure ⟨rfl, representsAfter⟩

section Marked

variable {nested : Record Bool} {rule : StatementRule} (words : limits.AreWords)
  (performs : PerformsStatement cramped (height + 1) nested rule)
  (proceeds : ∀ draft, Proceeds draft (statementElement rule draft))

include words performs proceeds

/-- What follows the first primary ends the node of the marker. -/
theorem yields_operation {marker : Marker} {around : List Outline} {frame earlier : List BuildStep}
    {armed : List Nat} {recorder : Recorder} {first : Draft} (heightEq : armed.length = height)
    (enclosed : armed ≠ []) (marks : Marks cramped frame earlier around marker)
    (represents : Represents cramped 0 (earlier ++ [.start .tombstone]) (marker.serial :: armed)
      recorder first) :
    (operation limits nested marker).Yields cramped recorder fun _ after =>
      Represents cramped 0 frame armed after (match first.take? .assign with
        | some afterSign => (rule.place afterSign).closed .assignment around
        | none => (Grammar.operatorChain limits rule first).closed .expression around) := by
  have insideHeight : (marker.serial :: armed).length = height + 1 := by simp [heightEq]
  have assigns : (eat .assign).Yields cramped recorder
      (Found cramped _ _ recorder (first.take? .assign)) :=
    tries_eat _ (by decide) insideHeight (represents.mono (Nat.zero_le 2))
  apply assigns.bind
  intro found between holds
  generalize first.take? .assign = taken at holds
  cases holds with
  | found representsSign =>
      apply (performs_place performs insideHeight representsSign).bind
      intro _ _ representsValue
      exact representsValue.complete marks enclosed (by decide)
  | missed =>
      apply (performs_operatorChain words performs proceeds insideHeight represents).bind
      intro _ _ representsChain
      exact representsChain.complete marks enclosed (by decide)

theorem yields_expression {frame : List BuildStep} {armed : List Nat} {recorder : Recorder}
    {draft : Draft} (heightEq : armed.length = height)
    (represents : Represents cramped 0 frame armed recorder draft) (notEnd : draft.atEnd = false) :
    (expression limits nested).Yields cramped recorder fun found after =>
      found = ((Grammar.expression limits rule draft).1 == .node) ∧
        Represents cramped 0 frame armed after (Grammar.expression limits rule draft).2 := by
  apply (represents.start notEnd).bind
  rintro marker started ⟨earlier, marks, stepsEq, representsOpened⟩
  have insideHeight : (marker.serial :: armed).length = height + 1 := by simp [heightEq]
  apply (tries_primary words performs proceeds insideHeight representsOpened).bind
  intro found between holds
  unfold Grammar.expression
  dsimp only
  generalize Grammar.primary? limits rule draft.opened = begun at holds
  cases holds with
  | @found first _ representsFirst =>
      apply (yields_operation words performs proceeds heightEq represents.enclosed marks
        representsFirst).bind
      intro _ _ representsAfter
      apply Yields.pure
      dsimp only
      cases taken : first.take? .assign <;> rw [taken] at representsAfter <;>
        exact ⟨rfl, representsAfter⟩
  | missed =>
      apply (representsOpened.abandon marks represents.enclosed stepsEq).bind
      intro _ _ representsAfter
      exact .pure ⟨rfl, representsAfter⟩

end Marked

/-! ## Markup blocks -/

section Markup

variable {nested : Record Bool} {rule : StatementRule} (words : limits.AreWords)
  (performs : PerformsStatement cramped height nested rule)
  (proceeds : ∀ draft, Proceeds draft (statementElement rule draft))

/-- Recorder and draft in a region. Every open brace but the first has taken a token that
has had room for three steps. -/
structure InRegion (cramped : Prop) (frame : List BuildStep) (armed : List Nat) (braces : Nat)
    (region : Region) (recorder : Recorder) : Prop where
  represents : Represents cramped 0 frame armed recorder region.draft
  braces_eq : region.braces = braces
  open_braces : 1 ≤ braces
  room : cramped ∨ 3 * braces + stepRoom region.draft.rest ≤ UInt32.size + 4

/-- A region begins with one open brace. -/
theorem InRegion.first {frame : List BuildStep} {armed : List Nat} {recorder : Recorder}
    {draft : Draft} (represents : Represents cramped 0 frame armed recorder draft) :
    InRegion cramped frame armed 1 ⟨1, draft⟩ recorder := by
  have enclosed := List.length_pos_iff.mpr represents.enclosed
  have armedLe := represents.armed_le
  refine ⟨represents, rfl, Nat.le_refl 1, represents.room.imp_right fun room => ?_⟩
  dsimp only
  omega

include performs proceeds

theorem yields_regionTurn {frame : List BuildStep} {armed : List Nat} {recorder : Recorder}
    {braces : Nat} {region : Region} (heightEq : armed.length = height)
    (inRegion : InRegion cramped frame armed braces region recorder)
    (notEnd : region.draft.atEnd = false) :
    (regionTurn nested braces).Yields cramped recorder fun next after =>
      TurnLeaves (InRegion cramped frame armed)
        (fun last after => Represents cramped 0 frame armed after last.draft) next
        (Grammar.regionTurn rule region) after := by
  obtain ⟨represents, bracesEq, openBraces, room⟩ := inRegion
  have advanceRoom : cramped ∨
      3 * braces + stepRoom region.draft.advance.rest + 3 ≤ UInt32.size + 4 := by
    obtain ⟨token, later, next⟩ := Draft.exists_nextIs notEnd
    refine room.imp_right fun room => ?_
    rw [next.stepRoom_eq] at room
    rw [next.advance_eq]
    dsimp only
    omega
  apply Yields.observe_bind
  rw [represents.kind_eq]
  split
  · next kindEq =>
      rw [Grammar.regionTurn, kindEq]
      have sizeEq : UInt32.size = 4294967296 := rfl
      have greatestEq : Limits.greatest = 4294967295 := rfl
      apply Yields.add_bind (room.imp_right fun room => by omega)
      apply (performs_advance heightEq represents).bind
      intro _ after representsAfter
      apply Yields.pure
      apply TurnLeaves.again
      exact ⟨representsAfter, congrArg (· + 1) bracesEq, by omega,
        advanceRoom.imp_right fun room => by dsimp only; omega⟩
  · next kindEq =>
      rw [Grammar.regionTurn, kindEq]
      apply Yields.lift_bind (Word.sub_of_le openBraces)
      apply (performs_advance heightEq represents).bind
      intro _ after representsAfter
      apply Yields.pure
      rw [bracesEq]
      by_cases last : braces ≤ 1
      · rw [if_pos (by omega), if_pos last]
        exact .done representsAfter
      · rw [if_neg (by omega), if_neg last]
        apply TurnLeaves.again
        exact ⟨representsAfter, rfl, by omega,
          advanceRoom.imp_right fun room => by dsimp only; omega⟩
  · rw [Grammar.regionTurn]
    split
    case h_1 => contradiction
    case h_2 => contradiction
    case h_3 =>
      apply (performsAhead_statementOrAdvance performs proceeds heightEq represents notEnd).bind
      intro _ after representsAfter
      have onward : region.draft.Onward (rule.placeOrAdvance region.draft) :=
        .of_path (Grammar.path_placeOrAdvance (fun draft => (proceeds draft).onward) region.draft)
      have noMore := stepRoom_le_of_suffix onward.rest_suffix
      apply Yields.pure
      apply TurnLeaves.again
      exact ⟨representsAfter, bracesEq, openBraces,
        room.imp_right fun room => by dsimp only; omega⟩

include words

theorem performs_regionBody :
    Performs cramped height (regionBody limits nested) (Grammar.regionBody limits rule) := by
  intro frame armed recorder draft heightEq represents
  apply yields_repeatTurns (InRegion cramped frame armed)
    (fun last after => Represents cramped 0 frame armed after last.draft) words.regionIterations
  case wantedEq =>
    intro braces region current inRegion
    rw [inRegion.represents.kind_eq]
    rfl
  case stops => exact fun inRegion => inRegion.represents
  case trips => exact fun inRegion => inRegion.represents.trip .markupRegion
  case turns =>
    intro braces region current inRegion goesOn
    exact yields_regionTurn performs proceeds heightEq inRegion (by simpa using goesOn)
  case sum => exact Nat.zero_add _
  case holds => exact .first represents

theorem opens_markupParts :
    Opens cramped height (markupParts limits nested) (Grammar.templateParts limits rule) := by
  have body := performs_regionBody words performs proceeds
  intro frame armed recorder draft heightEq represents notEnd
  apply Yields.observe_bind
  rw [represents.kind_eq]
  split
  · next kindEq =>
      rw [Grammar.templateParts, kindEq]
      exact (opens_advance.andThen (performs_skip (by decide))) heightEq represents notEnd
  · next kindEq =>
      rw [Grammar.templateParts, kindEq]
      exact (opens_advance.andThen (performs_branch (by decide) body performs_nothing)) heightEq
        represents notEnd
  · rw [Grammar.templateParts]
    split
    case h_3 => exact (opens_advance.andThen body) heightEq represents notEnd
    all_goals contradiction

end Markup

/-! ## Statements -/

section Bodies

variable {nested : Record Bool} {rule : StatementRule}
  (performs : PerformsStatement cramped height nested rule)

include performs

theorem performs_condition :
    Performs cramped height (condition nested) (Grammar.condition rule) :=
  performs_branch (by decide) ((performs_place performs).andThen (performs_skip (by decide)))
    performs_nothing

theorem opens_ifBody :
    Opens cramped height (ifBody nested) (fun inside =>
      branch .elseKeyword rule.place (fun draft => draft)
        (rule.place (Grammar.condition rule inside.advance))) :=
  opens_advance.andThen ((performs_condition performs).andThen
    ((performs_place performs).andThen
      (performs_branch (by decide) (performs_place performs) performs_nothing)))

theorem opens_whileBody :
    Opens cramped height (whileBody nested) (fun inside =>
      rule.place (Grammar.condition rule inside.advance)) :=
  opens_advance.andThen ((performs_condition performs).andThen (performs_place performs))

theorem opens_doBody :
    Opens cramped height (doBody nested) (fun inside =>
      branch .whileKeyword (Grammar.condition rule)
        (branch .untilKeyword (Grammar.condition rule) (fun draft => draft))
        (rule.place (Grammar.condition rule inside.advance))) :=
  opens_advance.andThen ((performs_condition performs).andThen
    ((performs_place performs).andThen
      (performs_branch (by decide) (performs_condition performs)
        (performs_branch (by decide) (performs_condition performs) performs_nothing))))

theorem opens_keywordBody :
    Opens cramped height (keywordBody nested) (fun inside => rule.place inside.advance) :=
  opens_advance.andThen (performs_place performs)

theorem opens_functionBody (words : limits.AreWords) :
    Opens cramped height (functionBody limits nested) (fun inside =>
      rule.place (Grammar.parameters limits (inside.advance.skip .identifier))) :=
  opens_advance.andThen ((performs_skip (by decide)).andThen
    ((performs_parameters words).andThen (performs_place performs)))

theorem opens_forBody (words : limits.AreWords)
    (proceeds : ∀ draft, Proceeds draft (statementElement rule draft)) :
    Opens cramped height (forBody limits nested) (fun inside =>
      rule.place (Grammar.loopHeader limits rule inside.advance)) := by
  have header : Performs cramped height (loopHeader limits nested)
      (Grammar.loopHeader limits rule) :=
    performs_branch (by decide)
      (performs_delimited (performs_place performs) proceeds words _ (by decide) _ (by decide) _)
      performs_nothing
  exact opens_advance.andThen (header.andThen (performs_place performs))

end Bodies

section Statements

variable {nested : Record Bool} {rule : StatementRule} (words : limits.AreWords)
  (performs : PerformsStatement cramped (height + 1) nested rule)
  (proceeds : ∀ draft, Proceeds draft (statementElement rule draft))

include words performs proceeds

theorem performs_statementWith :
    PerformsStatement cramped height (statementWith limits nested)
      (Grammar.statementAt limits rule) := by
  intro frame armed recorder draft heightEq represents
  have places : ∀ {first : Kind}, draft.kind = first → first ≠ .endOfInput →
      ∀ {body : Record Unit} {inside : Draft → Draft}, Opens cramped (height + 1) body inside →
        ∀ {kind : Kind}, kind ≠ .tombstone →
          (node kind body).Yields cramped recorder fun found after => found = true ∧
            Represents cramped 0 frame armed after (draft.node kind inside) := by
    intro first kindEq notEnd body inside opens kind ofNode
    exact yields_node opens ofNode heightEq represents
      (Draft.atEnd_eq_false_of_kind kindEq notEnd)
  have template := opens_markupParts words performs proceeds
  apply Yields.observe_bind
  rw [represents.kind_eq]
  split
  · next kindEq =>
      rw [Grammar.statementAt, kindEq]
      exact .pure ⟨rfl, represents⟩
  · next kindEq =>
      rw [Grammar.statementAt, kindEq]
      exact places kindEq (by decide) (opens_ifBody performs) (by decide)
  · next kindEq =>
      rw [Grammar.statementAt, kindEq]
      exact places kindEq (by decide) (opens_forBody performs words proceeds) (by decide)
  · next kindEq =>
      rw [Grammar.statementAt, kindEq]
      exact places kindEq (by decide) (opens_forBody performs words proceeds) (by decide)
  · next kindEq =>
      rw [Grammar.statementAt, kindEq]
      exact places kindEq (by decide) (opens_whileBody performs) (by decide)
  · next kindEq =>
      rw [Grammar.statementAt, kindEq]
      exact places kindEq (by decide) (opens_doBody performs) (by decide)
  · next kindEq =>
      rw [Grammar.statementAt, kindEq]
      exact places kindEq (by decide) (opens_keywordBody performs) (by decide)
  · next kindEq =>
      rw [Grammar.statementAt, kindEq]
      exact places kindEq (by decide) (opens_functionBody performs words) (by decide)
  · next kindEq =>
      rw [Grammar.statementAt, kindEq]
      exact places kindEq (by decide) (opens_functionBody performs words) (by decide)
  · next kindEq =>
      rw [Grammar.statementAt, kindEq]
      exact places kindEq (by decide) (opens_keywordBody performs) (by decide)
  · next kindEq =>
      rw [Grammar.statementAt, kindEq]
      exact places kindEq (by decide) (opens_keywordBody performs) (by decide)
  · next kindEq =>
      rw [Grammar.statementAt, kindEq]
      exact places kindEq (by decide) (opens_keywordBody performs) (by decide)
  · next kindEq =>
      rw [Grammar.statementAt, kindEq]
      exact places kindEq (by decide) (opens_keywordBody performs) (by decide)
  · next kindEq =>
      rw [Grammar.statementAt, kindEq]
      exact places kindEq (by decide) template (by decide)
  · by_cases isMarkup : draft.kind.isMarkup = true
    · rw [if_pos isMarkup, Grammar.statementAt]
      split
      case h_15 =>
        rw [if_pos isMarkup]
        exact places rfl (by assumption) template (by decide)
      all_goals contradiction
    · rw [if_neg isMarkup, Grammar.statementAt]
      split
      case h_15 =>
        rw [if_neg isMarkup]
        exact yields_expression words performs proceeds heightEq represents
          (Draft.atEnd_eq_false_of_kind rfl (by assumption))
      all_goals contradiction

end Statements

/-- A statement at a depth does what the rule does with the levels that the ceiling
leaves there. There is a marker in use for each level. -/
theorem performs_statement (words : limits.AreWords) {levels depth : Nat}
    (sum : depth + levels = limits.depth + 1) :
    PerformsStatement cramped depth (statement limits depth) (Grammar.statement limits levels) := by
  -- On the levels that are left.
  induction levels generalizing depth with
  | zero =>
      intro frame armed recorder draft heightEq represents
      rw [statement, dif_pos (by omega)]
      have tripped : (trip .recursionDepth).Yields cramped recorder fun _ after =>
          Represents cramped 0 frame armed after (draft.trip .recursionDepth) :=
        .change rfl (represents.trip .recursionDepth)
      apply tripped.bind
      intro _ _ representsTripped
      apply (performs_advance heightEq representsTripped).bind
      intro _ _ representsAfter
      exact .pure ⟨rfl, representsAfter⟩
  | succ levels inductionHypothesis =>
      rw [statement, dif_neg (by omega)]
      apply performs_statementWith words _ (Grammar.statement_proceeds limits levels)
      intro frame armed recorder draft heightEq represents
      have armedLe := represents.armed_le
      have fits : cramped ∨ depth + 1 ≤ Limits.greatest := by
        refine represents.room.imp_right fun room => ?_
        have sizeEq : UInt32.size = 4294967296 := rfl
        have greatestEq : Limits.greatest = 4294967295 := rfl
        omega
      split
      · next breach failed =>
          refine .of_error rfl (fits.resolve_right fun le => ?_)
          rw [Word.add_of_le le] at failed
          cases failed
      · next below counted =>
          obtain rfl : depth + 1 = below := by
            unfold Word.add at counted
            split at counted <;> cases counted
            rfl
          exact inductionHypothesis (by omega) heightEq represents

end Record

end TemplateFrontend
