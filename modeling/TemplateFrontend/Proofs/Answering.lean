import TemplateFrontend.Proofs.Recording.Wrapping

/-!
Contract: the rule for statements finds a node, waits, or skips one token, and so every
turn of a loop moves on.

Owns:
- the turns of loops, and where the body of a markup region begins;
- `statement_answers`: on every draft, and on every recorder on which the recording of a
  window that fits calls the rule for statements;
- `statement_answers_fails_past_words`: in windows that do not fit it may answer in
  another way.
-/

namespace TemplateFrontend

open Grammar (Listing Proceeds Region StatementRule statementElement)

namespace Record

/-! ## Turns that begin with a statement -/

/-- The element of a list. -/
def elementOf (listing : Listing) (nested : Record Bool) : Record Unit :=
  match listing with
  | .entries => entry nested
  | _ => ignore nested

/-- The turns of the root and of lists: they begin with a statement. -/
inductive StatementTurn (nested : Record Bool) : Record (Option Unit) → Prop
  | topLevel : StatementTurn nested (do
      statementOrAdvance nested
      return some ())
  | list (listing : Listing) : StatementTurn nested (do
      elementOrAdvance (elementOf listing nested)
      goOnBehind (eatIn listing.separators))

section Turns

variable {limits : Limits} {depth levels : Nat} {nested : Record Bool}
  (performs : PerformsStatement False depth nested (Grammar.statement limits levels))

include performs

theorem performs_elementOf (listing : Listing) :
    Performs False depth (elementOf listing nested)
      (fun draft => (listing.rule limits levels draft).2) := by
  cases listing
  case entries => exact performs_entry performs
  all_goals exact performs_place performs

variable {frame : List BuildStep} {armed : List Nat} {recorder : Recorder} {draft : Draft}
  (heightEq : armed.length = depth) (represents : Represents False 0 frame armed recorder draft)
  (notEnd : draft.atEnd = false)

include heightEq represents notEnd

/-- A turn of the root or of a list moves on, with or without a separator. -/
theorem yields_statementTurn {turn : Record (Option Unit)} (isTurn : StatementTurn nested turn) :
    turn.Yields False recorder fun _ after => recorder.MovesOn after := by
  cases isTurn with
  | topLevel =>
      apply (performsAhead_statementOrAdvance performs (Grammar.statement_proceeds limits levels)
        heightEq represents notEnd).bind
      intro _ after representsAfter
      exact .pure (represents.movesOn notEnd representsAfter
        (Grammar.movesOn_placeOrAdvance limits levels notEnd))
  | list listing =>
      have movesOn := Grammar.movesOn_element limits levels notEnd listing
      apply (performsAhead_elementOrAdvance (performs_elementOf performs listing)
        (listing.rule_proceeds limits levels) heightEq represents notEnd).bind
      intro _ after representsAfter
      generalize (listing.rule limits levels).placeOrAdvance draft = placed
        at movesOn representsAfter
      have noEnd : listing.separators.contains .endOfInput = false := by cases listing <;> decide
      have eats : (eatIn listing.separators).Yields False after
          (Found False frame armed after (placed.takeIn? listing.separators)) :=
        tries_eatIn noEnd heightEq (representsAfter.mono (Nat.zero_le 2))
      apply eats.bind
      intro found last holds
      apply Yields.pure
      generalize taken : placed.takeIn? listing.separators = next at holds
      cases holds with
      | found representsLast =>
          obtain ⟨_, rfl⟩ := Draft.takeIn?_eq_some_iff.mp taken
          exact represents.movesOn notEnd representsLast movesOn.advance
      | missed => exact represents.movesOn notEnd representsAfter movesOn

end Turns

/-! ## Turns in markup regions -/

/-- The marker of a block and the token with which it opens. -/
def beginBlock : Record Unit := do
  let _ ← start
  advance

/-- Where the body of a markup region begins when the rule for statements has found its
opening token; behind an at sign there has to be a brace. -/
inductive RegionBegins (opener : Recorder) : Recorder → Prop
  | markup {begun : Recorder} (isMarkup : opener.current.kind.isMarkup = true)
      (notClosing : opener.current.kind ≠ .markupEnd)
      (opened : beginBlock opener = .ok ((), begun)) :
      RegionBegins opener begun
  | braced {between begun : Recorder} (isSign : opener.current.kind = .atSign)
      (opened : beginBlock opener = .ok ((), between))
      (brace : eat .leftBrace between = .ok (true, begun)) :
      RegionBegins opener begun

/-- The recorders before the turns of a region, with their open braces. -/
inductive RegionTurns (nested : Record Bool) (begun : Recorder) : Nat → Recorder → Prop
  | first : RegionTurns nested begun 1 begun
  | next {braces more : Nat} {recorder after : Recorder}
      (turns : RegionTurns nested begun braces recorder)
      (notEnd : recorder.current.kind ≠ .endOfInput)
      (again : regionTurn nested braces recorder = .ok (some more, after)) :
      RegionTurns nested begun more after

/-- The body of a region begins with a statement where it does not begin with a brace. -/
theorem RegionBegins.calls {limits : Limits} {nested : Record Bool} {opener begun : Recorder}
    (begins : RegionBegins opener begun) (turns : 0 < limits.regionIterations)
    (notEnd : begun.current.kind ≠ .endOfInput) (notLeft : begun.current.kind ≠ .leftBrace)
    (notRight : begun.current.kind ≠ .rightBrace) :
    Calls (statementWith limits) nested opener begun := by
  apply Calls.of_breaksOff
  intro other _ breaks
  have turnBreaks : (regionTurn other 1).BreaksOff begun := by
    apply BreaksOff.observe_bind
    split
    · contradiction
    · contradiction
    · exact breaks.statementOrAdvance.bind
  have bodyBreaks : (regionBody limits other).BreaksOff begun :=
    .repeatTurns (by simpa using notEnd) turns (by decide) turnBreaks
  apply BreaksOff.observe_bind
  cases begins with
  | markup isMarkup notClosing opened =>
      have advanced : advance opener.start.2 = .ok ((), begun) := opened
      split
      case h_15 =>
        rw [if_pos isMarkup]
        apply BreaksOff.node
        apply BreaksOff.observe_bind
        rw [opener.kind_start]
        split
        · contradiction
        · contradiction
        · exact .behind advanced bodyBreaks
      all_goals
        next kindEq =>
          rw [kindEq] at isMarkup
          cases isMarkup
  | @braced between _ isSign opened brace =>
      have advanced : advance opener.start.2 = .ok ((), between) := opened
      rw [isSign]
      apply BreaksOff.node
      apply BreaksOff.observe_bind
      rw [opener.kind_start, isSign]
      exact .behind advanced (.behind brace bodyBreaks)

section Regions

variable {limits : Limits} {depth levels : Nat} {nested : Record Bool}

theorem yields_beginBlock {opener : Recorder} (placed : Placed depth opener)
    (notEnd : opener.current.kind ≠ .endOfInput) :
    beginBlock.Yields False opener fun _ after => Placed (depth + 1) after := by
  obtain ⟨frame, armed, draft, heightEq, represents⟩ := placed
  rw [represents.kind_eq] at notEnd
  have notAtEnd : draft.atEnd = false := Draft.atEnd_eq_false_of_kind rfl notEnd
  apply (represents.start notAtEnd).bind
  rintro marker opened ⟨_, _, _, representsOpened⟩
  have insideHeight : (marker.serial :: armed).length = depth + 1 := by simp [heightEq]
  apply (opens_advance insideHeight representsOpened (draft.atEnd_opened.trans notAtEnd)).mono
  intro _ after representsAfter
  exact ⟨_, _, _, insideHeight, representsAfter⟩

/-- The body of a region begins in the place of a draft, with one more marker in use. -/
theorem RegionBegins.placed {opener begun : Recorder} (begins : RegionBegins opener begun)
    (placed : Placed depth opener) :
    Placed (depth + 1) begun := by
  cases begins with
  | markup isMarkup _ opened =>
      refine (yields_beginBlock placed ?_).of_eq opened
      intro isEnd
      rw [isEnd] at isMarkup
      cases isMarkup
  | @braced between _ isSign opened brace =>
      have notEnd : opener.current.kind ≠ .endOfInput := by rw [isSign]; decide
      have placedBetween := (yields_beginBlock placed notEnd).of_eq opened
      obtain ⟨frame, armed, draft, heightEq, represents⟩ := placedBetween
      have eats : (eat .leftBrace).Yields False between
          (Found False frame armed between (draft.take? .leftBrace)) :=
        tries_eat _ (by decide) heightEq (represents.mono (Nat.zero_le 2))
      have found := eats.of_eq brace
      generalize draft.take? .leftBrace = taken at found
      cases found with
      | found representsBegun => exact ⟨_, _, _, heightEq, representsBegun⟩

variable (performs : PerformsStatement False (depth + 1) nested (Grammar.statement limits levels))

include performs

/-- Before every turn of a region recorder and draft are in it. -/
theorem RegionTurns.inRegion {begun recorder : Recorder} {braces : Nat}
    (turns : RegionTurns nested begun braces recorder) (placed : Placed (depth + 1) begun) :
    ∃ frame armed region, List.length armed = depth + 1 ∧
      InRegion False frame armed braces region recorder := by
  -- On the turns that have been taken.
  induction turns with
  | first =>
      obtain ⟨frame, armed, draft, heightEq, represents⟩ := placed
      exact ⟨frame, armed, ⟨1, draft⟩, heightEq, .first represents⟩
  | next _ notEnd again inductionHypothesis =>
      obtain ⟨frame, armed, region, heightEq, inRegion⟩ := inductionHypothesis
      have regionNotEnd : region.draft.atEnd = false := by
        rw [← Bool.not_eq_true, ← inRegion.represents.isEnd_iff]
        exact notEnd
      have leaves := (yields_regionTurn performs (Grammar.statement_proceeds limits levels) heightEq
        inRegion regionNotEnd).of_eq again
      generalize Grammar.regionTurn (Grammar.statement limits levels) region = turned at leaves
      cases leaves with
      | again next => exact ⟨frame, armed, _, heightEq, next⟩

theorem yields_regionTurn_movesOn {frame : List BuildStep} {armed : List Nat} {recorder : Recorder}
    {braces : Nat} {region : Region} (heightEq : armed.length = depth + 1)
    (inRegion : InRegion False frame armed braces region recorder)
    (notEnd : region.draft.atEnd = false) :
    (regionTurn nested braces).Yields False recorder fun _ after => recorder.MovesOn after := by
  have proceeds := Grammar.statement_proceeds limits levels
  apply (yields_regionTurn performs proceeds heightEq inRegion notEnd).mono
  intro next after leaves
  have movesOn := Grammar.movesOn_regionTurn limits levels region notEnd
  generalize Grammar.regionTurn (Grammar.statement limits levels) region = turned at leaves movesOn
  cases leaves with
  | again next => exact inRegion.represents.movesOn notEnd next.represents movesOn
  | done last => exact inRegion.represents.movesOn notEnd last movesOn

end Regions

/-! ## The contract of the rule for statements -/

/-- The rule answers in one of its ways at a depth, and every turn that begins with a
statement there, and every turn of a region that opens there, moves on. -/
structure StatementContract (limits : Limits) (depth : Nat) (recorder : Recorder) : Prop where
  answers : (statement limits depth).Yields False recorder (Answers limits depth recorder)
  statementTurns : recorder.current.kind ≠ .endOfInput →
    ∀ turn, StatementTurn (statement limits depth) turn →
      turn.Yields False recorder fun _ after => recorder.MovesOn after
  regionTurns : depth ≤ limits.depth →
    ∀ begun, RegionBegins recorder begun →
      ∀ braces before, RegionTurns (statement limits (depth + 1)) begun braces before →
        before.current.kind ≠ .endOfInput →
          (regionTurn (statement limits (depth + 1)) braces).Yields False before fun _ after =>
            before.MovesOn after

/-- Recorders in the place of a draft keep the contract. -/
theorem statementContract {limits : Limits} (words : limits.AreWords) {depth : Nat}
    {recorder : Recorder} (placed : Placed depth recorder)
    (depthLe : depth ≤ limits.depth + 1) : StatementContract limits depth recorder where
  answers := yields_answers words placed
  statementTurns := by
    intro notEnd turn isTurn
    obtain ⟨levels, sum⟩ := Nat.exists_eq_add_of_le depthLe
    have performs : PerformsStatement False depth (statement limits depth)
        (Grammar.statement limits levels) := performs_statement words sum.symm
    obtain ⟨frame, armed, draft, heightEq, represents⟩ := placed
    rw [Ne, represents.isEnd_iff, Bool.not_eq_true] at notEnd
    exact yields_statementTurn performs heightEq represents notEnd isTurn
  regionTurns := by
    intro inside begun begins braces before turns notEnd
    obtain ⟨levels, sum⟩ := Nat.exists_eq_add_of_le inside
    have performs : PerformsStatement False (depth + 1) (statement limits (depth + 1))
        (Grammar.statement limits levels) := performs_statement words (by omega)
    obtain ⟨frame, armed, region, heightEq, inRegion⟩ :=
      turns.inRegion performs (begins.placed placed)
    rw [Ne, inRegion.represents.isEnd_iff, Bool.not_eq_true] at notEnd
    exact yields_regionTurn_movesOn performs heightEq inRegion notEnd

end Record

/-- On every draft, and wherever the recording of a window calls it, at whatever depth, the
rule for statements finds one complete node that begins with the token ahead, or waits
before that token, or, when no level of nesting is left, notes the ceiling and takes the
token ahead, if there is one. So every turn of a loop takes a significant token. The
tokens of a recorded window have to fit: positions are words. -/
theorem statement_answers (limits : Limits) :
    (∀ levels draft, Grammar.StatementContract limits levels draft) ∧
      ∀ text window tokens, limits.AreWords → Text.Admits text window →
        tokenize text window = .ok tokens → FitsWords tokens →
          ∀ depth recorder, Record.Reached text window limits depth recorder →
            1 ≤ depth ∧ Record.StatementContract limits depth recorder := by
  refine ⟨Grammar.statementContract limits, ?_⟩
  intro text window tokens words admitted tokenized fits depth recorder reached
  obtain ⟨positive, depthLe⟩ := reached.depth_bounds
  have placed := reached.placed words admitted tokenized fits
  exact ⟨positive, Record.statementContract words placed depthLe⟩

/-- A block, and in its region, behind a blank, a token with which no statement begins. -/
theorem statement_answers_in_region :
    Limits.AreWords ⟨2, 0, 0, 1, 1⟩ ∧ Text.Admits "@\x7b ) \x7d".toList ⟨0, 6⟩ ∧
      ∃ tokens opener begun, tokenize "@\x7b ) \x7d".toList ⟨0, 6⟩ = .ok tokens ∧
        FitsWords tokens ∧ Record.Reached "@\x7b ) \x7d".toList ⟨0, 6⟩ ⟨2, 0, 0, 1, 1⟩ 1 opener ∧
        Record.RegionBegins opener begun ∧
        Record.Reached "@\x7b ) \x7d".toList ⟨0, 6⟩ ⟨2, 0, 0, 1, 1⟩ 2 begun ∧
        begun.trivia = [⟨.whitespace, ⟨2, 3⟩⟩] ∧ begun.current = ⟨.rightParen, ⟨3, 4⟩⟩ ∧
        (1 ≤ 1 ∧ Record.StatementContract ⟨2, 0, 0, 1, 1⟩ 1 opener) ∧
        (1 ≤ 2 ∧ Record.StatementContract ⟨2, 0, 0, 1, 1⟩ 2 begun) := by
  have words : Limits.AreWords ⟨2, 0, 0, 1, 1⟩ :=
    ⟨by decide, by decide, by decide, by decide, by decide⟩
  have admitted : Text.Admits "@\x7b ) \x7d".toList ⟨0, 6⟩ := Text.admits_whole _
  have opened : Reader.ofWindow "@\x7b ) \x7d".toList ⟨0, 6⟩ =
      .ok ⟨"@\x7b ) \x7d".toList, 6, "@\x7b ) \x7d".toList, 6⟩ := by rfl
  have brace : Reader.next ⟨"@\x7b ) \x7d".toList, 6, "@\x7b ) \x7d".toList, 6⟩ =
      .ok (⟨.markupOpen, ⟨0, 2⟩⟩, ⟨"@\x7b ) \x7d".toList, 6, " ) \x7d".toList, 4⟩) := by rfl
  have blank : Reader.next ⟨"@\x7b ) \x7d".toList, 6, " ) \x7d".toList, 4⟩ =
      .ok (⟨.whitespace, ⟨2, 3⟩⟩, ⟨"@\x7b ) \x7d".toList, 6, ") \x7d".toList, 3⟩) := by rfl
  have paren : Reader.next ⟨"@\x7b ) \x7d".toList, 6, ") \x7d".toList, 3⟩ =
      .ok (⟨.rightParen, ⟨3, 4⟩⟩, ⟨"@\x7b ) \x7d".toList, 6, " \x7d".toList, 2⟩) := by rfl
  have outermost : Record.Reached "@\x7b ) \x7d".toList ⟨0, 6⟩ ⟨2, 0, 0, 1, 1⟩ 1 _ :=
    .outermost opened (Recorder.bump_of_significant brace rfl)
      (Record.rootAround_calls rfl (by decide) (by decide))
  have begunEq : Record.beginBlock
      ⟨⟨"@\x7b ) \x7d".toList, 6, " ) \x7d".toList, 4⟩, ⟨.markupOpen, ⟨0, 2⟩⟩, [],
        [.start .tombstone], 1, [0], []⟩ =
      .ok ((), ⟨⟨"@\x7b ) \x7d".toList, 6, " \x7d".toList, 2⟩, ⟨.rightParen, ⟨3, 4⟩⟩,
        [⟨.whitespace, ⟨2, 3⟩⟩],
        [.start .tombstone, .start .tombstone, .token ⟨.markupOpen, ⟨0, 2⟩⟩], 2, [1, 0], []⟩) :=
    congrArg (Except.map fun after => ((), after))
      ((Recorder.bump_of_trivia blank rfl).trans (Recorder.bump_of_significant paren rfl))
  have begins := Record.RegionBegins.markup rfl (by decide) begunEq
  have inside := Record.Reached.nested outermost (by decide)
    (begins.calls (by decide) (by decide) (by decide) (by decide))
  obtain ⟨tokens, tokenized, tiled, _⟩ := tokenize_tiles admitted
  have fits : FitsWords tokens := fitsWords_of_tiles tiled (by decide)
  exact ⟨words, admitted, tokens, _, _, tokenized, fits, outermost, begins, inside, rfl, rfl,
    (statement_answers _).2 _ _ _ words admitted tokenized fits _ _ outermost,
    (statement_answers _).2 _ _ _ words admitted tokenized fits _ _ inside⟩

/-- Behind 1431655765 at signs there are as many steps as words, if there may be so many
turns at the top level. The marker before a closing parenthesis then has the position of
the root, so its tombstone stays, and the recording goes on to its end. At one more at
sign the marker finds the start of the root and gives it its kind, and there is no tree. -/
theorem statement_answers_fails_past_words :
    Limits.mostTurns.AreWords ∧
      (∃ recorder recorded,
        Record.Reached (atSigns 1431655765 [')']) (atSigns 1431655765 [')']).whole .mostTurns 1
            recorder ∧
          ¬ Record.StatementContract .mostTurns 1 recorder ∧
            record (atSigns 1431655765 [')']) (atSigns 1431655765 [')']).whole .mostTurns =
              .ok recorded) ∧
      ∃ recorder,
        Record.Reached (atSigns 1431655765 ['@']) (atSigns 1431655765 ['@']).whole .mostTurns 1
            recorder ∧
          ¬ Record.StatementContract .mostTurns 1 recorder ∧
            ∀ parsed, parseRecorded (atSigns 1431655765 ['@'])
              (atSigns 1431655765 ['@']).whole .mostTurns ≠ .ok parsed := by
  refine ⟨⟨by decide, by decide, by decide, by decide, by decide⟩, ?_, ?_⟩
  · obtain ⟨called, after, recorded, reached, statementEq, noTrivia, stepsEq, recordEq⟩ :=
      Record.exists_tombstone_left Record.fillsWords_mostTurns
    refine ⟨called, recorded, reached, fun contract => ?_, recordEq⟩
    exact Record.not_answers_of_tombstone (by decide) noTrivia stepsEq
      (contract.answers.of_eq statementEq)
  · obtain ⟨called, after, reached, statementEq, rootEq, spoiltEq, noTree⟩ :=
      Record.exists_root_spoilt Record.fillsWords_mostTurns
    refine ⟨called, reached, fun contract => ?_, noTree⟩
    exact Record.not_answers_of_root rootEq spoiltEq (contract.answers.of_eq statementEq)

end TemplateFrontend
