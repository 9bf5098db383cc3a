import TemplateFrontend.Proofs.Recording.Answers

/-!
Contract: what a recording does where positions leave the words.

Owns:
- `SignRow`, at signs with at most one closing parenthesis behind them, and `Stands`, a
  recorder in front of such a text;
- `InRow`, the recorder behind some at signs, each of which is a block of three steps;
- `exists_called`: the recording calls the rule for statements behind as many of them as
  there are turns;
- what that rule answers behind as many steps as there are words: before a closing
  parenthesis it leaves a tombstone, and at an at sign it gives its kind to the root.
-/

namespace TemplateFrontend

/-- The standard ceilings, with as many turns at the top level as a word can count. -/
def Limits.mostTurns : Limits := { Limits.standard with topLevelIterations := Limits.greatest }

/-! ## At signs -/

def atSigns (count : Nat) (behind : Text) : Text := List.replicate count '@' ++ behind

theorem atSigns_succ (count : Nat) (behind : Text) :
    atSigns (count + 1) behind = '@' :: atSigns count behind := rfl

theorem byteLength_atSigns (count : Nat) (behind : Text) :
    (atSigns count behind).byteLength = count + behind.byteLength := by
  induction count with
  | zero => exact (Nat.zero_add _).symm
  | succ count inductionHypothesis =>
      have charLength : ('@' : Char).utf8Size = 1 := rfl
      rw [atSigns_succ, Text.byteLength_cons, inductionHypothesis, charLength]
      omega

/-- At signs, with nothing or one closing parenthesis behind them. -/
inductive SignRow : Text → Prop
  | nothing : SignRow []
  | paren : SignRow [')']
  | sign {rest : Text} (row : SignRow rest) : SignRow ('@' :: rest)

theorem SignRow.atSigns {behind : Text} (row : SignRow behind) (count : Nat) :
    SignRow (atSigns count behind) := by
  induction count with
  | zero => exact row
  | succ count inductionHypothesis => exact .sign inductionHypothesis

theorem SignRow.tail {rest : Text} (row : SignRow rest) : SignRow rest.tail := by
  cases row with
  | nothing => exact .nothing
  | paren => exact .nothing
  | sign row => exact row

/-- Every token of a row is one character and significant, and none is a brace. -/
theorem SignRow.next_facts {rest : Text} (row : SignRow rest) (offset : Nat) :
    (Scanner.next ⟨rest, offset⟩).2.rest = rest.tail ∧
      (Scanner.next ⟨rest, offset⟩).1.isTrivia = false ∧
        (Scanner.next ⟨rest, offset⟩).1.kind ≠ .leftBrace := by
  cases row with
  | nothing => exact ⟨rfl, rfl, nofun⟩
  | paren => exact ⟨rfl, rfl, nofun⟩
  | sign row => cases row <;> exact ⟨rfl, rfl, nofun⟩

theorem SignRow.next_kind_of_sign {rest : Text} (row : SignRow rest) (offset : Nat) :
    (Scanner.next ⟨'@' :: rest, offset⟩).1.kind = .atSign := by
  cases row <;> rfl

/-- The whole text is a window in which reader and scanner begin together. -/
theorem exists_inStep_whole (text : Text) :
    ∃ reader, Reader.ofWindow text text.whole = .ok reader ∧ reader.mark = text.byteLength ∧
      InStep reader ⟨text, 0⟩ := by
  have sliced := Breach.ofFault_slice [] text []
  rw [List.append_nil, List.nil_append, Text.byteLength_nil, Nat.zero_add] at sliced
  refine ⟨⟨text, text.byteLength, text, text.byteLength⟩, ?_, rfl, ?_⟩
  · rw [Reader.ofWindow, Text.whole, sliced]
    rfl
  · exact ⟨⟨[], [], (List.append_nil text).symm, rfl⟩, rfl, (Nat.zero_add _).symm, rfl⟩

/-- The recorder has the steps and the markers in use, has kept no trivia, and stands in
front of the rest of the text. -/
structure Stands (rest : Text) (steps : List BuildStep) (armed : List Nat) (recorder : Recorder) :
    Prop where
  ahead : ∃ offset, recorder.current = (Scanner.next ⟨rest, offset⟩).1 ∧
    InStep recorder.reader (Scanner.next ⟨rest, offset⟩).2
  trivia_eq : recorder.trivia = []
  steps_eq : recorder.steps = steps
  armed_eq : recorder.armed = armed

namespace Stands

variable {rest : Text} {steps : List BuildStep} {armed : List Nat} {recorder : Recorder}

/-- Reading on brings a recorder in front of the row. -/
theorem exists_bump (row : SignRow rest) {offset : Nat}
    (reads : InStep recorder.reader ⟨rest, offset⟩) (noTrivia : recorder.trivia = []) :
    ∃ after, recorder.bump = .ok after ∧ after.issued = recorder.issued ∧
      Stands rest recorder.steps recorder.armed after := by
  obtain ⟨reader, nextEq, afterReads⟩ := reads.next_eq
  exact ⟨_, Recorder.bump_of_significant nextEq (row.next_facts offset).2.1, rfl,
    ⟨offset, rfl, afterReads⟩, noTrivia, rfl, rfl⟩

theorem kind_of_sign (stands : Stands ('@' :: rest) steps armed recorder) (row : SignRow rest) :
    recorder.current.kind = .atSign := by
  obtain ⟨offset, currentEq, _⟩ := stands.ahead
  rw [currentEq]
  exact row.next_kind_of_sign offset

theorem kind_of_paren (stands : Stands [')'] steps armed recorder) :
    recorder.current.kind = .rightParen := by
  obtain ⟨offset, currentEq, _⟩ := stands.ahead
  rw [currentEq]
  rfl

theorem isEnd (stands : Stands [] steps armed recorder) :
    recorder.current.kind = .endOfInput := by
  obtain ⟨offset, currentEq, _⟩ := stands.ahead
  rw [currentEq]
  rfl

theorem flushTrivia_eq (stands : Stands rest steps armed recorder) :
    recorder.flushTrivia = recorder := by
  have noTrivia := stands.trivia_eq
  rw [Recorder.flushTrivia, noTrivia, List.map_nil, List.append_nil]
  cases recorder
  cases noTrivia
  rfl

theorem advance (stands : Stands rest steps armed recorder) (row : SignRow rest)
    (notEnd : recorder.current.kind ≠ .endOfInput) :
    Record.advance.Yields False recorder fun _ after =>
      Stands rest.tail (steps ++ [.token recorder.current]) armed after := by
  obtain ⟨offset, _, reads⟩ := stands.ahead
  have behindEq : (Scanner.next ⟨rest, offset⟩).2 =
      ⟨rest.tail, (Scanner.next ⟨rest, offset⟩).2.offset⟩ := by
    rw [← (row.next_facts offset).1]
  rw [behindEq] at reads
  have pushedReads : InStep (recorder.push (.token recorder.current)).reader _ := reads
  obtain ⟨after, bumpEq, _, afterStands⟩ := exists_bump row.tail pushedReads stands.trivia_eq
  have advanceEq : recorder.advance = .ok after := by
    rw [Recorder.advance, if_neg notEnd, stands.flushTrivia_eq, bumpEq]
  rw [Recorder.push, stands.steps_eq, stands.armed_eq] at afterStands
  exact .change advanceEq afterStands

/-- A marker is set for the steps that there are. -/
theorem start (stands : Stands rest steps armed recorder) (begun : steps ≠ []) :
    Record.start.Yields False recorder fun marker after =>
      marker.position = steps.length % UInt32.size ∧ after.current = recorder.current ∧
        Stands rest (steps ++ [.start .tombstone]) (marker.serial :: armed) after := by
  have startEq : Record.start recorder = .ok recorder.start := rfl
  rw [Recorder.start_eq (stands.steps_eq ▸ begun), stands.flushTrivia_eq,
    stands.armed_eq] at startEq
  refine .of_ok startEq ⟨congrArg (List.length · % UInt32.size) stands.steps_eq, rfl, ?_⟩
  exact ⟨stands.ahead, stands.trivia_eq, congrArg (· ++ [_]) stands.steps_eq, rfl⟩

theorem complete {marker : Marker} (stands : Stands rest steps (marker.serial :: armed) recorder)
    {other : Kind} (found : steps[marker.position]? = some (.start other)) (kind : Kind) :
    (Record.complete marker kind).Yields False recorder fun _ after =>
      Stands rest (steps.set marker.position (.start kind) ++ [.finish]) armed after := by
  rw [← stands.steps_eq] at found
  apply Record.Yields.change (Recorder.complete_of_start stands.armed_eq found kind)
  have stepsEq := congrArg (fun steps => steps.set marker.position (.start kind) ++ [.finish])
    stands.steps_eq
  exact ⟨stands.ahead, stands.trivia_eq, stepsEq, rfl⟩

end Stands

/-! ## Statements in the row -/

namespace Record

variable {limits : Limits} {rest : Text} {steps : List BuildStep} {armed : List Nat}
  {recorder : Recorder}

/-- An at sign without a brace is all there is of its block. -/
theorem yields_markupParts_sign {nested : Record Bool} (row : SignRow rest)
    (stands : Stands ('@' :: rest) steps armed recorder) :
    (markupParts limits nested).Yields False recorder fun _ after =>
      Stands rest (steps ++ [.token recorder.current]) armed after := by
  have notEnd : recorder.current.kind ≠ .endOfInput := by
    rw [stands.kind_of_sign row]
    decide
  apply Yields.observe_bind
  rw [stands.kind_of_sign row]
  apply (stands.advance (.sign row) notEnd).bind
  intro _ between betweenStands
  have notBrace : between.current.kind ≠ .leftBrace := by
    obtain ⟨offset, aheadEq, _⟩ := betweenStands.ahead
    rw [aheadEq]
    exact (row.next_facts offset).2.2
  have notEaten : (eat .leftBrace).Yields False between fun found left =>
      found = false ∧ between = left := by
    apply Yields.observe_bind
    rw [if_neg (by simpa using notBrace)]
    exact .pure ⟨rfl, rfl⟩
  apply notEaten.bind
  rintro _ _ ⟨rfl, rfl⟩
  exact .pure betweenStands

/-- Steps behind which a block has begun with a token. -/
def begunSteps (steps : List BuildStep) (token : Token) : List BuildStep :=
  steps ++ [.start .tombstone] ++ [.token token]

/-- The same with the block at its end. Its kind goes to the position that its marker
has. -/
def blockSteps (steps : List BuildStep) (token : Token) : List BuildStep :=
  (begunSteps steps token).set (steps.length % UInt32.size) (.start .templateBlock) ++ [.finish]

/-- An at sign is a block of its own, whatever start its marker finds. -/
theorem yields_sign (deep : 1 ≤ limits.depth) (row : SignRow rest)
    (stands : Stands ('@' :: rest) steps armed recorder) (begun : steps ≠ [])
    (found : ∃ other, (begunSteps steps recorder.current)[steps.length % UInt32.size]? =
      some (.start other)) :
    (statement limits 1).Yields False recorder fun answer after =>
      answer = true ∧ Stands rest (blockSteps steps recorder.current) armed after := by
  obtain ⟨other, found⟩ := found
  rw [statement, dif_neg (by omega)]
  apply Yields.observe_bind
  rw [stands.kind_of_sign row]
  apply (stands.start begun).bind
  rintro marker opened ⟨positionEq, currentEq, openedStands⟩
  apply (yields_markupParts_sign row openedStands).bind
  intro _ inside insideStands
  rw [currentEq] at insideStands
  rw [← positionEq] at found
  apply (insideStands.complete found .templateBlock).bind
  intro _ after afterStands
  rw [positionEq] at afterStands
  exact .pure ⟨rfl, afterStands⟩

/-- Before a closing parenthesis a marker is set and abandoned. If its position has lost
high bits, its tombstone stays. -/
theorem yields_paren (deep : 1 ≤ limits.depth) (stands : Stands [')'] steps armed recorder)
    (begun : steps ≠ []) (wrapped : steps.length % UInt32.size ≠ steps.length) :
    (statement limits 1).Yields False recorder fun answer after =>
      answer = false ∧ after.current = recorder.current ∧
        Stands [')'] (steps ++ [.start .tombstone]) armed after := by
  have kindEq := stands.kind_of_paren
  obtain ⟨marker, opened, startEq, positionEq, currentEq, openedStands⟩ :=
    (stands.start begun).exists_ok
  have abandonEq : opened.abandon marker = .ok { opened with armed := armed } :=
    Recorder.abandon_of_ne openedStands.armed_eq openedStands.steps_eq (positionEq ▸ wrapped)
  rw [statement, dif_neg (by omega)]
  apply (yields_statementWith_abandoned (by rw [kindEq]; decide) (by rw [kindEq]; rfl)
    (Except.ok.inj startEq) abandonEq).mono
  rintro _ _ ⟨rfl, rfl⟩
  exact ⟨rfl, currentEq, openedStands.ahead, openedStands.trivia_eq, openedStands.steps_eq, rfl⟩

/-! ## Turns in the row -/

/-- The recorder behind some at signs of a row: the root has begun, and every at sign has
taken three steps. -/
structure InRow (taken : Nat) (rest : Text) (recorder : Recorder) : Prop where
  stands : Stands rest recorder.steps [0] recorder
  root_eq : recorder.steps[0]? = some (.start .tombstone)
  length_eq : recorder.steps.length = 3 * taken + 1
  surplus_eq : surplus recorder.steps = -1

theorem InRow.steps_ne_nil {taken : Nat} (inRow : InRow taken rest recorder) :
    recorder.steps ≠ [] := by
  rw [← List.length_pos_iff, inRow.length_eq]
  omega

/-- The root stays the first step. -/
theorem InRow.root_append {taken : Nat} (inRow : InRow taken rest recorder)
    (later : List BuildStep) : (recorder.steps ++ later)[0]? = some (.start .tombstone) := by
  rw [List.getElem?_append_left (List.length_pos_iff.mpr inRow.steps_ne_nil), inRow.root_eq]

/-- While positions are words, an at sign is one more block. -/
theorem InRow.yields_sign {taken : Nat} (inRow : InRow taken ('@' :: rest) recorder)
    (row : SignRow rest) (deep : 1 ≤ limits.depth) (inWords : 3 * taken + 1 < UInt32.size) :
    (statement limits 1).Yields False recorder fun answer after =>
      answer = true ∧ InRow (taken + 1) rest after := by
  have lengthEq := inRow.length_eq
  have own : recorder.steps.length % UInt32.size = recorder.steps.length :=
    Nat.mod_eq_of_lt (by omega)
  have found : (begunSteps recorder.steps recorder.current)[recorder.steps.length]? =
      some (.start .tombstone) := by simp [begunSteps]
  apply (Record.yields_sign deep row inRow.stands inRow.steps_ne_nil ⟨_, own ▸ found⟩).mono
  rintro _ after ⟨rfl, stands⟩
  have blockEq : blockSteps recorder.steps recorder.current = recorder.steps ++
      [.start .templateBlock] ++ [.token recorder.current] ++ [.finish] := by
    rw [blockSteps, begunSteps, own, set_own_start]
  have stepsEq := stands.steps_eq
  rw [blockEq] at stepsEq
  refine ⟨rfl, stands.steps_eq.symm ▸ stands, ?_, ?_, ?_⟩
  · rw [stepsEq, List.append_assoc, List.append_assoc, inRow.root_append]
  · rw [stepsEq]
    simp [lengthEq]
    omega
  · rw [stepsEq, surplus_concat, surplus_concat, surplus_concat, inRow.surplus_eq,
      BuildStep.weight_start_of_lt (by omega)]
    rfl

theorem bind_of_ok {First Second : Type} {first : Record First} {later : First → Record Second}
    {answer : First} {after : Recorder} (firstEq : first recorder = .ok (answer, after)) :
    (first >>= later) recorder = later answer after := by
  change Except.bind (first recorder) _ = _
  rw [firstEq]
  rfl

theorem statementOrAdvance_of_ok {nested : Record Bool} {found : Bool} {after : Recorder}
    (nestedEq : nested recorder = .ok (found, after)) :
    statementOrAdvance nested recorder =
      (if !found && after.current.span.start = recorder.current.span.start then advance
        else return ()) after := by
  have before : position recorder = .ok (recorder.current.span.start, recorder) := rfl
  have behind : position after = .ok (after.current.span.start, after) := rfl
  rw [statementOrAdvance, bind_of_ok before, bind_of_ok nestedEq, bind_of_ok behind]

/-- A turn that goes on, below the ceiling. -/
theorem repeatTurns_of_some {State : Type} {wanted : Kind → Bool} {ceiling count : Nat}
    {construct : Construct} {turn : State → Record (Option State)} {state next : State}
    {after : Recorder} (goesOn : wanted recorder.current.kind = true) (turns : count < ceiling)
    (isWord : ceiling ≤ Limits.greatest) (turnEq : turn state recorder = .ok (some next, after)) :
    repeatTurns wanted ceiling construct turn count state recorder =
      repeatTurns wanted ceiling construct turn (count + 1) next after := by
  have again : repeatTurns wanted ceiling construct turn count state =
      kind >>= fun ahead => if wanted ahead = true then
        turn state >>= fun next? =>
          next?.elim (return ()) (repeatTurns wanted ceiling construct turn (count + 1))
        else return () := by
    rw [repeatTurns, if_neg (Nat.ne_of_lt turns)]
    split
    · next breach failed =>
        rw [Word.add_of_le (by omega)] at failed
        cases failed
    · next taken counted =>
        rw [Word.add_of_le (by omega)] at counted
        cases counted
        refine bind_congr fun ahead => ?_
        split
        · refine bind_congr fun next? => ?_
          cases next? <;> rfl
        · rfl
  have looked : kind recorder = .ok (recorder.current.kind, recorder) := rfl
  rw [again, bind_of_ok looked, if_pos goesOn, bind_of_ok turnEq, Option.elim_some]

theorem rootTurns_again {nested : Record Bool} {count : Nat} {after : Recorder}
    (notEnd : recorder.current.kind ≠ .endOfInput) (turns : count < limits.topLevelIterations)
    (isWord : limits.topLevelIterations ≤ Limits.greatest)
    (turn : statementOrAdvance nested recorder = .ok ((), after)) :
    rootTurns limits nested count recorder = rootTurns limits nested (count + 1) after :=
  repeatTurns_of_some (by simpa using notEnd) turns isWord (bind_of_ok turn)

theorem rootTurns_of_isEnd {nested : Record Bool} {count : Nat}
    (isEnd : recorder.current.kind = .endOfInput) :
    rootTurns limits nested count recorder = .ok ((), recorder) := by
  have looked : kind recorder = .ok (recorder.current.kind, recorder) := rfl
  rw [rootTurns, repeatTurns, bind_of_ok looked, if_neg (by simp [isEnd])]
  rfl

/-- Behind `taken` turns on one recorder the root does what it does behind `count` turns
on the other one, with any rule that does as the rule for statements does while there are
fewer steps than words. -/
def TurnsLead (limits : Limits) (taken : Nat) (before : Recorder) (count : Nat)
    (after : Recorder) : Prop :=
  ∀ nested : Record Bool,
    (∀ other, other.steps.length < UInt32.size → nested other = statement limits 1 other) →
      rootTurns limits nested taken before = rootTurns limits nested count after

/-- The root takes a turn for every at sign. -/
theorem InRow.exists_rootTurns {behind : Text} (row : SignRow behind) (deep : 1 ≤ limits.depth)
    (isWord : limits.topLevelIterations ≤ Limits.greatest) {left taken : Nat}
    (inRow : InRow taken (atSigns left behind) recorder)
    (inWords : 3 * (taken + left) ≤ UInt32.size + 1)
    (turns : taken + left ≤ limits.topLevelIterations) :
    ∃ after, InRow (taken + left) behind after ∧
      TurnsLead limits taken recorder (taken + left) after := by
  -- On the at signs that are left.
  induction left generalizing taken recorder with
  | zero => exact ⟨recorder, inRow, fun _ _ => rfl⟩
  | succ left inductionHypothesis =>
      have laterRow := row.atSigns left
      rw [atSigns_succ] at inRow
      obtain ⟨_, between, statementEq, rfl, inRowBetween⟩ :=
        (inRow.yields_sign laterRow deep (by omega)).exists_ok
      obtain ⟨after, inRowAfter, later⟩ :=
        inductionHypothesis inRowBetween (by omega) (by omega)
      rw [Nat.add_assoc, Nat.add_comm 1] at inRowAfter later
      refine ⟨after, inRowAfter, fun nested same => ?_⟩
      have notEnd : recorder.current.kind ≠ .endOfInput := by
        rw [inRow.stands.kind_of_sign laterRow]
        decide
      have lengthEq := inRow.length_eq
      have nestedEq := (same recorder (by omega)).trans statementEq
      rw [rootTurns_again notEnd (by omega) isWord (statementOrAdvance_of_ok nestedEq)]
      exact later nested same

/-! ## The root around the row -/

/-- The recording of a text that begins with at signs, up to the call of the rule for
statements behind them. -/
structure Called (limits : Limits) (count : Nat) (behind : Text) (called : Recorder) : Prop where
  in_row : InRow count behind called
  reached : Reached (atSigns count behind) (atSigns count behind).whole limits 1 called
  /-- What the turns that are left and the end of the root leave is the recording. -/
  recorded : ∀ {ended : Recorder} {steps : List BuildStep} {other : Kind},
    rootTurns limits (statement limits 1) count called = .ok ((), ended) →
      Stands [] steps [0] ended → steps[0]? = some (.start other) →
        ∃ recorder,
          record (atSigns count behind) (atSigns count behind).whole limits = .ok recorder ∧
            recorder.steps = steps.set 0 (.start .root) ++ [.finish]

theorem yields_closeRoot (stands : Stands [] steps [0] recorder) {other : Kind}
    (found : steps[0]? = some (.start other)) :
    (closeRoot ⟨0, 0⟩).Yields False recorder fun _ after => after.armed = [] ∧
      after.steps = steps.set 0 (.start .root) ++ [.finish] := by
  have atEnd : advanceToEnd recorder = .ok recorder := by
    rw [advanceToEnd, dif_pos stands.isEnd]
  have ended : (change advanceToEnd).Yields False recorder fun _ after => recorder = after :=
    .change atEnd rfl
  apply ended.bind
  rintro _ _ rfl
  have flushed : (change fun recorder => .ok recorder.flushTrivia).Yields False recorder
      fun _ after => recorder = after :=
    .change (congrArg Except.ok stands.flushTrivia_eq) rfl
  apply flushed.bind
  rintro _ _ rfl
  have marked : Stands [] steps ((⟨0, 0⟩ : Marker).serial :: []) recorder := stands
  apply (marked.complete found .root).mono
  intro _ after afterStands
  exact ⟨afterStands.armed_eq, afterStands.steps_eq⟩

/-- Under these ceilings so many at signs give as many steps as there are words. -/
structure FillsWords (limits : Limits) (count : Nat) : Prop where
  steps_eq : 3 * count + 1 = UInt32.size
  deep : 1 ≤ limits.depth
  turns : count < limits.topLevelIterations
  is_word : limits.topLevelIterations ≤ Limits.greatest

theorem fillsWords_mostTurns : FillsWords .mostTurns 1431655765 :=
  ⟨by decide, by decide, by decide, by decide⟩

/-- In front of a row the root begins, with no at sign taken. -/
theorem exists_begun {text : Text} (row : SignRow text) :
    ∃ reader ready begun, Reader.ofWindow text text.whole = .ok reader ∧
      reader.mark = text.byteLength ∧ (Recorder.ofReader reader 0).bump = .ok ready ∧
        start ready = .ok (⟨0, 0⟩, begun) ∧ InRow 0 text begun := by
  obtain ⟨reader, readerEq, markEq, reads⟩ := exists_inStep_whole text
  have blankReads : InStep (Recorder.ofReader reader 0).reader _ := reads
  obtain ⟨ready, bumpEq, issuedEq, readyStands⟩ := Stands.exists_bump row blankReads rfl
  let begun : Recorder := { ready.push (.start .tombstone) with issued := 1, armed := [0] }
  have startEq : start ready = .ok (⟨0, 0⟩, begun) := by
    have noSteps : ready.steps = [] := readyStands.steps_eq
    have noMarkers : ready.armed = [] := readyStands.armed_eq
    have noneIssued : ready.issued = 0 := issuedEq
    rw [start, Recorder.start, noSteps, List.isEmpty_nil, if_pos rfl, noneIssued, noSteps,
      noMarkers]
    rfl
  have stepsEq : begun.steps = [.start .tombstone] := congrArg (· ++ _) readyStands.steps_eq
  refine ⟨reader, ready, begun, readerEq, markEq, bumpEq, startEq, ?_⟩
  have stands : Stands text begun.steps [0] begun :=
    ⟨readyStands.ahead, readyStands.trivia_eq, rfl, rfl⟩
  exact ⟨stands, by rw [stepsEq]; rfl, by rw [stepsEq]; rfl, by rw [stepsEq]; rfl⟩

/-- Behind as many steps as there are words the root calls the rule for statements: up to
there it does the same with a rule that breaks off there. -/
theorem FillsWords.calls {count : Nat} (fills : FillsWords limits count) {behind : Text}
    {ready begun called : Recorder} {marker : Marker} (startEq : start ready = .ok (marker, begun))
    (inRow : InRow count behind called) (leads : TurnsLead limits 0 begun count called)
    (notEnd : called.current.kind ≠ .endOfInput) :
    Calls (rootAround limits) (statement limits 1) ready called := by
  obtain ⟨wraps, deep, turns, isWord⟩ := fills
  apply Calls.of_breaksOff
  intro other elsewhere breaks
  have same : ∀ recorder, recorder.steps.length < UInt32.size →
      other recorder = statement limits 1 recorder := by
    intro recorder fewer
    apply elsewhere
    rintro rfl
    have lengthEq := inRow.length_eq
    omega
  have turnsBreak : (rootTurns limits other count).BreaksOff called :=
    .repeatTurns (by simpa using notEnd) turns (by omega) breaks.statementOrAdvance.bind
  refine .behind startEq (.bind ?_)
  rw [BreaksOff, leads other same]
  exact turnsBreak

/-- The rule for statements is called behind as many steps as there are words. -/
theorem exists_called {count : Nat} (fills : FillsWords limits count) {behind : Text}
    (row : SignRow behind) (one : behind.byteLength = 1) :
    ∃ called, Called limits count behind called := by
  obtain ⟨reader, ready, begun, readerEq, markEq, bumpEq, startEq, begunInRow⟩ :=
    exists_begun (row.atSigns count)
  have wraps := fills.steps_eq
  have turns := fills.turns
  have isWord := fills.is_word
  obtain ⟨called, inRow, leads⟩ :=
    begunInRow.exists_rootTurns row fills.deep isWord (by omega) (by omega)
  rw [Nat.zero_add] at inRow leads
  have notEnd : called.current.kind ≠ .endOfInput := by
    cases row with
    | nothing => cases one
    | paren =>
        rw [inRow.stands.kind_of_paren]
        decide
    | sign row =>
        rw [inRow.stands.kind_of_sign row]
        decide
  refine ⟨called, inRow, .outermost readerEq bumpEq (fills.calls startEq inRow leads notEnd), ?_⟩
  intro ended steps other endedEq endedStands found
  obtain ⟨_, recorder, closeEq, armedEq, closedEq⟩ :=
    (yields_closeRoot endedStands found).exists_ok
  refine ⟨recorder, ?_, closedEq⟩
  rw [record_eq_ok_iff readerEq bumpEq, markEq, byteLength_atSigns]
  refine ⟨by omega, ?_, armedEq⟩
  rw [← leads _ fun _ _ => rfl] at endedEq
  rw [← rootAround_statement]
  exact (bind_of_ok startEq).trans ((bind_of_ok endedEq).trans closeEq)

/-! ## Behind as many steps as there are words -/

section Wrapped

variable {count : Nat} (fills : FillsWords limits count)

include fills

/-- Before a closing parenthesis the rule for statements leaves a tombstone there, and the
recording goes on to its end. -/
theorem exists_tombstone_left :
    ∃ called after recorder,
      Reached (atSigns count [')']) (atSigns count [')']).whole limits 1 called ∧
        statement limits 1 called = .ok (false, after) ∧ called.trivia = [] ∧
          after.steps = called.steps ++ [.start .tombstone] ∧
            record (atSigns count [')']) (atSigns count [')']).whole limits = .ok recorder := by
  obtain ⟨called, isCalled⟩ := exists_called fills .paren rfl
  have inRow := isCalled.in_row
  have wrapped : called.steps.length % UInt32.size ≠ called.steps.length := by
    rw [inRow.length_eq, fills.steps_eq, Nat.mod_self]
    decide
  obtain ⟨_, after, statementEq, rfl, currentEq, afterStands⟩ :=
    (yields_paren fills.deep inRow.stands inRow.steps_ne_nil wrapped).exists_ok
  have notEnd : after.current.kind ≠ .endOfInput := by
    rw [afterStands.kind_of_paren]
    decide
  obtain ⟨_, last, advanceEq, lastStands⟩ := (afterStands.advance .paren notEnd).exists_ok
  have turnEq : statementOrAdvance (statement limits 1) called = .ok ((), last) := by
    rw [statementOrAdvance_of_ok statementEq, if_pos (by simp [currentEq]), advanceEq]
  have turnsEq := rootTurns_again (currentEq ▸ notEnd) fills.turns fills.is_word turnEq
  rw [rootTurns_of_isEnd lastStands.isEnd] at turnsEq
  have found : (called.steps ++ [.start .tombstone] ++ [.token after.current])[0]? =
      some (.start .tombstone) := by rw [List.append_assoc, inRow.root_append]
  obtain ⟨recorder, recordEq, _⟩ := isCalled.recorded turnsEq lastStands found
  exact ⟨called, after, recorder, isCalled.reached, statementEq, inRow.stands.trivia_eq,
    afterStands.steps_eq, recordEq⟩

/-- At one more at sign it gives the kind of the block to the root, and of the recording
the builder makes no tree. -/
theorem exists_root_spoilt :
    ∃ called after,
      Reached (atSigns count ['@']) (atSigns count ['@']).whole limits 1 called ∧
        statement limits 1 called = .ok (true, after) ∧
          called.steps[0]? = some (.start .tombstone) ∧
            after.steps[0]? = some (.start .templateBlock) ∧
              ∀ parsed,
                parseRecorded (atSigns count ['@']) (atSigns count ['@']).whole limits ≠
                  .ok parsed := by
  obtain ⟨called, isCalled⟩ := exists_called fills (.sign .nothing) rfl
  have inRow := isCalled.in_row
  have wrapped : called.steps.length % UInt32.size = 0 := by
    rw [inRow.length_eq, fills.steps_eq, Nat.mod_self]
  have begunRoot : (begunSteps called.steps called.current)[0]? = some (.start .tombstone) := by
    rw [begunSteps, List.append_assoc, inRow.root_append]
  have block := yields_sign fills.deep .nothing inRow.stands inRow.steps_ne_nil
    ⟨_, wrapped ▸ begunRoot⟩
  obtain ⟨_, after, statementEq, rfl, afterStands⟩ := block.exists_ok
  have turnEq : statementOrAdvance (statement limits 1) called = .ok ((), after) :=
    statementOrAdvance_of_ok statementEq
  have notEnd : called.current.kind ≠ .endOfInput := by
    rw [inRow.stands.kind_of_sign .nothing]
    decide
  have turnsEq := rootTurns_again notEnd fills.turns fills.is_word turnEq
  rw [rootTurns_of_isEnd afterStands.isEnd] at turnsEq
  have blockRoot : (blockSteps called.steps called.current)[0]? = some (.start .templateBlock) := by
    have begunPos : 0 < (begunSteps called.steps called.current).length := by simp [begunSteps]
    rw [blockSteps, wrapped, List.getElem?_append_left (by rwa [List.length_set]),
      List.getElem?_set_self begunPos]
  have blockSurplus : surplus (blockSteps called.steps called.current) = 0 := by
    rw [blockSteps, wrapped, surplus_concat, surplus_set_start (by decide) begunRoot, begunSteps,
      surplus_concat, surplus_concat, inRow.surplus_eq, BuildStep.weight_tombstone_of_le
        (by rw [inRow.length_eq, fills.steps_eq])]
    rfl
  obtain ⟨recorder, recordEq, stepsEq⟩ := isCalled.recorded turnsEq afterStands blockRoot
  refine ⟨called, after, isCalled.reached, statementEq, inRow.root_eq,
    afterStands.steps_eq ▸ blockRoot, ?_⟩
  intro parsed parsedEq
  obtain ⟨recorded, foundEq, parsedEq⟩ := exists_of_bind_eq_ok parsedEq
  cases recordEq.symm.trans foundEq
  obtain ⟨built, runEq, _⟩ := exists_of_bind_eq_ok parsedEq
  have noSurplus := surplus_nonpos_of_run (Breach.eq_ok_of_ofFault runEq)
  rw [stepsEq, surplus_concat, surplus_set_start (by decide) blockRoot, blockSurplus] at noSurplus
  change (0 + 1 : Int) ≤ 0 at noSurplus
  omega

end Wrapped

/-- The answer before a closing parenthesis behind as many steps as there are words. -/
theorem not_answers_of_tombstone (deep : 1 ≤ limits.depth) {before after : Recorder}
    (noTrivia : before.trivia = []) (stepsEq : after.steps = before.steps ++ [.start .tombstone]) :
    ¬ Answers limits 1 before false after := by
  intro answers
  cases answers with
  | missed _ waits =>
      rcases waits.steps_cases with ⟨same, _⟩ | ⟨flushed, _⟩
      · simp [stepsEq] at same
      · simp [stepsEq, noTrivia] at flushed
  | skipped outside => omega
  | skippedAtEnd outside => omega

/-- The answer at an at sign that has given its kind to the root. -/
theorem not_answers_of_root {before after : Recorder}
    (rootEq : before.steps[0]? = some (.start .tombstone))
    (spoiltEq : after.steps[0]? = some (.start .templateBlock)) :
    ¬ Answers limits 1 before true after := by
  intro answers
  cases answers with
  | node _ _ _ records _ =>
      have begun : 0 < before.steps.length := (List.getElem?_eq_some_iff.mp rootEq).1
      rw [records.steps_eq, List.getElem?_append_left begun, rootEq] at spoiltEq
      cases spoiltEq

end Record

end TemplateFrontend
