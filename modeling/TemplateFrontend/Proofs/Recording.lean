import TemplateFrontend.Proofs.Parsing
import TemplateFrontend.Proofs.Recording.Rules
import TemplateFrontend.Recording.Parsing

/-!
Contract: recording an admitted window gives the tree of the window, if any, and breaks
off only where positions leave the words.

Owns:
- `rootAround`, the recording of a root around the statements of any rule;
- `exists_root`, what the recording of the root of an admitted window leaves;
- `parse_of_parseRecorded`: whatever the window, a tree that is made by recording is the
  one that parsing makes;
- `parse_never_breaks_off`, which says that the recording of a window shorter than a
  gibibyte answers, and that a window that is no slice breaks off at once.
-/

namespace TemplateFrontend

open Outline (frontierAll stepsAll Every EveryAll NodeClaim)

theorem Breach.eq_ok_of_ofFault {Answer : Type} {answer : Except Fault Answer} {value : Answer}
    (succeeds : Breach.ofFault answer = .ok value) : answer = .ok value := by
  cases answer with
  | error broken => cases succeeds
  | ok found =>
      cases succeeds
      rfl

/-! ## The end of a recording -/

namespace Record

open Grammar (placeRest)

theorem placeRest_advance (draft : Draft) : placeRest draft.advance = placeRest draft := by
  rcases draft.next_cases with empty | ⟨token, later, next⟩
  · rw [Draft.advance_of_settle_rest_nil empty]
  · rw [placeRest, placeRest, Draft.foldl_leaf, Draft.foldl_leaf, next.advance_eq, next.rest_eq]
    simp [Draft.leaves]

/-- At the end, placing what is left is placing trivia. -/
theorem placeRest_placed {draft : Draft} (empty : draft.settle.rest = []) :
    (placeRest draft).placed = draft.settle.placed := by
  have onlyTrivia := draft.leading_append_settle_rest
  rw [empty, List.append_nil] at onlyTrivia
  rw [placeRest, Draft.foldl_leaf, Draft.settle_eq, onlyTrivia]

/-- What a ceiling has left over is recorded up to the end. -/
theorem exists_advanceToEnd {cramped : Prop} {frame : List BuildStep} {armed : List Nat}
    {recorder : Recorder} {draft : Draft}
    (represents : Represents cramped 0 frame armed recorder draft) :
    ∃ after last, advanceToEnd recorder = .ok after ∧
      Represents cramped 0 frame armed after last ∧
        last.settle.rest = [] ∧ placeRest last = placeRest draft := by
  cases isEnd : draft.atEnd with
  | true =>
      refine ⟨recorder, draft, ?_, represents, represents.settle_rest_of_atEnd isEnd, rfl⟩
      rw [advanceToEnd, dif_pos (represents.isEnd_iff.mpr isEnd)]
  | false =>
      obtain ⟨between, advanceEq, representsBetween⟩ :=
        (represents.mono (Nat.zero_le 2)).advance_of_notEnd isEnd
      have shorter := Draft.rest_advance_length_lt isEnd
      obtain ⟨after, last, laterEq, representsAfter, atEnd, sameRest⟩ :=
        exists_advanceToEnd representsBetween
      refine ⟨after, last, ?_, representsAfter, atEnd, sameRest.trans (placeRest_advance draft)⟩
      rw [advanceToEnd, dif_neg (by simp [represents.isEnd_iff, isEnd])]
      split
      · next breach failed => cases advanceEq.symm.trans failed
      · next found foundEq =>
          cases advanceEq.symm.trans foundEq
          exact laterEq
termination_by draft.rest.length

/-- The turns of the root behind the first `count` ones. -/
def rootTurns (limits : Limits) (nested : Record Bool) (count : Nat) : Record Unit :=
  repeatTurns (· != .endOfInput) limits.topLevelIterations .topLevel
    (fun _ => do
      statementOrAdvance nested
      return some ())
    count ()

/-- What ends the root behind its turns. -/
def closeRoot (marker : Marker) : Record Unit := do
  change advanceToEnd
  change fun recorder => .ok recorder.flushTrivia
  complete marker .root

/-- The root around the statements of any rule. -/
def rootAround (limits : Limits) (nested : Record Bool) : Record Unit := do
  let marker ← start
  rootTurns limits nested 0
  closeRoot marker

theorem rootAround_statement (limits : Limits) :
    rootAround limits (statement limits 1) = root limits := rfl

theorem performs_rootTurns {cramped : Prop} {limits : Limits} (words : limits.AreWords)
    {nested : Record Bool}
    (statements : PerformsStatement cramped 1 nested (Grammar.statement limits limits.depth)) :
    Performs cramped 1 (rootTurns limits nested 0) (Grammar.topLevel limits) := by
  apply performs_loop (· != .endOfInput) rfl .topLevel words.topLevelIterations
  intro frame armed recorder draft heightEq represents notEnd
  apply (performsAhead_statementOrAdvance statements
    (Grammar.statement_proceeds limits limits.depth) heightEq represents notEnd).bind
  intro _ after representsAfter
  exact .pure (.again representsAfter)

/-- The recorder has used up all markers, its steps are kept for an outline, and it has
met the ceilings in order. -/
structure Recorded (cramped : Prop) (recorder : Recorder) (outline : Outline)
    (trips : List Trip) : Prop where
  armed_eq : recorder.armed = []
  kept : Kept cramped [] recorder.steps [outline]
  trips_eq : recorder.trips.reverse = trips

theorem Recorded.steps_eq {recorder : Recorder} {outline : Outline} {trips : List Trip}
    (recorded : Recorded False recorder outline trips) : recorder.steps = outline.steps := by
  rw [recorded.kept.steps_eq, List.reverse_singleton, Outline.stepsAll_cons, Outline.stepsAll_nil,
    List.append_nil, List.nil_append]

/-- The root is one node around everything. -/
theorem yields_rootAround {cramped : Prop} {limits : Limits} (words : limits.AreWords)
    {nested : Record Bool}
    (statements : PerformsStatement cramped 1 nested (Grammar.statement limits limits.depth))
    {tokens : List Token} {stop : Nat} {ready started : Recorder} {marker : Marker}
    (startEq : ready.start = (marker, started)) (marks : Marks cramped [] [] [] marker)
    (represents : Represents cramped 0 [.start .tombstone] [marker.serial] started
      (.ofTokens tokens stop)) :
    (rootAround limits nested).Yields cramped ready fun _ after =>
      Recorded cramped after (Grammar.program limits tokens stop).1
        (Grammar.program limits tokens stop).2 := by
  have begun : start.Yields cramped ready fun answer after => marker = answer ∧ started = after :=
    .of_ok (congrArg Except.ok startEq) ⟨rfl, rfl⟩
  apply begun.bind
  rintro _ _ ⟨rfl, rfl⟩
  apply (performs_rootTurns words statements rfl represents).bind
  intro _ looped representsLoop
  obtain ⟨ended, last, endedEq, representsLast, atEnd, sameRest⟩ :=
    exists_advanceToEnd representsLoop
  have endedYields : (change advanceToEnd).Yields cramped looped fun _ after => ended = after :=
    .change endedEq rfl
  apply endedYields.bind
  rintro _ _ rfl
  have flushedYields : (change fun recorder => .ok recorder.flushTrivia).Yields cramped ended
      fun _ after => ended.flushTrivia = after := .change rfl rfl
  apply flushedYields.bind
  rintro _ _ rfl
  have inside := representsLast.kept_flushTrivia
  rw [← placeRest_placed atEnd, sameRest] at inside
  have armedEq : ended.flushTrivia.armed = [marker.serial] := representsLast.armed_eq
  apply (marks.complete armedEq inside (by decide)).mono
  rintro _ _ ⟨steps, rfl, _, kept⟩
  refine ⟨rfl, kept, ?_⟩
  rw [Grammar.program, ← sameRest]
  exact congrArg List.reverse representsLast.trips_eq

end Record

/-- Behind the first trivia the root begins in front of it, in the place of the draft
that has placed nothing. -/
theorem exists_started {cramped : Prop} {reader : Reader} {scanner : Scanner}
    (reads : InStep reader scanner) (fits : cramped ∨ FitsWords scanner.tokens) (offset : Nat) :
    ∃ ready marker started, (Recorder.ofReader reader offset).bump = .ok ready ∧
      ready.start = (marker, started) ∧ Marks cramped [] [] [] marker ∧
        Represents cramped 0 [.start .tombstone] [marker.serial] started
          (.ofTokens scanner.tokens scanner.stop) := by
  have blankReads : InStep (Recorder.ofReader reader offset).reader scanner := reads
  obtain ⟨behindReader, behind, bumpEq, behindReads, behindTokens, behindStop⟩ :=
    Recorder.exists_bump blankReads
  refine ⟨_, ⟨0, 0⟩, _, bumpEq, rfl, ⟨.nothing [], rfl, Or.inr (by decide)⟩, ?_⟩
  constructor
  case kept => exact .nothing _
  case armed_eq => rfl
  case enclosed => simp
  case armed_le => exact Nat.le_refl 1
  case trips_eq => rfl
  case trivia_eq => rfl
  case current_eq => rfl
  case reads => exact ⟨behind, behindReads, behindTokens, behindStop⟩
  case tiled => exact ⟨scanner.offset, scanner.tiles_tokens⟩
  case kinds => exact scanner.isTokenKind_of_mem_tokens
  case room =>
    refine fits.imp_right fun fits => ?_
    rw [FitsWords] at fits
    change 1 + 1 + stepRoom scanner.tokens ≤ _
    omega

/-- The root of an admitted window is recorded for its program. -/
theorem exists_root {cramped : Prop} {text : Text} {window : Span} {limits : Limits}
    (words : limits.AreWords) (admitted : text.Admits window) {tokens : List Token}
    (tokenized : tokenize text window = .ok tokens) (fits : cramped ∨ FitsWords tokens) :
    ∃ reader ready, Reader.ofWindow text window = .ok reader ∧ reader.mark = window.length ∧
      (Recorder.ofReader reader window.start).bump = .ok ready ∧
        (Record.root limits).Yields cramped ready fun _ after =>
          Record.Recorded cramped after (Grammar.program limits tokens window.stop).1
            (Grammar.program limits tokens window.stop).2 := by
  obtain ⟨reader, scanner, readerEq, scannerEq, reads, windowEq⟩ := exists_inStep admitted
  rw [tokenize, scannerEq] at tokenized
  cases tokenized
  have markEq : reader.mark = window.length := by
    rw [windowEq, Span.length, Scanner.stop, reads.mark_eq, ← reads.rest_eq,
      Nat.add_sub_cancel_left]
  obtain ⟨ready, marker, started, bumpEq, startEq, marks, represents⟩ :=
    exists_started reads fits window.start
  have statements : Record.PerformsStatement cramped 1 _ _ :=
    Record.performs_statement words (Nat.add_comm 1 limits.depth)
  have root := Record.yields_rootAround words statements startEq marks represents
  rw [Record.rootAround_statement] at root
  refine ⟨reader, ready, readerEq, markEq, bumpEq, ?_⟩
  rw [windowEq]
  exact root

/-- A window is recorded if its length is a word, its root is recorded, and no marker is
left over. -/
theorem record_eq_ok_iff {text : Text} {window : Span} {limits : Limits} {reader : Reader}
    {ready recorder : Recorder} (readerEq : Reader.ofWindow text window = .ok reader)
    (bumpEq : (Recorder.ofReader reader window.start).bump = .ok ready) :
    record text window limits = .ok recorder ↔ reader.mark ≤ Limits.greatest ∧
      Record.root limits ready = .ok ((), recorder) ∧ recorder.armed = [] := by
  rw [record, readerEq]
  dsimp only [bind, Except.bind]
  rw [bumpEq, Word.of]
  dsimp only
  by_cases isWord : reader.mark ≤ Limits.greatest
  · rw [if_pos isWord]
    dsimp only
    cases Record.root limits ready with
    | error breach => simp
    | ok result =>
        obtain ⟨_, recorded⟩ := result
        dsimp only
        cases armedEq : recorded.armed with
        | nil =>
            simp only [pure, Except.pure, Except.ok.injEq, Prod.mk.injEq, true_and, isWord]
            constructor
            · rintro rfl
              exact ⟨rfl, armedEq⟩
            · exact fun found => found.1
        | cons serial later =>
            constructor
            · rintro ⟨⟩
            · rintro ⟨_, rootEq, noneLeft⟩
              cases rootEq
              cases armedEq.symm.trans noneLeft
  · rw [if_neg isWord]
    simp [isWord]

/-- The recording of an admitted window that fits has the steps and the met ceilings of
its program. -/
theorem exists_record {text : Text} {window : Span} {limits : Limits} (words : limits.AreWords)
    (admitted : text.Admits window) (isWord : window.length ≤ Limits.greatest)
    {tokens : List Token} (tokenized : tokenize text window = .ok tokens)
    (fits : FitsWords tokens) :
    ∃ recorder, record text window limits = .ok recorder ∧
      Record.Recorded False recorder (Grammar.program limits tokens window.stop).1
        (Grammar.program limits tokens window.stop).2 := by
  obtain ⟨reader, ready, readerEq, markEq, bumpEq, root⟩ :=
    exists_root words admitted tokenized (Or.inr fits)
  obtain ⟨_, recorder, rootEq, recorded⟩ := root.exists_ok
  refine ⟨recorder, ?_, recorded⟩
  rw [record_eq_ok_iff readerEq bumpEq]
  exact ⟨markEq ▸ isWord, rootEq, recorded.armed_eq⟩

/-- Whatever the window, a recording that does not break off is kept for its program. -/
theorem recorded_of_record {text : Text} {window : Span} {limits : Limits}
    (words : limits.AreWords) {recorder : Recorder}
    (recordEq : record text window limits = .ok recorder) :
    ∃ tokens, tokenize text window = .ok tokens ∧
      Record.Recorded True recorder (Grammar.program limits tokens window.stop).1
        (Grammar.program limits tokens window.stop).2 := by
  have admitted : text.Admits window := by
    rw [Text.admits_iff_slice]
    obtain ⟨reader, readerEq, _⟩ := exists_of_bind_eq_ok recordEq
    obtain ⟨inside, insideEq, _⟩ := exists_of_bind_eq_ok readerEq
    exact ⟨inside, Breach.eq_ok_of_ofFault insideEq⟩
  obtain ⟨tokens, tokenized, _, _⟩ := tokenize_tiles admitted
  obtain ⟨reader, ready, readerEq, _, bumpEq, root⟩ :=
    exists_root words admitted tokenized (Or.inl trivial)
  obtain ⟨_, rootEq, _⟩ := (record_eq_ok_iff readerEq bumpEq).mp recordEq
  exact ⟨tokens, tokenized, root.of_eq rootEq⟩

/-! ## Parsing by recording -/

/-- A finished recording of a window: every marker is used up, the steps are one root
around all tokens, none of them is a tombstone, and the builder makes of them one
finished root and nothing else. -/
structure Recorder.Builds (recorder : Recorder) (window : Span) (tokens : List Token)
    (parsed : Parsed) : Prop where
  armed_eq : recorder.armed = []
  balanced : ∃ parts, recorder.steps = (Outline.node .root parts).steps ∧
    frontierAll parts = tokens
  no_tombstone : .start .tombstone ∉ recorder.steps
  built : (Builder.atOffset window.start).run recorder.steps =
    .ok ⟨[], some parsed.tree, window.stop⟩
  trips_eq : recorder.trips.reverse = parsed.trips

theorem record_builds {text : Text} {window : Span} {limits : Limits} (words : limits.AreWords)
    (admitted : text.Admits window) (isWord : window.length ≤ Limits.greatest)
    {tokens : List Token} (tokenized : tokenize text window = .ok tokens)
    (fits : FitsWords tokens) :
    ∃ recorder parsed, record text window limits = .ok recorder ∧
      parse text window limits = .ok parsed ∧ recorder.Builds window tokens parsed := by
  obtain ⟨found, parts, parsed, reading⟩ := exists_reading limits admitted
  cases reading.tokenized.symm.trans tokenized
  obtain ⟨recorder, recordEq, recorded⟩ := exists_record words admitted isWord tokenized fits
  have stepsEq := recorded.steps_eq
  rw [reading.outline_eq] at stepsEq
  refine ⟨recorder, parsed, recordEq, reading.parsed_eq, ?_⟩
  constructor
  case armed_eq => exact recorded.armed_eq
  case balanced => exact ⟨parts, stepsEq, reading.frontier_eq⟩
  case no_tombstone =>
    intro member
    rw [stepsEq, Outline.steps_node] at member
    have below : .start .tombstone ∈ stepsAll parts := by simpa using member
    exact EveryAll.of_mem_stepsAll (fun _ _ _ _ origin => origin.begins.1) parts _ _
      reading.every below
  case built =>
    rw [stepsEq, reading.tree_eq]
    exact Outline.run_steps_node reading.parts_tiled
  case trips_eq => exact recorded.trips_eq.trans reading.trips_eq

/-- Whatever the length of the window, a tree that is made by recording it is the tree
that parsing it makes. A marker whose position has lost its high bits leaves a tombstone
when it is abandoned, which the builder does not see; when it is completed it leaves a
surplus, of which the builder makes no tree. -/
theorem parse_of_parseRecorded {text : Text} {window : Span} {limits : Limits} {parsed : Parsed}
    (words : limits.AreWords) (parsedEq : parseRecorded text window limits = .ok parsed) :
    parse text window limits = .ok parsed := by
  obtain ⟨recorder, recordEq, parsedEq⟩ := exists_of_bind_eq_ok parsedEq
  obtain ⟨built, runEq, parsedEq⟩ := exists_of_bind_eq_ok parsedEq
  obtain ⟨tree, finishEq, parsedEq⟩ := exists_of_bind_eq_ok parsedEq
  cases parsedEq
  have runEq := Breach.eq_ok_of_ofFault runEq
  obtain ⟨tokens, tokenized, recorded⟩ := recorded_of_record words recordEq
  have noSurplus := surplus_nonpos_of_run runEq
  cases recorded.kept with
  | spoilt _ more => exact absurd (Int.lt_of_lt_of_le more noSurplus) (by decide)
  | clean steps stepsEq visible _ _ =>
      have visibleSteps : recorder.steps.filter (fun step => step != .start .tombstone) =
          (Grammar.program limits tokens window.stop).1.steps := by
        rw [stepsEq, List.nil_append, visible, List.reverse_singleton, Outline.stepsAll_cons,
          Outline.stepsAll_nil, List.append_nil]
      rw [visibleSteps] at runEq
      rw [parse, tokenized]
      dsimp only [bind, Except.bind]
      rw [Outline.build]
      dsimp only [bind, Except.bind]
      rw [runEq]
      dsimp only
      rw [Breach.eq_ok_of_ofFault finishEq]
      dsimp only [pure, Except.pure]
      rw [recorded.trips_eq]

/-- A window that is shorter, in bytes, fits whatever is in it. -/
def gibibyte : Nat := 1024 * 1024 * 1024

/-- Under any ceilings that are words, the recording of a window in bounds that is
shorter than a gibibyte never breaks off, and the builder makes of it the tree of the
window. A window that is no slice of the text breaks off at once. -/
theorem parse_never_breaks_off (text : Text) (window : Span) (limits : Limits)
    (words : limits.AreWords) :
    (text.Admits window → window.length < gibibyte →
      ∃ recorder tokens parsed, record text window limits = .ok recorder ∧
        tokenize text window = .ok tokens ∧ recorder.Builds window tokens parsed ∧
          parseRecorded text window limits = .ok parsed ∧
            parse text window limits = .ok parsed) ∧
      (¬ text.Admits window →
        parseRecorded text window limits = .error (.fault (.outsideText window)) ∧
          parse text window limits = .error (.outsideText window)) := by
  constructor
  · intro admitted short
    have gibibyteEq : gibibyte = 1073741824 := rfl
    have greatestEq : Limits.greatest = 4294967295 := rfl
    obtain ⟨tokens, tokenized, tiled, _⟩ := tokenize_tiles admitted
    have fits : FitsWords tokens := by
      apply fitsWords_of_tiles tiled
      rw [Span.length] at short
      omega
    obtain ⟨recorder, parsed, recordEq, parsedEq, builds⟩ :=
      record_builds words admitted (by omega) tokenized fits
    refine ⟨recorder, tokens, parsed, recordEq, tokenized, builds, ?_, parsedEq⟩
    have allKept : recorder.steps.filter (fun step => step != .start .tombstone) =
        recorder.steps := by
      apply List.filter_eq_self.mpr
      intro step member
      rw [bne_iff_ne]
      rintro rfl
      exact builds.no_tombstone member
    rw [parseRecorded, recordEq]
    dsimp only [bind, Except.bind]
    rw [allKept, builds.built, builds.trips_eq]
    rfl
  · intro outside
    have sliceEq : text.slice window = .error (.outsideText window) := by
      cases sliced : text.slice? window with
      | none => rw [Text.slice, sliced]
      | some inside =>
          have inBounds : text.slice window = .ok inside := by rw [Text.slice, sliced]
          exact absurd (Text.admits_iff_slice.mpr ⟨inside, inBounds⟩) outside
    constructor
    · rw [parseRecorded, record, Reader.ofWindow, sliceEq]
      rfl
    · rw [parse, tokenize, Scanner.ofWindow, sliceEq]
      rfl

/-- A window inside a text, with a marker that is abandoned, under the greatest
ceilings; and a window of the same text that cuts a character. -/
theorem parse_never_breaks_off_at_greatest :
    Text.Admits "é return ) é".toList ⟨3, 11⟩ ∧ ¬ Text.Admits "é return ) é".toList ⟨1, 11⟩ ∧
      (∃ recorder tokens parsed,
        record "é return ) é".toList ⟨3, 11⟩
            ⟨4294967295, 4294967295, 4294967295, 4294967295, 4294967295⟩ = .ok recorder ∧
          tokenize "é return ) é".toList ⟨3, 11⟩ = .ok tokens ∧
          recorder.Builds ⟨3, 11⟩ tokens parsed ∧
          parseRecorded "é return ) é".toList ⟨3, 11⟩
            ⟨4294967295, 4294967295, 4294967295, 4294967295, 4294967295⟩ = .ok parsed ∧
          parse "é return ) é".toList ⟨3, 11⟩
            ⟨4294967295, 4294967295, 4294967295, 4294967295, 4294967295⟩ = .ok parsed) ∧
      parseRecorded "é return ) é".toList ⟨1, 11⟩
        ⟨4294967295, 4294967295, 4294967295, 4294967295, 4294967295⟩ =
          .error (.fault (.outsideText ⟨1, 11⟩)) ∧
      parse "é return ) é".toList ⟨1, 11⟩
        ⟨4294967295, 4294967295, 4294967295, 4294967295, 4294967295⟩ =
          .error (.outsideText ⟨1, 11⟩) := by
  have words : Limits.AreWords
      ⟨4294967295, 4294967295, 4294967295, 4294967295, 4294967295⟩ :=
    ⟨by decide, by decide, by decide, by decide, by decide⟩
  have admitted : Text.Admits "é return ) é".toList ⟨3, 11⟩ :=
    { ordered := by decide
      start_boundary := ⟨"é ".toList, "return ) é".toList, by decide, by decide⟩
      stop_boundary := ⟨"é return )".toList, " é".toList, by decide, by decide⟩ }
  have outside : ¬ Text.Admits "é return ) é".toList ⟨1, 11⟩ := by
    rw [Text.admits_iff_slice]
    rintro ⟨inside, sliced⟩
    have cut : Text.slice "é return ) é".toList ⟨1, 11⟩ = .error (.outsideText ⟨1, 11⟩) := by rfl
    cases cut.symm.trans sliced
  have inBounds := (parse_never_breaks_off _ _ _ words).1 admitted (by decide)
  have outOfBounds := (parse_never_breaks_off _ _ _ words).2 outside
  exact ⟨admitted, outside, inBounds, outOfBounds⟩

end TemplateFrontend
