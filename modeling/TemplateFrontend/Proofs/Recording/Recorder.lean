import TemplateFrontend.Proofs.Recording.Reader
import TemplateFrontend.Proofs.Recording.Steps
import TemplateFrontend.Recording.Recorder

/-!
Contract: a recorder works like a draft, and breaks off only where positions leave the
words.

Owns:
- `Record.Yields`, an action with a claim about what it leaves, which breaks off at most
  where it is `cramped`;
- `Represents`, a recorder that is in the place of a draft: its steps are kept for the
  parts that the draft has placed, behind a frame of earlier steps;
- `Marks`, a marker for a node that begins behind the steps of a recorder;
- one lemma for each transition of a recorder, which names the transition of the
  draft.

Where it is not cramped, a row of tokens has room for no more than three steps or markers
for each significant one: a node records a token of its own. So every position is a word.
-/

namespace TemplateFrontend

open Outline (stepsAll)

/-! ## Actions and what they leave -/

namespace Record

/-- The action breaks off only where it is `cramped`; otherwise it answers, and the claim
holds of its answer and of the recorder that it leaves. -/
def Yields {Answer : Type} (action : Record Answer) (cramped : Prop) (recorder : Recorder)
    (claim : Answer → Recorder → Prop) : Prop :=
  match action recorder with
  | .ok (answer, after) => claim answer after
  | .error _ => cramped

namespace Yields

variable {First Second : Type} {cramped : Prop} {recorder : Recorder}

theorem of_ok {action : Record First} {claim : First → Recorder → Prop} {answer : First}
    {after : Recorder} (actionEq : action recorder = .ok (answer, after))
    (holds : claim answer after) : action.Yields cramped recorder claim := by
  rw [Yields, actionEq]
  exact holds

theorem of_error {action : Record First} {claim : First → Recorder → Prop} {breach : Breach}
    (actionEq : action recorder = .error breach) (allowed : cramped) :
    action.Yields cramped recorder claim := by
  rw [Yields, actionEq]
  exact allowed

/-- What an action yields is what it answers. -/
theorem of_eq {action : Record First} {claim : First → Recorder → Prop} {answer : First}
    {after : Recorder} (yields : action.Yields cramped recorder claim)
    (answerEq : action recorder = .ok (answer, after)) : claim answer after := by
  rwa [Yields, answerEq] at yields

theorem exists_ok {action : Record First} {claim : First → Recorder → Prop}
    (yields : action.Yields False recorder claim) :
    ∃ answer after, action recorder = .ok (answer, after) ∧ claim answer after := by
  unfold Yields at yields
  split at yields
  · next answer after actionEq => exact ⟨answer, after, actionEq, yields⟩
  · exact yields.elim

theorem pure {claim : First → Recorder → Prop} {answer : First} (holds : claim answer recorder) :
    Yields (Pure.pure answer) cramped recorder claim := holds

theorem bind {first : Record First} {later : First → Record Second}
    {between : First → Recorder → Prop} {claim : Second → Recorder → Prop}
    (begun : first.Yields cramped recorder between)
    (goesOn : ∀ answer after, between answer after → (later answer).Yields cramped after claim) :
    Yields (first >>= later) cramped recorder claim := by
  have bindEq : (first >>= later) recorder =
      Except.bind (first recorder) fun result => later result.1 result.2 := rfl
  rw [Yields, bindEq]
  unfold Yields at begun
  cases firstEq : first recorder with
  | error breach =>
      rw [firstEq] at begun
      exact begun
  | ok result =>
      obtain ⟨answer, after⟩ := result
      rw [firstEq] at begun
      exact goesOn answer after begun

theorem mono {action : Record First} {claim claim' : First → Recorder → Prop}
    (yields : action.Yields cramped recorder claim)
    (implies : ∀ answer after, claim answer after → claim' answer after) :
    action.Yields cramped recorder claim' := by
  unfold Yields at yields ⊢
  split
  · next answer after actionEq =>
      rw [actionEq] at yields
      exact implies answer after yields
  · next breach actionEq =>
      rw [actionEq] at yields
      exact yields

/-- Looking at the recorder changes nothing. -/
theorem observe_bind {look : Recorder → First} {later : First → Record Second}
    {claim : Second → Recorder → Prop}
    (goesOn : (later (look recorder)).Yields cramped recorder claim) :
    (observe look >>= later).Yields cramped recorder claim := goesOn

/-- An answer that does not look at the recorder. -/
theorem lift_bind {answer : Except Breach First} {value : First} {later : First → Record Second}
    {claim : Second → Recorder → Prop} (answerEq : answer = .ok value)
    (goesOn : (later value).Yields cramped recorder claim) :
    ((liftM answer : Record First) >>= later).Yields cramped recorder claim := by
  rw [answerEq]
  exact goesOn

/-- A sum that is a word, unless it is cramped. -/
theorem add_bind {left right : Nat} {later : Nat → Record Second}
    {claim : Second → Recorder → Prop} (fits : cramped ∨ left + right ≤ Limits.greatest)
    (goesOn : (later (left + right)).Yields cramped recorder claim) :
    ((liftM (Word.add left right) : Record Nat) >>= later).Yields cramped recorder claim := by
  rw [Word.add]
  split
  · exact goesOn
  · next tooGreat => exact .of_error rfl (fits.resolve_right tooGreat)

theorem change {step : Recorder → Except Breach Recorder} {after : Recorder}
    {claim : Unit → Recorder → Prop} (stepEq : step recorder = .ok after)
    (holds : claim () after) : (Record.change step).Yields cramped recorder claim := by
  apply of_ok _ holds
  rw [Record.change, stepEq]
  rfl

end Yields

end Record

/-! ## Reading ahead -/

namespace Recorder

variable {recorder : Recorder} {token : Token} {after : Reader}

theorem bump_of_trivia (read : recorder.reader.next = .ok (token, after))
    (trivia : token.isTrivia = true) :
    recorder.bump =
      bump { recorder with reader := after, trivia := recorder.trivia ++ [token] } := by
  rw [bump]
  split
  · next breach failed => cases read.symm.trans failed
  · next other behind found =>
      cases read.symm.trans found
      exact dif_pos trivia

theorem bump_of_significant (read : recorder.reader.next = .ok (token, after))
    (significant : token.isTrivia = false) :
    recorder.bump = .ok { recorder with reader := after, current := token } := by
  rw [bump]
  split
  · next breach failed => cases read.symm.trans failed
  · next other behind found =>
      cases read.symm.trans found
      exact dif_neg (by simp [significant])

/-- Reading on brings the recorder to the next significant token, with the trivia
before it. -/
theorem exists_bump {recorder : Recorder} {scanner : Scanner}
    (reads : InStep recorder.reader scanner) :
    ∃ reader behind, recorder.bump = .ok { recorder with
        reader := reader
        current := (scanner.tokens.dropWhile Token.isTrivia).headD
          ⟨.endOfInput, .emptyAt scanner.stop⟩
        trivia := recorder.trivia ++ scanner.tokens.takeWhile Token.isTrivia } ∧
      InStep reader behind ∧
      behind.tokens = (scanner.tokens.dropWhile Token.isTrivia).tail ∧
      behind.stop = scanner.stop := by
  obtain ⟨after, nextEq, afterReads⟩ := reads.next_eq
  cases step : scanner.next? with
  | none =>
      have scannerNext : scanner.next = (⟨.endOfInput, .emptyAt scanner.offset⟩, scanner) := by
        rw [Scanner.next, step]
        rfl
      have stopEq : scanner.stop = scanner.offset := by
        unfold Scanner.next? at step
        split at step
        · next restEq =>
            rw [Scanner.stop, restEq]
            rfl
        · cases step
      rw [scannerNext] at nextEq afterReads
      refine ⟨after, scanner, ?_, afterReads, ?_, rfl⟩
      · rw [bump_of_significant nextEq rfl, Scanner.tokens_of_next?_eq_none step, stopEq,
          List.takeWhile_nil, List.append_nil]
        rfl
      · rw [Scanner.tokens_of_next?_eq_none step]
        rfl
  | some result =>
      obtain ⟨token, behind⟩ := result
      have scannerNext : scanner.next = (token, behind) := by rw [Scanner.next, step]; rfl
      have stopEq : behind.stop = scanner.stop := (Scanner.next?_step step).2.2.2.1
      have shorter := Scanner.rest_length_lt_of_next? step
      rw [scannerNext] at nextEq afterReads
      rw [Scanner.tokens_of_next?_eq_some step, ← stopEq]
      cases trivia : token.isTrivia with
      | true =>
          have readsAfter : InStep { recorder with
              reader := after, trivia := recorder.trivia ++ [token] }.reader behind := afterReads
          obtain ⟨reader, last, bumpEq, lastReads⟩ := exists_bump readsAfter
          refine ⟨reader, last, ?_, ?_⟩
          · rw [bump_of_trivia nextEq trivia, bumpEq, List.dropWhile_cons_of_pos trivia,
              List.takeWhile_cons_of_pos trivia, List.append_assoc, List.singleton_append]
          · rw [List.dropWhile_cons_of_pos trivia]
            exact lastReads
      | false =>
          have significant : ¬ token.isTrivia = true := by simp [trivia]
          refine ⟨after, behind, ?_, afterReads, ?_, rfl⟩
          · rw [bump_of_significant nextEq trivia, List.dropWhile_cons_of_neg significant,
              List.takeWhile_cons_of_neg significant, List.append_nil, List.headD_cons]
          · rw [List.dropWhile_cons_of_neg significant, List.tail_cons]
termination_by scanner.rest.length

/-! ## Markers -/

/-- Behind earlier steps a node begins behind the trivia. -/
theorem start_eq (begun : recorder.steps ≠ []) :
    recorder.start = (⟨recorder.issued, recorder.flushTrivia.steps.length % UInt32.size⟩,
      { recorder.flushTrivia.push (.start .tombstone) with
        issued := recorder.issued + 1
        armed := recorder.issued :: recorder.armed }) := by
  have nonempty : ¬ recorder.steps.isEmpty = true := by simp [begun]
  rw [start, if_neg nonempty]
  rfl

section Markers

variable {marker : Marker} {before : List BuildStep} {armed : List Nat}
  (armedEq : recorder.armed = marker.serial :: armed)

include armedEq

theorem disarm_eq : recorder.disarm marker = .ok { recorder with armed := armed } := by
  rw [disarm, armedEq, if_pos List.mem_cons_self, List.erase_cons_head]

/-- A marker is completed where the step at its position starts a node. -/
theorem complete_of_start {other : Kind}
    (found : recorder.steps[marker.position]? = some (.start other)) (kind : Kind) :
    recorder.complete marker kind = .ok { recorder with
      steps := recorder.steps.set marker.position (.start kind) ++ [.finish]
      armed := armed } := by
  rw [complete, disarm_eq armedEq]
  dsimp only [bind, Except.bind]
  rw [found]
  rfl

theorem complete_of_no_start
    (notFound : ∀ other, recorder.steps[marker.position]? ≠ some (.start other)) (kind : Kind) :
    ∃ breach, recorder.complete marker kind = .error breach := by
  rw [complete, disarm_eq armedEq]
  dsimp only [bind, Except.bind]
  split
  · next other found => exact absurd found (notFound other)
  · exact ⟨_, rfl⟩
  · exact ⟨_, rfl⟩

variable (stepsEq : recorder.steps = before ++ [.start .tombstone])

include stepsEq

/-- A marker behind whose step nothing has been recorded is abandoned. The tombstone goes
where the marker finds it. -/
theorem abandon_eq_ite :
    recorder.abandon marker = .ok { recorder with
      steps := if marker.position = before.length then before else recorder.steps
      armed := armed } := by
  have lastEq : Word.sub recorder.steps.length 1 = .ok before.length :=
    Word.sub_of_add_eq (by rw [stepsEq, List.length_append, List.length_singleton])
  rw [abandon, disarm_eq armedEq]
  dsimp only [bind, Except.bind]
  rw [lastEq]
  dsimp only
  split
  · rw [stepsEq, List.getLast?_concat]
    dsimp only [pure, Except.pure]
    rw [List.dropLast_concat]
  · rfl

theorem abandon_eq (positionEq : marker.position = before.length) :
    recorder.abandon marker = .ok { recorder with steps := before, armed := armed } := by
  rw [abandon_eq_ite armedEq stepsEq, if_pos positionEq]

/-- If its position has lost high bits, its tombstone stays. -/
theorem abandon_of_ne (positionNe : marker.position ≠ before.length) :
    recorder.abandon marker = .ok { recorder with armed := armed } := by
  rw [abandon_eq_ite armedEq stepsEq, if_neg positionNe]

end Markers

end Recorder

/-- The marker of a node that begins behind `earlier`, where `around` has been placed
behind the frame. -/
structure Marks (cramped : Prop) (frame earlier : List BuildStep) (around : List Outline)
    (marker : Marker) : Prop where
  kept : Kept cramped frame earlier around
  position_eq : marker.position = earlier.length % UInt32.size
  in_words : cramped ∨ earlier.length < UInt32.size

/-- Completing the marker of a node closes it. Where it is cramped the marker may not
find a start, or one that is not the node's own. -/
theorem Marks.complete {cramped : Prop} {frame earlier : List BuildStep}
    {around inner : List Outline} {marker : Marker}
    (marks : Marks cramped frame earlier around marker) {recorder : Recorder}
    {armed : List Nat} (armedEq : recorder.armed = marker.serial :: armed)
    (inside : Kept cramped (earlier ++ [.start .tombstone]) recorder.steps inner)
    {kind : Kind} (ofNode : kind ≠ .tombstone) :
    (Record.complete marker kind).Yields cramped recorder fun _ after =>
      ∃ steps, after = { recorder with steps := steps, armed := armed } ∧
        steps.length = recorder.steps.length + 1 ∧
        Kept cramped frame steps (.node kind inner.reverse :: around) := by
  by_cases found : ∃ other, recorder.steps[marker.position]? = some (.start other)
  · obtain ⟨other, found⟩ := found
    refine .change (Recorder.complete_of_start armedEq found kind) ⟨_, rfl, ?_, ?_⟩
    · rw [List.length_append, List.length_set, List.length_singleton]
    · exact marks.kept.closed inside marks.position_eq marks.in_words found ofNode
  · obtain ⟨breach, completeEq⟩ :=
      Recorder.complete_of_no_start armedEq (fun other => not_exists.mp found other) kind
    have brokenOff : Record.complete marker kind recorder = .error breach := by
      rw [Record.complete, Record.change, completeEq]
      rfl
    refine .of_error brokenOff ?_
    by_contra roomy
    have low := marks.in_words.resolve_left roomy
    apply found
    cases inside with
    | spoilt allowed more => exact absurd allowed roomy
    | clean recorded stepsEq visible even whole =>
        refine ⟨.tombstone, ?_⟩
        rw [stepsEq, marks.position_eq, Nat.mod_eq_of_lt low]
        simp

/-! ## Recorders and drafts -/

/-- The recorder is in the place of the draft: `frame` holds the steps that were
recorded before the node at hand had parts, and `armed` the markers in use. Unless it is
`cramped`, the steps, the markers in use and all that is to come have room in the words,
`spare` of it for a marker that has just been set. -/
structure Represents (cramped : Prop) (spare : Nat) (frame : List BuildStep) (armed : List Nat)
    (recorder : Recorder) (draft : Draft) : Prop where
  kept : Kept cramped frame recorder.steps draft.placed
  armed_eq : recorder.armed = armed
  enclosed : armed ≠ []
  armed_le : armed.length ≤ recorder.steps.length
  trips_eq : recorder.trips = draft.trips
  trivia_eq : recorder.trivia = draft.leading
  current_eq : recorder.current = draft.ahead
  reads : ∃ scanner, InStep recorder.reader scanner ∧ scanner.tokens = draft.settle.rest.tail ∧
    scanner.stop = draft.stop
  tiled : draft.Tiled
  kinds : ∀ token ∈ draft.rest, Lexeme.IsTokenKind token.kind
  room : cramped ∨
    recorder.steps.length + armed.length + stepRoom draft.rest ≤ UInt32.size + 3 + spare

theorem stepsAll_settle (draft : Draft) :
    stepsAll draft.settle.placed.reverse =
      stepsAll draft.placed.reverse ++ draft.leading.map .token := by
  rw [Draft.settle_eq, List.reverse_append, Outline.stepsAll_append, Draft.leaves,
    List.reverse_reverse, Outline.stepsAll_map_leaf]

theorem stepsAll_advance {draft : Draft} {token : Token} {later : List Token}
    (next : draft.NextIs token later) :
    stepsAll draft.advance.placed.reverse =
      stepsAll draft.settle.placed.reverse ++ [token].map .token := by
  rw [next.advance_eq, List.reverse_cons, Outline.stepsAll_append]
  rfl

namespace Represents

variable {cramped : Prop} {spare : Nat} {frame : List BuildStep} {armed : List Nat}
  {recorder : Recorder} {draft : Draft}

section Ahead

variable (represents : Represents cramped spare frame armed recorder draft)

include represents

theorem kind_eq : recorder.current.kind = draft.kind := by
  rw [represents.current_eq, Draft.kind_ahead]

theorem start_eq : recorder.current.span.start = draft.offset := by
  rw [represents.current_eq, Draft.start_ahead]

theorem isEnd_iff : recorder.current.kind = .endOfInput ↔ draft.atEnd = true := by
  rw [represents.kind_eq, Draft.atEnd, beq_iff_eq]

/-- Scanned tokens do not look like the end, so only trivia is left there. -/
theorem settle_rest_of_atEnd (isEnd : draft.atEnd = true) : draft.settle.rest = [] :=
  Draft.settle_rest_of_atEnd
    (fun token member => Lexeme.ne_endOfInput_of_isTokenKind (represents.kinds token member)) isEnd

theorem mono {more : Nat} (le : spare ≤ more) :
    Represents cramped more frame armed recorder draft :=
  { represents with room := represents.room.imp_right fun room => by omega }

theorem steps_ne_nil : recorder.steps ≠ [] := by
  have enclosed := List.length_pos_iff.mpr represents.enclosed
  have armedLe := represents.armed_le
  exact List.length_pos_iff.mp (by omega)

theorem kept_flushTrivia : Kept cramped frame recorder.flushTrivia.steps draft.settle.placed := by
  rw [Recorder.flushTrivia, represents.trivia_eq]
  exact represents.kept.append_tokens (stepsAll_settle draft)

theorem flushTrivia_length :
    recorder.flushTrivia.steps.length = recorder.steps.length + draft.leading.length := by
  rw [Recorder.flushTrivia, List.length_append, List.length_map, represents.trivia_eq]

theorem trip (construct : Construct) :
    Represents cramped spare frame armed (recorder.trip construct) (draft.trip construct) :=
  { represents with
    trips_eq := by
      rw [Recorder.trip, represents.start_eq, represents.trips_eq]
      rfl }

end Ahead

/-- A token that is recorded makes room for a node. -/
theorem advance_of_notEnd (represents : Represents cramped (spare + 2) frame armed recorder draft)
    (notEnd : draft.atEnd = false) :
    ∃ after, recorder.advance = .ok after ∧
      Represents cramped spare frame armed after draft.advance := by
  obtain ⟨token, later, next⟩ := Draft.exists_nextIs notEnd
  obtain ⟨scanner, reads, tokensEq, stopEq⟩ := represents.reads
  have restEq : draft.advance.rest = scanner.tokens := by
    rw [tokensEq, Draft.rest_advance notEnd]
  have currentEnd : recorder.current.kind ≠ .endOfInput := by simp [represents.isEnd_iff, notEnd]
  have flushedReads : InStep (recorder.flushTrivia.push (.token recorder.current)).reader scanner :=
    reads
  obtain ⟨reader, behind, bumpEq, behindReads, behindTokens, behindStop⟩ :=
    Recorder.exists_bump flushedReads
  have onward := Draft.Onward.advance draft
  have stepsLength : (recorder.flushTrivia.push (.token recorder.current)).steps.length =
      recorder.steps.length + draft.leading.length + 1 := by
    rw [Recorder.push, List.length_append, List.length_singleton, represents.flushTrivia_length]
  refine ⟨_, (if_neg currentEnd).trans bumpEq, ?_⟩
  constructor
  case kept =>
    rw [Recorder.push, represents.current_eq, next.ahead_eq]
    exact represents.kept_flushTrivia.append_tokens (stepsAll_advance next)
  case armed_eq => exact represents.armed_eq
  case enclosed => exact represents.enclosed
  case armed_le =>
    have armedLe := represents.armed_le
    rw [stepsLength]
    omega
  case trips_eq => exact represents.trips_eq.trans draft.trips_advance.symm
  case trivia_eq =>
    rw [Draft.leading, restEq]
    rfl
  case current_eq => rw [Draft.ahead, Draft.settle_eq, restEq, onward.stop_eq, stopEq]
  case reads =>
    refine ⟨behind, behindReads, ?_, ?_⟩
    · rw [behindTokens, ← restEq]
      rfl
    · rw [behindStop, stopEq, onward.stop_eq]
  case tiled => exact onward.tiled represents.tiled
  case kinds => exact fun token member => represents.kinds token (onward.rest_suffix.subset member)
  case room =>
    refine represents.room.imp_right fun room => ?_
    rw [next.stepRoom_eq] at room
    rw [stepsLength, next.advance_eq]
    dsimp only
    omega

/-- Beginning a node behind the trivia of the node around it takes room for a step
and for a marker. -/
theorem start (represents : Represents cramped 0 frame armed recorder draft)
    (notEnd : draft.atEnd = false) :
    Record.start.Yields cramped recorder fun marker after => ∃ earlier,
      Marks cramped frame earlier draft.settle.placed marker ∧
        after.steps = earlier ++ [.start .tombstone] ∧
        Represents cramped 2 (earlier ++ [.start .tombstone]) (marker.serial :: armed) after
          draft.opened := by
  obtain ⟨token, later, next⟩ := Draft.exists_nextIs notEnd
  have openedRest : draft.opened.settle.rest = draft.settle.rest := by
    rw [Draft.settle_eq_self draft.settled_opened, Draft.opened_rest]
  have onward : draft.Onward draft.opened := ⟨draft.rest_settle_suffix, rfl⟩
  have enclosed := List.length_pos_iff.mpr represents.enclosed
  have flushedLength := represents.flushTrivia_length
  have startEq : Record.start recorder = .ok recorder.start := rfl
  rw [Recorder.start_eq represents.steps_ne_nil] at startEq
  refine .of_ok startEq
    ⟨recorder.flushTrivia.steps, ⟨represents.kept_flushTrivia, rfl, ?_⟩, rfl, ?_⟩
  · refine represents.room.imp_right fun room => ?_
    rw [next.stepRoom_eq] at room
    omega
  · constructor
    case kept =>
      rw [Draft.opened_placed]
      exact .nothing _
    case armed_eq => exact congrArg (recorder.issued :: ·) represents.armed_eq
    case enclosed => simp
    case armed_le =>
      have armedLe := represents.armed_le
      rw [Recorder.push, List.length_append, List.length_singleton, List.length_cons]
      omega
    case trips_eq => exact represents.trips_eq
    case trivia_eq => exact draft.settled_opened.symm
    case current_eq =>
      exact represents.current_eq.trans (Draft.ahead_congr openedRest.symm rfl)
    case reads =>
      rw [openedRest]
      exact represents.reads
    case tiled => exact onward.tiled represents.tiled
    case kinds =>
      exact fun token member => represents.kinds token (onward.rest_suffix.subset member)
    case room =>
      refine represents.room.imp_right fun room => ?_
      rw [Draft.stepRoom_rest] at room
      rw [Recorder.push, List.length_append, List.length_singleton, List.length_cons,
        Draft.opened_rest]
      omega

/-- Completing a marker closes the node. -/
theorem complete {earlier : List BuildStep} {around : List Outline} {marker : Marker}
    (marks : Marks cramped frame earlier around marker) (enclosed : armed ≠ []) {inside : Draft}
    (represents : Represents cramped 0 (earlier ++ [.start .tombstone]) (marker.serial :: armed)
      recorder inside) {kind : Kind} (ofNode : kind ≠ .tombstone) :
    (Record.complete marker kind).Yields cramped recorder fun _ after =>
      Represents cramped 0 frame armed after (inside.closed kind around) := by
  apply (marks.complete represents.armed_eq represents.kept ofNode).mono
  rintro _ _ ⟨steps, rfl, lengthEq, kept⟩
  have armedLe := represents.armed_le
  rw [List.length_cons] at armedLe
  exact { represents with
    kept, enclosed, armed_eq := rfl
    armed_le := by
      dsimp only
      omega
    room := by
      refine represents.room.imp_right fun room => ?_
      rw [List.length_cons] at room
      dsimp only [Draft.closed]
      omega }

/-- Abandoning a marker at once leaves the trivia placed. -/
theorem abandon {earlier : List BuildStep} {marker : Marker}
    (marks : Marks cramped frame earlier draft.settle.placed marker) (enclosed : armed ≠ [])
    (stepsEq : recorder.steps = earlier ++ [.start .tombstone])
    (represents : Represents cramped 2 (earlier ++ [.start .tombstone]) (marker.serial :: armed)
      recorder draft.opened) :
    (Record.abandon marker).Yields cramped recorder fun _ after =>
      Represents cramped 0 frame armed after draft.settle := by
  have armedLe := represents.armed_le
  rw [stepsEq, List.length_append, List.length_singleton, List.length_cons] at armedLe
  rcases Nat.lt_or_ge earlier.length UInt32.size with low | high
  · have own : marker.position = earlier.length :=
      marks.position_eq.trans (Nat.mod_eq_of_lt low)
    apply Record.Yields.change (Recorder.abandon_eq represents.armed_eq stepsEq own)
    exact { represents with
      kept := marks.kept, enclosed, armed_eq := rfl
      armed_le := by
        dsimp only
        omega
      room := by
        refine represents.room.imp_right fun room => ?_
        rw [stepsEq, List.length_append, List.length_singleton, List.length_cons,
          Draft.opened_rest] at room
        dsimp only
        omega }
  · have allowed := marks.in_words.resolve_right (Nat.not_lt.mpr high)
    have wrapped : marker.position ≠ earlier.length := by
      have positionLt : marker.position < UInt32.size :=
        marks.position_eq ▸ Nat.mod_lt _ (by decide)
      omega
    apply Record.Yields.change (Recorder.abandon_of_ne represents.armed_eq stepsEq wrapped)
    exact { represents with
      kept := stepsEq ▸ marks.kept.append_tombstone allowed high
      enclosed, armed_eq := rfl
      armed_le := by
        rw [stepsEq, List.length_append, List.length_singleton]
        omega
      room := Or.inl allowed }

end Represents

end TemplateFrontend
