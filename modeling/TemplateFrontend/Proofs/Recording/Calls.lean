import TemplateFrontend.Proofs.Recording

/-!
Contract: where a recording calls the rule for statements.

Owns:
- `Calls`, which tells from outside on which recorders an action calls another one;
- `Reached`, the recorders on which the recording of a window calls the rule for
  statements, with the depths of the calls;
- `Reached.placed`: such a recorder is in the place of a draft, and a marker is in use
  for each level of its depth.
-/

namespace TemplateFrontend.Record

/-- The action breaks off. -/
def BreaksOff {Answer : Type} (action : Record Answer) (recorder : Recorder) : Prop :=
  ∃ breach, action recorder = .error breach

/-- The run of the action calls `nested` on `called`: it would break off if `nested`
did so on this recorder and were the same on all others. -/
def Calls {Answer : Type} (action : Record Bool → Record Answer) (nested : Record Bool)
    (before called : Recorder) : Prop :=
  ∃ other : Record Bool, (∀ recorder, recorder ≠ called → other recorder = nested recorder) ∧
    (action other).BreaksOff before

/-- The recording of the window calls the rule for statements on these recorders, at
these depths: around everything is the root, and statements call each other. -/
inductive Reached (text : Text) (window : Span) (limits : Limits) : Nat → Recorder → Prop
  | outermost {reader : Reader} {ready called : Recorder}
      (opened : Reader.ofWindow text window = .ok reader)
      (begun : (Recorder.ofReader reader window.start).bump = .ok ready)
      (calls : Calls (rootAround limits) (statement limits 1) ready called) :
      Reached text window limits 1 called
  | nested {depth : Nat} {recorder called : Recorder}
      (reached : Reached text window limits depth recorder) (inside : depth ≤ limits.depth)
      (calls : Calls (statementWith limits) (statement limits (depth + 1)) recorder called) :
      Reached text window limits (depth + 1) called

theorem Reached.depth_bounds {text : Text} {window : Span} {limits : Limits} {depth : Nat}
    {recorder : Recorder} (reached : Reached text window limits depth recorder) :
    1 ≤ depth ∧ depth ≤ limits.depth + 1 := by
  cases reached <;> omega

/-! ## First calls -/

namespace BreaksOff

variable {First Second : Type} {first : Record First} {later : First → Record Second}
  {recorder : Recorder}

theorem bind (breaks : first.BreaksOff recorder) : (first >>= later).BreaksOff recorder := by
  obtain ⟨breach, broken⟩ := breaks
  refine ⟨breach, ?_⟩
  change Except.bind (first recorder) _ = _
  rw [broken]
  rfl

theorem behind {answer : First} {after : Recorder} (firstEq : first recorder = .ok (answer, after))
    (breaks : (later answer).BreaksOff after) : (first >>= later).BreaksOff recorder := by
  obtain ⟨breach, broken⟩ := breaks
  refine ⟨breach, ?_⟩
  change Except.bind (first recorder) _ = _
  rw [firstEq]
  exact broken

/-- Looking at the recorder changes nothing. -/
theorem observe_bind {look : Recorder → First}
    (breaks : (later (look recorder)).BreaksOff recorder) :
    (observe look >>= later).BreaksOff recorder := breaks

theorem statementOrAdvance {nested : Record Bool} (breaks : nested.BreaksOff recorder) :
    (statementOrAdvance nested).BreaksOff recorder :=
  observe_bind breaks.bind

/-- A loop breaks off in a turn. -/
theorem repeatTurns {State : Type} {wanted : Kind → Bool} {ceiling count : Nat}
    {construct : Construct} {turn : State → Record (Option State)} {state : State}
    (goesOn : wanted recorder.current.kind = true) (turns : count < ceiling)
    (isWord : count + 1 ≤ Limits.greatest) (breaks : (turn state).BreaksOff recorder) :
    (repeatTurns wanted ceiling construct turn count state).BreaksOff recorder := by
  rw [Record.repeatTurns]
  apply observe_bind
  rw [if_pos goesOn, if_neg (Nat.ne_of_lt turns)]
  split
  · next breach failed =>
      rw [Word.add_of_le isWord] at failed
      cases failed
  · exact breaks.bind

theorem node {body : Record Unit} (kind : Kind) (breaks : body.BreaksOff recorder.start.2) :
    (node kind body).BreaksOff recorder := by
  have started : start recorder = .ok (recorder.start.1, recorder.start.2) := rfl
  exact .behind started breaks.bind

end BreaksOff

/-- An action calls a rule where it breaks off with every rule that breaks off there
and does the same elsewhere. -/
theorem Calls.of_breaksOff {Answer : Type} {action : Record Bool → Record Answer}
    {nested : Record Bool} {before called : Recorder}
    (breaks : ∀ other : Record Bool, (∀ recorder, recorder ≠ called →
      other recorder = nested recorder) → other.BreaksOff called → (action other).BreaksOff before) :
    Calls action nested before called := by
  classical
  let other : Record Bool := fun recorder =>
    if recorder = called then .error (.lostMarker 0) else nested recorder
  have elsewhere : ∀ recorder, recorder ≠ called → other recorder = nested recorder :=
    fun recorder distinct => if_neg distinct
  exact ⟨other, elsewhere, breaks other elsewhere ⟨_, if_pos rfl⟩⟩

/-- The root begins with a statement, unless there is nothing in the window. -/
theorem rootAround_calls {limits : Limits} {nested : Record Bool} {ready called : Recorder}
    {marker : Marker} (startEq : ready.start = (marker, called))
    (notEnd : called.current.kind ≠ .endOfInput) (turns : 0 < limits.topLevelIterations) :
    Calls (rootAround limits) nested ready called := by
  apply Calls.of_breaksOff
  intro other _ breaks
  have started : start ready = .ok (marker, called) := congrArg Except.ok startEq
  apply BreaksOff.behind started
  apply BreaksOff.bind
  apply BreaksOff.repeatTurns (by simpa using notEnd) turns (by decide)
  exact breaks.statementOrAdvance.bind

/-! ## Called recorders are in the place of a draft -/

/-- The recorder is in the place of some draft, with a marker in use for each level of
the depth, and what is to come has room in the words. -/
def Placed (depth : Nat) (recorder : Recorder) : Prop :=
  ∃ frame armed draft, List.length armed = depth ∧ Represents False 0 frame armed recorder draft

theorem Yields.succeeds {Answer : Type} {action : Record Answer} {recorder : Recorder}
    {claim : Answer → Recorder → Prop} (yields : action.Yields False recorder claim) :
    ∃ answer, action recorder = .ok answer := by
  obtain ⟨answer, after, answerEq, _⟩ := yields.exists_ok
  exact ⟨(answer, after), answerEq⟩

/-- What another rule does on recorders that no draft has the place of does not matter. -/
theorem PerformsStatement.congr {depth : Nat} {nested other : Record Bool}
    {rule : Grammar.StatementRule} (performs : PerformsStatement False depth nested rule)
    (same : ∀ recorder, Placed depth recorder → other recorder = nested recorder) :
    PerformsStatement False depth other rule := by
  intro frame armed recorder draft heightEq represents
  obtain ⟨found, after, answerEq, holds⟩ := (performs heightEq represents).exists_ok
  exact .of_ok ((same recorder ⟨frame, armed, draft, heightEq, represents⟩).trans answerEq) holds

/-- An action that never breaks off around a rule for statements calls it only on
recorders in the place of a draft. -/
theorem Calls.placed {Answer : Type} {action : Record Bool → Record Answer} {nested : Record Bool}
    {before called : Recorder} (calls : Calls action nested before called) {depth : Nat}
    {rule : Grammar.StatementRule} (performs : PerformsStatement False depth nested rule)
    (succeeds : ∀ other, PerformsStatement False depth other rule →
      ∃ answer, action other before = .ok answer) :
    Placed depth called := by
  obtain ⟨other, elsewhere, breach, broken⟩ := calls
  by_contra notPlaced
  have same : ∀ recorder, Placed depth recorder → other recorder = nested recorder := by
    intro recorder placed
    apply elsewhere
    rintro rfl
    exact notPlaced placed
  obtain ⟨answer, answerEq⟩ := succeeds other (performs.congr same)
  cases broken.symm.trans answerEq

section Window

variable {text : Text} {window : Span} {limits : Limits} (words : limits.AreWords)
  (admitted : text.Admits window) {tokens : List Token}
  (tokenized : tokenize text window = .ok tokens) (fits : FitsWords tokens)

include words admitted tokenized fits

/-- Where the root calls its first rule, one marker is in use. -/
theorem placed_of_root {reader : Reader} {ready called : Recorder}
    (opened : Reader.ofWindow text window = .ok reader)
    (begun : (Recorder.ofReader reader window.start).bump = .ok ready)
    (calls : Calls (rootAround limits) (statement limits 1) ready called) : Placed 1 called := by
  obtain ⟨found, scanner, readerEq, scannerEq, reads, _⟩ := exists_inStep admitted
  cases opened.symm.trans readerEq
  rw [tokenize, scannerEq] at tokenized
  cases tokenized
  obtain ⟨_, marker, started, bumpEq, startEq, marks, represents⟩ :=
    exists_started reads (Or.inr fits) window.start
  cases begun.symm.trans bumpEq
  apply calls.placed (performs_statement words (Nat.add_comm 1 limits.depth))
  intro other otherPerforms
  exact (yields_rootAround words otherPerforms startEq marks represents).succeeds

/-- A recorder on which the rule for statements is called is in the place of a draft. -/
theorem Reached.placed {depth : Nat} {recorder : Recorder}
    (reached : Reached text window limits depth recorder) : Placed depth recorder := by
  -- On the statements around the call.
  induction reached with
  | outermost opened begun calls =>
      exact placed_of_root words admitted tokenized fits opened begun calls
  | @nested depth recorder called _ inside calls inductionHypothesis =>
      obtain ⟨frame, armed, draft, heightEq, represents⟩ := inductionHypothesis
      obtain ⟨levels, sum⟩ := Nat.exists_eq_add_of_le' inside
      have performs : PerformsStatement False (depth + 1) (statement limits (depth + 1))
          (Grammar.statement limits levels) := performs_statement words (by omega)
      apply calls.placed performs
      intro other otherPerforms
      exact (performs_statementWith words otherPerforms
        (Grammar.statement_proceeds limits levels) heightEq represents).succeeds

end Window

end TemplateFrontend.Record
