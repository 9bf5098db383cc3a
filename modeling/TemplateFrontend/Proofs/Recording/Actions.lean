import TemplateFrontend.Proofs.Grammar.Simulation
import TemplateFrontend.Proofs.Recording.Recorder
import TemplateFrontend.Recording.Rules

/-!
Contract: actions on recorders and rules on drafts.

Owns:
- `Performs`, an action that does to a recorder what a rule does to a draft, and
  `Opens`, one that does so behind a marker that has just been set;
- `Tries`, an action that tells whether it has found something to record;
- one lemma for each way in which actions are joined, loops included.

Does not own: the rules of the grammar.
-/

namespace TemplateFrontend.Record

open Grammar (Turn repeatWhile branch)

section Notions

variable (cramped : Prop) (height : Nat)

/-- While `height` markers are in use, the action does to the recorder what the
rule does to the draft. -/
def Performs (action : Record Unit) (rule : Draft → Draft) : Prop :=
  ∀ ⦃frame : List BuildStep⦄ ⦃armed : List Nat⦄ ⦃recorder : Recorder⦄ ⦃draft : Draft⦄,
    armed.length = height → Represents cramped 0 frame armed recorder draft →
      action.Yields cramped recorder fun _ after =>
        Represents cramped 0 frame armed after (rule draft)

/-- Like `Performs`, but only before a significant token. -/
def PerformsAhead (action : Record Unit) (rule : Draft → Draft) : Prop :=
  ∀ ⦃frame : List BuildStep⦄ ⦃armed : List Nat⦄ ⦃recorder : Recorder⦄ ⦃draft : Draft⦄,
    armed.length = height → Represents cramped 0 frame armed recorder draft → draft.atEnd = false →
      action.Yields cramped recorder fun _ after =>
        Represents cramped 0 frame armed after (rule draft)

/-- The action records at least one token, and so makes up for the room that a new
marker takes. -/
def Opens (action : Record Unit) (rule : Draft → Draft) : Prop :=
  ∀ ⦃frame : List BuildStep⦄ ⦃armed : List Nat⦄ ⦃recorder : Recorder⦄ ⦃draft : Draft⦄,
    armed.length = height → Represents cramped 2 frame armed recorder draft →
      draft.atEnd = false →
        action.Yields cramped recorder fun _ after =>
          Represents cramped 0 frame armed after (rule draft)

/-- An action has found something to record, or has left all as it was. -/
inductive Found (frame : List BuildStep) (armed : List Nat) (before : Recorder) :
    Option Draft → Bool → Recorder → Prop
  | found {draft : Draft} {after : Recorder}
      (represents : Represents cramped 0 frame armed after draft) :
      Found frame armed before (some draft) true after
  | missed : Found frame armed before none false before

/-- The action tells whether the rule finds something to record. What it finds makes
up for a new marker. -/
def Tries (action : Record Bool) (rule : Draft → Option Draft) : Prop :=
  ∀ ⦃frame : List BuildStep⦄ ⦃armed : List Nat⦄ ⦃recorder : Recorder⦄ ⦃draft : Draft⦄,
    armed.length = height → Represents cramped 2 frame armed recorder draft →
      action.Yields cramped recorder (Found cramped frame armed recorder (rule draft))

/-- The action tells whether the rule for statements places a node. -/
def PerformsStatement (action : Record Bool) (rule : Grammar.StatementRule) : Prop :=
  ∀ ⦃frame : List BuildStep⦄ ⦃armed : List Nat⦄ ⦃recorder : Recorder⦄ ⦃draft : Draft⦄,
    armed.length = height → Represents cramped 0 frame armed recorder draft →
      action.Yields cramped recorder fun found after => found = ((rule draft).1 == .node) ∧
        Represents cramped 0 frame armed after (rule draft).2

end Notions

variable {cramped : Prop} {height : Nat}

/-! ## Actions in a row -/

section Joining

variable {first second : Record Unit} {rule rule' : Draft → Draft}

theorem performs_nothing : Performs cramped height (return ()) (fun draft => draft) :=
  fun _ _ _ _ _ represents => .pure represents

theorem Opens.ahead (opens : Opens cramped height first rule) :
    PerformsAhead cramped height first rule :=
  fun _ _ _ _ heightEq represents => opens heightEq (represents.mono (Nat.zero_le 2))

theorem Performs.andThen (earlier : Performs cramped height first rule)
    (later : Performs cramped height second rule') :
    Performs cramped height (first >>= fun _ => second) (fun draft => rule' (rule draft)) := by
  intro frame armed recorder draft heightEq represents
  apply (earlier heightEq represents).bind
  intro _ after representsAfter
  exact later heightEq representsAfter

theorem Opens.andThen (earlier : Opens cramped height first rule)
    (later : Performs cramped height second rule') :
    Opens cramped height (first >>= fun _ => second) (fun draft => rule' (rule draft)) := by
  intro frame armed recorder draft heightEq represents notEnd
  apply (earlier heightEq represents notEnd).bind
  intro _ after representsAfter
  exact later heightEq representsAfter

end Joining

/-! ## Single tokens -/

theorem opens_advance : Opens cramped height advance Draft.advance := by
  intro frame armed recorder draft _ represents notEnd
  obtain ⟨after, advanceEq, representsAfter⟩ := represents.advance_of_notEnd notEnd
  exact .change advanceEq representsAfter

theorem performs_advance : Performs cramped height advance Draft.advance := by
  intro frame armed recorder draft heightEq represents
  cases isEnd : draft.atEnd with
  | false => exact opens_advance.ahead heightEq represents isEnd
  | true =>
      rw [Draft.advance_of_settle_rest_nil (represents.settle_rest_of_atEnd isEnd)]
      exact .change (if_pos (represents.isEnd_iff.mpr isEnd)) represents

theorem tries_eatIf {wanted : Kind → Bool} (noEnd : wanted .endOfInput = false) :
    Tries cramped height (eatIf wanted)
      (fun draft => if wanted draft.kind then some draft.advance else none) := by
  intro frame armed recorder draft heightEq represents
  dsimp only
  rw [← represents.kind_eq]
  apply Yields.observe_bind
  by_cases found : wanted recorder.current.kind = true
  · have notEnd : draft.atEnd = false :=
      Draft.atEnd_eq_false_of_wanted wanted noEnd (represents.kind_eq ▸ found)
    rw [if_pos found, if_pos found]
    apply (opens_advance heightEq represents notEnd).bind
    intro _ after representsAfter
    exact .pure (.found representsAfter)
  · rw [if_neg found, if_neg found]
    exact .pure .missed

theorem tries_eat (kind : Kind) (notEnd : kind ≠ .endOfInput) :
    Tries cramped height (eat kind) (·.take? kind) := by
  have noEnd : (Kind.endOfInput == kind) = false := by simpa using notEnd.symm
  have tries : Tries cramped height (eat kind) _ := tries_eatIf noEnd
  simpa only [Draft.take?, beq_iff_eq] using tries

theorem tries_eatIn {set : KindSet} (noEnd : set.contains .endOfInput = false) :
    Tries cramped height (eatIn set) (·.takeIn? set) :=
  tries_eatIf noEnd

/-! ## Choices -/

/-- What opens with a token has been found. -/
theorem Opens.found {action : Record Unit} {rule : Draft → Draft}
    (opens : Opens cramped height action rule) {frame : List BuildStep} {armed : List Nat}
    {recorder : Recorder} {draft : Draft} (heightEq : armed.length = height)
    (represents : Represents cramped 2 frame armed recorder draft)
    (notEnd : draft.atEnd = false) :
    (action >>= fun _ => return true).Yields cramped recorder
      (Found cramped frame armed recorder (some (rule draft))) := by
  apply (opens heightEq represents notEnd).bind
  intro _ after representsAfter
  exact .pure (.found representsAfter)

section Choices

variable {action : Record Bool} {rule : Draft → Option Draft}
  (tries : Tries cramped height action rule)

include tries

/-- An action that goes on one way where something has been found, and another way
where not. -/
theorem Tries.choose {there missing : Record Unit} {thereRule missingRule : Draft → Draft}
    (found : Performs cramped height there thereRule)
    (notFound : Performs cramped height missing missingRule) :
    Performs cramped height (action >>= fun found => if found = true then there else missing)
      (fun draft => match rule draft with
        | some next => thereRule next
        | none => missingRule draft) := by
  intro frame armed recorder draft heightEq represents
  apply (tries heightEq (represents.mono (Nat.zero_le 2))).bind
  intro answer after holds
  dsimp only
  generalize rule draft = next at holds
  cases holds with
  | found representsNext => exact found heightEq representsNext
  | missed => exact notFound heightEq represents

/-- An action whose answer does not matter. -/
theorem Tries.ignored :
    Performs cramped height (ignore action) (fun draft => (rule draft).getD draft) := by
  intro frame armed recorder draft heightEq represents
  dsimp only
  apply (tries heightEq (represents.mono (Nat.zero_le 2))).bind
  intro answer after holds
  generalize rule draft = next at holds
  cases holds with
  | found representsNext => exact .pure representsNext
  | missed => exact .pure represents

end Choices

theorem performs_skip {kind : Kind} (notEnd : kind ≠ .endOfInput) :
    Performs cramped height (ignore (eat kind)) (·.skip kind) :=
  (tries_eat kind notEnd).ignored

/-- An action behind a token that may be missing. -/
theorem performs_branch {kind : Kind} (notEnd : kind ≠ .endOfInput) {there missing : Record Unit}
    {thereRule missingRule : Draft → Draft} (found : Performs cramped height there thereRule)
    (notFound : Performs cramped height missing missingRule) :
    Performs cramped height (eat kind >>= fun found => if found = true then there else missing)
      (branch kind thereRule missingRule) :=
  (tries_eat kind notEnd).choose found notFound

/-! ## Loops -/

/-- What a turn of a loop leaves: a state to go on with, or the last one. -/
inductive TurnLeaves {State Abstract : Type} (related : State → Abstract → Recorder → Prop)
    (last : Abstract → Recorder → Prop) : Option State → Turn Abstract → Recorder → Prop
  | again {state : State} {abstract : Abstract} {recorder : Recorder}
      (next : related state abstract recorder) :
      TurnLeaves related last (some state) (.again abstract) recorder
  | done {abstract : Abstract} {recorder : Recorder} (holds : last abstract recorder) :
      TurnLeaves related last none (.done abstract) recorder

/-- A loop that counts its turns up to the ceiling does what a loop with that budget
does, and the count is always a word. -/
theorem yields_repeatTurns {State Abstract : Type}
    (related : State → Abstract → Recorder → Prop) (last : Abstract → Recorder → Prop)
    {wanted : Kind → Bool} {wanted' : Abstract → Bool} {ceiling : Nat} {construct : Construct}
    {turn : State → Record (Option State)} {turn' : Abstract → Turn Abstract}
    {capped : Abstract → Abstract} (fits : ceiling ≤ Limits.greatest)
    (wantedEq : ∀ {state abstract recorder}, related state abstract recorder →
      wanted recorder.current.kind = wanted' abstract)
    (stops : ∀ {state abstract recorder}, related state abstract recorder →
      last abstract recorder)
    (trips : ∀ {state abstract recorder}, related state abstract recorder →
      last (capped abstract) (recorder.trip construct))
    (turns : ∀ {state abstract recorder}, related state abstract recorder →
      wanted' abstract = true →
        (turn state).Yields cramped recorder fun next after =>
          TurnLeaves related last next (turn' abstract) after)
    {budget count : Nat} (sum : count + budget = ceiling) {state : State} {abstract : Abstract}
    {recorder : Recorder} (holds : related state abstract recorder) :
    (repeatTurns wanted ceiling construct turn count state).Yields cramped recorder
      fun _ after => last (repeatWhile wanted' turn' capped budget abstract) after := by
  -- On the turns that are left.
  induction budget generalizing count state abstract recorder with
  | zero =>
      rw [repeatTurns, repeatWhile, ← wantedEq holds]
      apply Yields.observe_bind
      split
      · rw [if_pos (by omega)]
        exact .change rfl (trips holds)
      · exact .pure (stops holds)
  | succ budget inductionHypothesis =>
      rw [repeatTurns, repeatWhile, ← wantedEq holds]
      apply Yields.observe_bind
      split
      · next goesOn =>
          rw [if_neg (by omega)]
          split
          · next breach failed =>
              rw [Word.add_of_le (by omega)] at failed
              cases failed
          · next taken counted =>
              rw [Word.add_of_le (by omega)] at counted
              cases counted
              apply (turns holds (wantedEq holds ▸ goesOn)).bind
              intro next after leaves
              generalize turn' abstract = turned at leaves
              cases leaves with
              | again next => exact inductionHypothesis (by omega) next
              | done holds => exact .pure holds
      · exact .pure (stops holds)

/-- A loop on drafts. -/
theorem performs_loop (wanted : Kind → Bool) (noEnd : wanted .endOfInput = false)
    (construct : Construct) {ceiling : Nat} (fits : ceiling ≤ Limits.greatest)
    {turn : Unit → Record (Option Unit)} {turn' : Draft → Turn Draft}
    (turns : ∀ ⦃frame : List BuildStep⦄ ⦃armed : List Nat⦄ ⦃recorder : Recorder⦄ ⦃draft : Draft⦄,
      armed.length = height → Represents cramped 0 frame armed recorder draft →
        draft.atEnd = false → (turn ()).Yields cramped recorder fun next after =>
          TurnLeaves (fun _ draft after => Represents cramped 0 frame armed after draft)
            (fun draft after => Represents cramped 0 frame armed after draft) next (turn' draft)
            after) :
    Performs cramped height (repeatTurns wanted ceiling construct turn 0 ())
      (repeatWhile (fun draft => wanted draft.kind) turn' (·.trip construct) ceiling) := by
  intro frame armed recorder draft heightEq represents
  apply yields_repeatTurns (fun _ draft recorder => Represents cramped 0 frame armed recorder draft)
    (fun draft recorder => Represents cramped 0 frame armed recorder draft) fits
  case wantedEq => exact fun holds => congrArg wanted holds.kind_eq
  case stops => exact fun holds => holds
  case trips => exact fun holds => holds.trip construct
  case sum => exact Nat.zero_add ceiling
  case holds => exact represents
  case turns =>
    intro _ current recorder holds goesOn
    exact turns heightEq holds (Draft.atEnd_eq_false_of_wanted wanted noEnd goesOn)

/-- A loop whose turns go on behind a token that is found. -/
theorem performs_repeatTurns (wanted : Kind → Bool) (noEnd : wanted .endOfInput = false)
    (construct : Construct) {ceiling : Nat} (fits : ceiling ≤ Limits.greatest)
    {first : Record Unit} {action : Record Bool} {rule : Draft → Draft}
    {rule? : Draft → Option Draft}
    (performs : PerformsAhead cramped height first rule)
    (tries : Tries cramped height action rule?) :
    Performs cramped height
      (repeatTurns wanted ceiling construct
        (fun _ => first >>= fun _ => goOnBehind action) 0 ())
      (repeatWhile (fun draft => wanted draft.kind)
        (fun draft => Turn.behind (rule? (rule draft)) (rule draft)) (·.trip construct)
        ceiling) := by
  apply performs_loop wanted noEnd construct fits
  intro frame armed recorder draft heightEq represents notEnd
  apply (performs heightEq represents notEnd).bind
  intro _ between representsBetween
  apply (tries heightEq (representsBetween.mono (Nat.zero_le 2))).bind
  intro found after holds
  generalize rule? (rule draft) = next at holds
  cases holds with
  | found representsNext => exact .pure (.again representsNext)
  | missed => exact .pure (.done representsBetween)

end TemplateFrontend.Record
