import TemplateFrontend.Grammar.Draft
import TemplateFrontend.Recording.Reader
import TemplateFrontend.Tree.Builder

/-!
Contract: recording a parse as a flat list of build steps.

Owns:
- `Recorder`, a reader, the tokens that it has read ahead, and the steps so far;
- `Marker`, the place in the list where a node may begin;
- `Record`, an action on a recorder that answers or breaks off.

A node begins with a step of the kind `tombstone`. Completing its marker goes back
to that step and gives it its kind; abandoning its marker takes the step away.
-/

namespace TemplateFrontend

/-- The place of a step that may begin a node. The serial number tells markers
apart that have had the same place. -/
structure Marker where
  serial : Nat
  position : Nat
deriving DecidableEq, Repr

/-- A recording in progress: the significant token ahead and the trivia before it,
the steps in order, the number of markers so far, those of them that are neither
completed nor abandoned, and the met ceilings, the last one first. -/
structure Recorder where
  reader : Reader
  current : Token
  trivia : List Token
  steps : List BuildStep
  issued : Nat
  armed : List Nat
  trips : List Trip

namespace Recorder

/-- A recorder that has read nothing, with an empty token at `offset` ahead. -/
def ofReader (reader : Reader) (offset : Nat) : Recorder :=
  ⟨reader, ⟨.endOfInput, .emptyAt offset⟩, [], [], 0, [], []⟩

/-- Reads on to the next significant token, and keeps the trivia before it. -/
def bump (recorder : Recorder) : Except Breach Recorder :=
  match _read : recorder.reader.next with
  | .error breach => .error breach
  | .ok (token, after) =>
      if _trivia : token.isTrivia = true then
        bump { recorder with reader := after, trivia := recorder.trivia ++ [token] }
      else
        .ok { recorder with reader := after, current := token }
termination_by recorder.reader.rest.length
decreasing_by
  apply Reader.rest_length_lt_of_next _read
  intro isEnd
  rw [Token.isTrivia, isEnd] at _trivia
  cases _trivia

def flushTrivia (recorder : Recorder) : Recorder :=
  { recorder with
    trivia := []
    steps := recorder.steps ++ recorder.trivia.map .token }

def push (recorder : Recorder) (step : BuildStep) : Recorder :=
  { recorder with steps := recorder.steps ++ [step] }

/-- Records the significant token ahead. At the end nothing is recorded. -/
def advance (recorder : Recorder) : Except Breach Recorder :=
  if recorder.current.kind = .endOfInput then
    .ok recorder
  else
    (recorder.flushTrivia.push (.token recorder.current)).bump

/-- Begins a node with a tombstone. Trivia in front of the first node of all stays
where it is. Positions are words, and a length that is none loses its high bits. -/
def start (recorder : Recorder) : Marker × Recorder :=
  let ready := if recorder.steps.isEmpty then recorder else recorder.flushTrivia
  (⟨ready.issued, ready.steps.length % UInt32.size⟩,
    { ready.push (.start .tombstone) with
      issued := ready.issued + 1
      armed := ready.issued :: ready.armed })

/-- Notes that a marker is used up. -/
def disarm (recorder : Recorder) (marker : Marker) : Except Breach Recorder :=
  if marker.serial ∈ recorder.armed then
    .ok { recorder with armed := recorder.armed.erase marker.serial }
  else
    .error (.spentMarker marker.serial)

/-- Gives the node of a marker its kind, and ends it. -/
def complete (recorder : Recorder) (marker : Marker) (kind : Kind) : Except Breach Recorder := do
  let disarmed ← recorder.disarm marker
  match disarmed.steps[marker.position]? with
  | some (.start _) =>
      return { disarmed with
        steps := disarmed.steps.set marker.position (.start kind) ++ [.finish] }
  | some _ => throw (.noStart marker.position)
  | none => throw (.positionOutside marker.position)

/-- Gives up the node of a marker. Its tombstone is taken away if nothing has been
recorded behind it. -/
def abandon (recorder : Recorder) (marker : Marker) : Except Breach Recorder := do
  let disarmed ← recorder.disarm marker
  let last ← Word.sub disarmed.steps.length 1
  if marker.position = last then
    match disarmed.steps.getLast? with
    | some (.start .tombstone) => return { disarmed with steps := disarmed.steps.dropLast }
    | _ => throw (.foreignEvent last)
  else
    return disarmed

def trip (recorder : Recorder) (construct : Construct) : Recorder :=
  { recorder with trips := ⟨construct, recorder.current.span.start⟩ :: recorder.trips }

/-! ## Progress -/

/-- How much is left to record, the significant token ahead included. -/
def remaining (recorder : Recorder) : Nat :=
  recorder.reader.rest.length + if recorder.current.kind = .endOfInput then 0 else 1

theorem remaining_le_of_bump {recorder after : Recorder} (bumped : recorder.bump = .ok after) :
    after.remaining ≤ recorder.reader.rest.length := by
  rw [bump] at bumped
  split at bumped
  · cases bumped
  · next token behind read =>
      have shorter := Reader.rest_of_next read
      split at bumped
      · next trivia =>
          have notEnd : token.kind ≠ .endOfInput := by
            intro isEnd
            rw [Token.isTrivia, isEnd] at trivia
            cases trivia
          have lessRest := Reader.rest_length_lt_of_next read notEnd
          exact Nat.le_trans (remaining_le_of_bump bumped) (Nat.le_of_lt lessRest)
      · cases bumped
        unfold remaining
        dsimp only
        rcases shorter with ⟨sameRest, isEnd⟩ | lessRest
        · rw [if_pos isEnd, sameRest]
          exact Nat.le_refl _
        · split <;> omega
termination_by recorder.reader.rest.length

theorem remaining_lt_of_advance {recorder after : Recorder}
    (advanced : recorder.advance = .ok after) (notEnd : recorder.current.kind ≠ .endOfInput) :
    after.remaining < recorder.remaining := by
  rw [advance, if_neg notEnd] at advanced
  have bumped := remaining_le_of_bump advanced
  have whole : recorder.remaining = recorder.reader.rest.length + 1 := by
    rw [remaining, if_neg notEnd]
  rw [whole]
  exact Nat.lt_succ_of_le bumped

end Recorder

/-- An action on a recorder that answers, or breaks off. -/
abbrev Record := StateT Recorder (Except Breach)

namespace Record

/-- Looks at the recorder and leaves it as it is. -/
def observe {Answer : Type} (look : Recorder → Answer) : Record Answer :=
  fun recorder => .ok (look recorder, recorder)

def change (step : Recorder → Except Breach Recorder) : Record Unit := fun recorder => do
  let after ← step recorder
  return ((), after)

/-- The kind of the significant token ahead. -/
def kind : Record Kind := observe fun recorder => recorder.current.kind

/-- Where the significant token ahead begins. -/
def position : Record Nat := observe fun recorder => recorder.current.span.start

def advance : Record Unit := change Recorder.advance

def trip (construct : Construct) : Record Unit :=
  change fun recorder => .ok (recorder.trip construct)

def start : Record Marker := fun recorder => .ok recorder.start

def complete (marker : Marker) (kind : Kind) : Record Unit :=
  change fun recorder => recorder.complete marker kind

def abandon (marker : Marker) : Record Unit := change fun recorder => recorder.abandon marker

/-- Records the token ahead if its kind is as wanted, and tells whether it is. -/
def eatIf (wanted : Kind → Bool) : Record Bool := do
  let ahead ← kind
  if wanted ahead then
    advance
    return true
  else
    return false

def eat (wanted : Kind) : Record Bool := eatIf (· == wanted)

def eatIn (set : KindSet) : Record Bool := eatIf set.contains

/-- An action whose answer does not matter. -/
def ignore (record : Record Bool) : Record Unit := do
  let _ ← record

end Record

end TemplateFrontend
