import TemplateFrontend.Parsing
import TemplateFrontend.Recording.Rules

/-!
Contract: parsing a window of a text by recording it.

Owns:
- `Record.root`, the rule for whole programs;
- `record`, the recording of a window, which breaks off when a marker is left
  over;
- `parseRecorded`, the tree that the builder makes of a recording.
-/

namespace TemplateFrontend

namespace Record

/-- Records what a ceiling has left over. -/
def advanceToEnd (recorder : Recorder) : Except Breach Recorder :=
  if _isEnd : recorder.current.kind = .endOfInput then
    .ok recorder
  else
    match _step : recorder.advance with
    | .error breach => .error breach
    | .ok after => advanceToEnd after
termination_by recorder.remaining
decreasing_by exact Recorder.remaining_lt_of_advance _step _isEnd

def root (limits : Limits) : Record Unit := do
  let marker ← start
  repeatTurns (· != .endOfInput) limits.topLevelIterations .topLevel
    (fun _ => do
      statementOrAdvance (statement limits 1)
      return some ())
    0 ()
  change advanceToEnd
  change fun recorder => .ok recorder.flushTrivia
  complete marker .root

end Record

/-- The recording of a window whose length is a word, with every marker completed or
abandoned. -/
def record (text : Text) (window : Span) (limits : Limits) : Except Breach Recorder := do
  let reader ← Reader.ofWindow text window
  let _ ← Word.of reader.mark
  let ready ← (Recorder.ofReader reader window.start).bump
  let (_, recorded) ← Record.root limits ready
  match recorded.armed with
  | [] => return recorded
  | serial :: _ => throw (.lostMarker serial)

/-- Parses `window` of `text` by recording it and building the tree of the steps
without the tombstones. -/
def parseRecorded (text : Text) (window : Span) (limits : Limits) : Except Breach Parsed := do
  let recorded ← record text window limits
  let steps := recorded.steps.filter fun step => step != .start .tombstone
  let built ← Breach.ofFault ((Builder.atOffset window.start).run steps)
  let tree ← Breach.ofFault built.finish
  return ⟨tree, recorded.trips.reverse⟩

end TemplateFrontend
