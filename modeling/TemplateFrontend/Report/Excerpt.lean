import TemplateFrontend.Text.Width

/-!
Contract: the lines of a text that a report shows for a span, and the mark on
each of them.

Owns:
- cutting out the lines that hold a span, with their numbers and endings;
- `Mark`, how the span touches one line, in columns;
- folding, which leaves out the middle of a long run of lines.

The excerpt ends before the first line feed at or after the end of the span.
-/

namespace TemplateFrontend.Report

/-- A line of a text: its number counted from one, the offset of its first
byte, its characters, and the number of bytes of its ending. -/
structure SourceLine where
  number : Nat
  start : Nat
  content : Text
  ending : Nat
deriving Repr

namespace SourceLine

def stop (line : SourceLine) : Nat := line.start + line.content.byteLength

/-- A line from its characters in reverse. A carriage return right before the
line feed belongs to the ending. -/
def ofReversed (number start : Nat) (reversed : Text) (lineFeed : Bool) : SourceLine :=
  match lineFeed, reversed with
  | true, '\r' :: earlier => ⟨number, start, earlier.reverse, 2⟩
  | true, _ => ⟨number, start, reversed.reverse, 1⟩
  | false, _ => ⟨number, start, reversed.reverse, 0⟩

end SourceLine

/-! ## Cutting out lines -/

/-- A place at the start of a line, and the text from there on. -/
structure LineStart where
  number : Nat
  offset : Nat
  rest : Text

/-- The start of the line that holds the offset `target`, when the text that
begins at `offset` has been read on from the line start `found`. -/
def lineStartFrom (target : Nat) (found : LineStart) : (offset : Nat) → Text → LineStart
  | _, [] => found
  | offset, char :: rest =>
      if target ≤ offset then
        found
      else
        let next := offset + char.utf8Size
        let found := if char = '\n' then ⟨found.number + 1, next, rest⟩ else found
        lineStartFrom target found next rest

def lineStart (text : Text) (target : Nat) : LineStart :=
  lineStartFrom target ⟨1, 0, text⟩ 0 text

/-- Adds to `kept`, in reverse, the text before the first line feed at or after
the offset `target`. -/
def cutAfterOnto (target : Nat) (kept : Text) : (offset : Nat) → Text → Text
  | _, [] => kept.reverse
  | offset, char :: rest =>
      if char = '\n' && target ≤ offset then
        kept.reverse
      else
        cutAfterOnto target (char :: kept) (offset + char.utf8Size) rest

/-- Splits a text at its line feeds. `lines` holds the lines so far, the last
one first, and `reversed` the characters of the line at hand. A text that ends
with a line feed has no empty line after it. -/
def splitLinesOnto (lines : List SourceLine) (number start : Nat) (reversed : Text) :
    Text → List SourceLine
  | [] =>
      let lines :=
        if reversed.isEmpty then lines
        else .ofReversed number start reversed false :: lines
      lines.reverse
  | '\n' :: rest =>
      let line := SourceLine.ofReversed number start reversed true
      splitLinesOnto (line :: lines) (number + 1) (line.stop + line.ending) [] rest
  | char :: rest => splitLinesOnto lines number start (char :: reversed) rest

/-- The lines that hold a span, up to where the span's last line ends. -/
def excerptLines (text : Text) (span : Span) : List SourceLine :=
  let first := lineStart text span.start
  let kept := cutAfterOnto span.stop [] first.offset first.rest
  splitLinesOnto [] first.number first.offset [] kept

/-! ## Marks -/

/-- The characters that begin within the first `bytes` bytes. -/
def charsWithin : (bytes : Nat) → Text → Text
  | 0, _ => []
  | _ + 1, [] => []
  | bytes + 1, char :: rest => char :: charsWithin (bytes + 1 - char.utf8Size) rest

namespace SourceLine

def before (line : SourceLine) (offset : Nat) : Text :=
  charsWithin (offset - line.start) line.content

/-- The column of an offset on a line; the line's end stands for every offset
after it. -/
def column (line : SourceLine) (offset : Nat) : Nat :=
  (line.before (min offset line.stop)).width

/-- How far past its characters a line still owns offsets: its ending, or one
position at the end of the text. -/
def reach (line : SourceLine) : Nat := line.stop + max line.ending 1

end SourceLine

inductive Mark where
  | untouched
  | single (start stop : Nat)
  | opening (column : Nat)
  | through
  | closing (column : Nat)
deriving DecidableEq, Repr

namespace SourceLine

/-- The mark of a span on a line. A single mark is at least one column wide. -/
def mark (line : SourceLine) (span : Span) : Mark :=
  if line.stop + line.ending < span.start then
    .untouched
  else if line.start ≤ span.start && span.stop ≤ line.reach then
    let start := line.column span.start
    let stop := line.column span.stop
    .single start (if stop = start then start + 1 else stop)
  else if line.start ≤ span.start && span.start ≤ line.stop + (line.ending - 1) &&
      line.stop < span.stop then
    .opening (line.column span.start)
  else if span.start < line.start && line.reach < span.stop then
    .through
  else if span.start < line.start && line.start ≤ span.stop && span.stop ≤ line.reach then
    .closing (line.column span.stop - 1 + (if line.stop < span.stop then 1 else 0))
  else
    .untouched

end SourceLine

structure MarkedLine where
  line : SourceLine
  mark : Mark

namespace Mark

def begins : Mark → Bool
  | .single _ _ | .opening _ => true
  | _ => false

def ends : Mark → Bool
  | .single _ _ | .closing _ => true
  | _ => false

end Mark

/-- Marks lines up to the one where the span ends. -/
def markedUpToEnd (span : Span) : List SourceLine → List MarkedLine
  | [] => []
  | line :: later =>
      let mark := line.mark span
      ⟨line, mark⟩ :: (if mark.ends then [] else markedUpToEnd span later)

/-- Leaves out the lines before the first mark of a span. -/
def fromFirstMark (lines : List MarkedLine) : List MarkedLine :=
  lines.dropWhile (!·.mark.begins)

/-! ## Folding -/

/-- A shown line, or a sign that lines are left out. -/
inductive Piece where
  | line (marked : MarkedLine)
  | fold

/-- Up to three lines may stand between the first and the last one. Of more
than that only the outermost two are shown, around a fold. -/
def folded (lines : List MarkedLine) : List Piece :=
  if lines.length ≤ 5 then
    lines.map .line
  else
    (lines.take 2).map .line ++ .fold :: (lines.drop (lines.length - 2)).map .line

end TemplateFrontend.Report
