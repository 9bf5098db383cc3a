import TemplateFrontend.Diagnostic
import TemplateFrontend.Report.Canvas
import TemplateFrontend.Report.Window

/-!
Contract: the report of a diagnostic for a terminal.

A report is a heading, the place of the span, and the marked lines of the text
between two bars. Line numbers stand right-aligned in a gutter; a span over
several lines is drawn with a bar of its own between gutter and text. Lines
that are too long are cut to a window, and their marks move with it.
-/

namespace TemplateFrontend.Report

inductive Look where
  | plain
  | styled
deriving DecidableEq, Repr

/-- The columns of a report: the width of the line numbers, whether the span
covers more than one shown line, and the window on the lines. -/
structure Frame where
  numberWidth : Nat
  several : Bool
  window : Window
deriving Repr

namespace Frame

def bar (frame : Frame) : Nat := frame.numberWidth + 1

/-- The column of the bar that follows a span over several lines. -/
def spanBar (frame : Frame) : Nat := frame.numberWidth + 3

def code (frame : Frame) : Nat := frame.numberWidth + 3 + (if frame.several then 2 else 0)

def barRow (frame : Frame) : CellRow := CellRow.put [] frame.bar .gutter ['|']

def withSpanBar (frame : Frame) (row : CellRow) (sign : Char) : CellRow :=
  row.put frame.spanBar .alarm [sign]

/-- The underline that leads from the span's bar to the tip in column `tip`. -/
def withLead (frame : Frame) (row : CellRow) (tip : Nat) : CellRow :=
  (row.put (frame.spanBar + 1) .alarm (List.replicate (tip - frame.spanBar) '_')).put
    tip .alarm ['^']

end Frame

def alignedRight (width number : Nat) : Text :=
  let digits := Nat.toDigits 10 number
  List.replicate (width - digits.length) ' ' ++ digits

def ellipsis : Text := "...".toList

def lineRow (frame : Frame) (line : SourceLine) : CellRow :=
  let shown := shownText line.content
  let visible := frame.window.clip shown
  let number := CellRow.put [] 0 .gutter (alignedRight frame.numberWidth line.number ++ " |".toList)
  let row := number.put frame.code .plain visible
  let row := if frame.window.cutsLeft then row.put frame.code .gutter ellipsis else row
  if frame.window.cutsRight shown.byteLength then
    row.put (frame.code + visible.drawnWidth - ellipsis.length) .gutter ellipsis
  else
    row

/-- The rows of a line with its mark. A span that starts after blanks only is
opened in the line's own row. -/
def lineRows (frame : Frame) (marked : MarkedLine) : List CellRow :=
  let row := lineRow frame marked.line
  let shown := shownText marked.line.content
  let shift := frame.window.shift shown
  match marked.mark with
  | .untouched => [row]
  | .single start stop =>
      let first := frame.code + start - shift
      let last := frame.code + (stop - 1) - shift
      let carets := frame.barRow.put first .alarm (List.replicate (last + 1 - first) '^')
      [row, carets.put (frame.code + (stop + 1 - shift)) .alarm label]
  | .opening column =>
      if (shown.take column).all Text.isWhiteSpace then
        [frame.withSpanBar row '/']
      else
        [row, frame.withLead frame.barRow (frame.code + column - shift)]
  | .through => [frame.withSpanBar row '|']
  | .closing column =>
      let tip := frame.code + column - shift
      let labelled := (frame.withSpanBar frame.barRow '|').put
        (frame.code + (column + 2 - shift)) .alarm label
      [frame.withSpanBar row '|', frame.withLead labelled tip]

def foldRow (frame : Frame) : CellRow :=
  frame.withSpanBar (CellRow.put [] 0 .gutter ellipsis) '|'

def pieceRows (frame : Frame) : Piece → List CellRow
  | .line marked => lineRows frame marked
  | .fold => [foldRow frame]

/-- Line and column of the start of a span, both counted from one. The column
counts characters. -/
def position (lines : List SourceLine) (offset : Nat) : Nat × Nat :=
  match lines.find? fun line => line.start ≤ offset && offset < line.reach with
  | some line => (line.number, 1 + (line.before (min offset line.stop)).length)
  | none => (1, 1)

def Piece.line? : Piece → Option SourceLine
  | .line marked => some marked.line
  | .fold => none

def headingRow (message : Text) : CellRow :=
  let severity := CellRow.put [] 0 .alarm "error".toList
  (severity.put 5 .plain ": ".toList).put 7 .message message

def placeRow (frame : Frame) (path : Text) (place : Nat × Nat) : CellRow :=
  let arrow := CellRow.put [] frame.numberWidth .gutter "-->".toList
  let row := arrow.put (frame.numberWidth + 4) .plain path
  row.put row.length .plain
    (':' :: Nat.toDigits 10 place.1 ++ ':' :: Nat.toDigits 10 place.2)

def rows (message path text : Text) (span : Span) : List CellRow :=
  let excerpt := excerptLines text span
  let marked := markedUpToEnd span excerpt
  let pieces := folded (fromFirstMark marked)
  let lines := pieces.filterMap Piece.line?
  let greatest := lines.foldl (fun greatest line => max greatest line.number) 0
  let frame : Frame :=
    { numberWidth := (Nat.toDigits 10 greatest).length
      several := decide (1 < lines.length)
      window := .forSpan excerpt marked }
  [headingRow message, placeRow frame path (position lines span.start), frame.barRow] ++
    pieces.flatMap (pieceRows frame) ++ [frame.barRow]

def Look.write : Look → CellRow → Text
  | .plain, row => row.plainText
  | .styled, row => row.styledText

end TemplateFrontend.Report

namespace TemplateFrontend

/-- The lines of the report of a diagnostic of `text`, which was read from
`path`. -/
def Diagnostic.render (diagnostic : Diagnostic) (look : Report.Look) (path text : Text) :
    List Text :=
  (Report.rows diagnostic.problem.message.toList path text diagnostic.span).map look.write

end TemplateFrontend
