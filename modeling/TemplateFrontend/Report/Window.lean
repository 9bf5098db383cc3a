import TemplateFrontend.Report.Excerpt
import TemplateFrontend.Text.WhiteSpace

/-!
Contract: the part of long lines that a report shows.

Owns:
- `Extent`, what a report would like to show, measured on the excerpt;
- `Window`, the columns that it does show, chosen once for all lines;
- what a window leaves of one line.

Lines are measured in bytes, marks in columns. A window leaves something out
only when the longest line does not fit, when all lines are deeply indented, or
when there is nothing but white space to show.
-/

namespace TemplateFrontend.Report

/-! ## Shown text -/

def directionSigns : Text :=
  ['\u202a', '\u202b', '\u202c', '\u202d', '\u202e', '\u2066', '\u2067', '\u2068', '\u2069']

/-- A tab is shown as four blanks; a joiner is not shown, nor are the signs
that change the direction of text. -/
def shownText (content : Text) : Text :=
  content.flatMap fun char =>
    if char = '\t' then "    ".toList
    else if char = '\u200d' || directionSigns.contains char then []
    else [char]

/-! ## Extent -/

def label : Text := "here".toList

namespace Mark

/-- First column of the signs of a mark, and the column after the last. -/
def columns? : Mark → Option (Nat × Nat)
  | .single start stop => some (start, stop)
  | .opening column | .closing column => some (column, column + 1)
  | .untouched | .through => none

end Mark

/-- What a report would like to show. The indentation is the least of all lines
that hold more than white space; the span reaches from its leftmost mark to its
rightmost one, with the label after it; `longest` is the length of the longest
line. -/
structure Extent where
  indentation : Option Nat
  spanStart : Nat
  spanStop : Nat
  labelStop : Nat
  longest : Nat
deriving Repr

/-- White space in front of a line, where a tab counts four. -/
def indentationOf (content : Text) : Nat :=
  (content.takeWhile Text.isWhiteSpace).foldr
    (fun char total => (if char = '\t' then 4 else 1) + total) 0

namespace Extent

def ofExcerpt (lines : List SourceLine) (marked : List MarkedLine) : Extent :=
  let contents := lines.map SourceLine.content
  let visible := contents.filter fun content => !content.allWhiteSpace
  let columns := marked.filterMap fun line => line.mark.columns?
  let spanStop := (columns.map Prod.snd).max?.getD 0
  { indentation := (visible.map indentationOf).min?
    spanStart := (columns.map Prod.fst).min?.getD 0
    spanStop
    labelStop := spanStop + label.length + 1
    longest := (contents.map Text.byteLength).max?.getD 0 }

/-- Columns that are kept free on either side, for the sign of a cut. -/
def margin : Nat := 6

/-- Leaves the margin on either side, as far as there are columns. -/
def withMargin (extent : Extent) : Extent :=
  { extent with
    indentation := extent.indentation.map (· - margin)
    spanStart := extent.spanStart - margin
    spanStop := extent.spanStop + margin
    labelStop := extent.labelStop + margin }

end Extent

/-! ## Window -/

/-- The columns from `left` to before `right` of every line, of which `room`
fit. A line that is longer than `uncut`, and does not fit, gets a sign at its
right end. Without `left` every line is left out as a whole. -/
structure Window where
  room : Nat
  left : Option Nat
  right : Nat
  uncut : Nat
deriving Repr

namespace Window

/-- Indentation up to this width is always shown. -/
def deepIndentation : Nat := 20

/-- The part of a deeper indentation that is still shown. -/
def keptIndentation : Nat := 4

/-- The edges of the window on an excerpt with a line that holds more than
white space. If the longest line fits behind a deep indentation, all is shown.
If not, the window starts at the indentation, or else around span and label, or
else around the span alone, or else covers nothing but the span: the first of
these that fits. -/
def edges (room indentation : Nat) (extent : Extent) : Nat × Nat :=
  let left :=
    if deepIndentation < indentation then indentation - (deepIndentation - keptIndentation)
    else 0
  let right := max extent.longest left
  let labelled := extent.labelStop - extent.spanStart
  let bare := extent.spanStop - extent.spanStart
  if right - left ≤ room then
    (left, right)
  else if indentation ≤ extent.labelStop ∧ extent.labelStop - indentation ≤ room then
    (indentation, indentation + room)
  else if labelled ≤ room then
    let left := extent.spanStart - (room - labelled) / 2
    (left, left + room)
  else if bare ≤ room then
    let left := extent.spanStart - (room - bare) / 5 * 2
    (left, left + room)
  else
    (extent.spanStart, extent.spanStop)

/-- The window on an excerpt. An edge at the end of span or label lies beyond
them by the margin, which does not count for the sign of a cut. -/
def ofExtent (room : Nat) (extent : Extent) : Window :=
  let extent := extent.withMargin
  match extent.indentation with
  | none => ⟨room, none, 0, 0⟩
  | some indentation =>
      let (left, right) := edges room indentation extent
      let beyond := right = extent.spanStop ∨ right = extent.labelStop
      ⟨room, some left, right, if beyond then right - Extent.margin else right⟩

/-- Characters left out at the left of a line of so many bytes. -/
def skipped (window : Window) (length : Nat) : Nat :=
  match window.left with
  | none => length
  | some left => min left length

/-- Columns of a line of so many bytes that may be shown, counted from the
first column of the whole line. -/
def reached (window : Window) (length : Nat) : Nat :=
  match window.left with
  | none => length
  | some left =>
      if length - left ≤ window.room ∨ length < window.right then length else window.right

/-- Lines get the sign of a cut at their left end, all or none of them. -/
def cutsLeft (window : Window) : Bool :=
  match window.left with
  | none => true
  | some left => decide (0 < left)

/-- A line of so many bytes gets the sign of a cut at its right end. -/
def cutsRight (window : Window) (length : Nat) : Bool :=
  match window.left with
  | none => false
  | some left => decide (window.uncut < length ∧ left + window.room < length)

/-- The characters from the front of a text that fit into so many columns. -/
def fitting : (columns : Nat) → Text → Text
  | _, [] => []
  | columns, char :: rest =>
      let taken := Text.drawnCharWidth char
      if taken ≤ columns then char :: fitting (columns - taken) rest else []

def clip (window : Window) (shown : Text) : Text :=
  let length := shown.byteLength
  let skipped := window.skipped length
  fitting (window.reached length - skipped) (shown.drop skipped)

def shift (window : Window) (shown : Text) : Nat :=
  Text.drawnWidth (shown.take (window.skipped shown.byteLength))

end Window

/-! ## Terminal -/

/-- Columns of the terminal that reports are written for. -/
def terminalColumns : Nat := 140

/-- The window on the excerpt for a span. Next to the text a report needs three
columns and those of the number after the last line's. -/
def Window.forSpan (lines : List SourceLine) (marked : List MarkedLine) : Window :=
  let following := (lines.getLast?.map fun line => line.number + 1).getD 1
  let gutter := 3 + (Nat.toDigits 10 following).length
  .ofExtent (terminalColumns - gutter) (.ofExcerpt lines marked)

end TemplateFrontend.Report
