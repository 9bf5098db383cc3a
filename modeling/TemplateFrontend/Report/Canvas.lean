import TemplateFrontend.Text.Slice

/-!
Contract: rows of styled characters, and how they are written.

Columns count cells. Written plainly a row is its characters; written with
styles it switches between them with terminal escape sequences and ends
without a style.
-/

namespace TemplateFrontend.Report

inductive Style where
  | plain
  /-- The word that names the severity, and every mark of the span. -/
  | alarm
  | message
  /-- Line numbers, the bar after them, the arrow and the sign of a fold. -/
  | gutter
deriving DecidableEq, Repr

/-- The escape character with a parameter of the terminal's style command. -/
def escape (parameter : String) : Text := '\x1b' :: '[' :: (parameter.toList ++ ['m'])

/-- The sequences that switch to a style from no style. -/
def Style.codes : Style → Text
  | .plain => []
  | .alarm => escape "1" ++ escape "91"
  | .message => escape "1"
  | .gutter => escape "1" ++ escape "94"

structure Cell where
  char : Char
  style : Style
deriving DecidableEq, Repr

/-- The cells of a row from column zero on. -/
abbrev CellRow := List Cell

namespace CellRow

/-- Fills a row with plain blanks up to a column. -/
def padTo (row : CellRow) (column : Nat) : CellRow :=
  row ++ List.replicate (column - row.length) ⟨' ', .plain⟩

/-- Writes a text over the cells from a column on; an empty text changes
nothing. -/
def put (row : CellRow) (column : Nat) (style : Style) (text : Text) : CellRow :=
  if text.isEmpty then
    row
  else
    let padded := row.padTo column
    padded.take column ++ text.map (⟨·, style⟩) ++ padded.drop (column + text.length)

def plainText (row : CellRow) : Text := row.map Cell.char

/-- What switches from one style to another. -/
def switch (current next : Style) : Text :=
  if current = next then []
  else (if current = .plain then [] else escape "0") ++ next.codes

/-- The characters with the switches between their styles, when `current` is
the style before the row. -/
def styledFrom (current : Style) : CellRow → Text
  | [] => switch current .plain
  | cell :: later => switch current cell.style ++ cell.char :: styledFrom cell.style later

def styledText (row : CellRow) : Text := styledFrom .plain row

end CellRow

end TemplateFrontend.Report
