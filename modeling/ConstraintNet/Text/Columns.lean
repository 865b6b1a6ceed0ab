import ConstraintNet.Text.LineWidth

namespace ConstraintNet.Text

/-- Lines end with a line feed, which may follow a carriage return. What comes after the last line
feed is a line too, unless it is empty. `current` holds the line so far in reverse. -/
def linesFrom (current : List Char) : List Char → List String
  | [] => if current.isEmpty then [] else [String.ofList current.reverse]
  | c :: rest =>
    if c = '\n' then
      let line := if current.head? = some '\r' then current.tail else current
      String.ofList line.reverse :: linesFrom [] rest
    else linesFrom (c :: current) rest

def lines (s : String) : List String := linesFrom [] s.toList

/-- Where a reader of terminal text stands: outside any colour code, after an escape character, or
inside a colour code, which runs from a bracket to the letter m. -/
inductive CodeState
  | outside
  | escaped
  | inside
  deriving DecidableEq, Repr

/-- How many characters with columns stand in colour codes. An escape character does not count. -/
def hiddenFrom : CodeState → List Char → Nat
  | _, [] => 0
  | .outside, c :: rest => hiddenFrom (if c.toNat = 0x1b then .escaped else .outside) rest
  | .escaped, c :: rest =>
    if c = '[' then 1 + hiddenFrom .inside rest else hiddenFrom .outside rest
  | .inside, c :: rest =>
    (if charColumns c = 0 then 0 else 1) + hiddenFrom (if c = 'm' then .outside else .inside) rest

/-- The columns that a line fills without its colour codes. There are none if the characters in the
codes count more than the whole line, as ligatures in a code may. -/
def columns? (line : String) : Option Nat :=
  let all := lineColumns line.toList
  let hidden := hiddenFrom .outside line.toList
  if hidden ≤ all then some (all - hidden) else none

def maximum (l : List Nat) : Nat := l.foldl max 0

structure MeasuredLine where
  text : String
  columns : Nat
  deriving DecidableEq, Repr

/-- A cell of a table: its lines, one below the other. -/
abbrev TableCell := List MeasuredLine

/-- Measures the lines of a text, as far as they have a measure. -/
def cell? (text : String) : Option TableCell :=
  (lines text).mapM fun line => (columns? line).map (⟨line, ·⟩)

/-- The columns that each of `count` table columns needs. -/
def columnWidths (count : Nat) (rows : List (List TableCell)) : List Nat :=
  (List.range count).map fun i =>
    maximum (rows.map fun row => maximum ((row.getD i []).map MeasuredLine.columns))

/-- The line between two rows. -/
def rule (widths : List Nat) : String :=
  "+" ++ String.join (widths.map fun w => String.ofList (List.replicate (w + 2) '-') ++ "+") ++ "\n"

/-- A line with blanks after it up to the given width. -/
def filled (width : Nat) (line : MeasuredLine) : String :=
  line.text ++ String.ofList (List.replicate (width - line.columns) ' ')

/-- The `i`-th line of a row; a cell with fewer lines is blank there. -/
def rowLine (widths : List Nat) (row : List TableCell) (i : Nat) : String :=
  "|" ++ String.join ((row.zip widths).map fun (cell, w) =>
    " " ++ filled w (cell.getD i ⟨"", 0⟩) ++ " |") ++ "\n"

/-- A row is as high as its highest cell, and at least one line high. -/
def rowText (widths : List Nat) (row : List TableCell) : String :=
  String.join ((List.range (max 1 (maximum (row.map List.length)))).map (rowLine widths row))

/-- A table with a line above, between and below its rows, if each of its lines has a measure. -/
def table? (count : Nat) (rows : List (List String)) : Option String := do
  let cells ← rows.mapM fun row => row.mapM cell?
  let widths := columnWidths count cells
  return rule widths ++ String.join (cells.map fun row => rowText widths row ++ rule widths)

end ConstraintNet.Text
