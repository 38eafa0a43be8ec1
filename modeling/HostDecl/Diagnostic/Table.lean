import HostDecl.Diagnostic.Cell
import HostDecl.Diagnostic.Summary

/-!
# The table of a summary

Three columns in a frame of box characters, with a title centred above them. A row has as many lines
as its longest cell.

This is the table of one console, which has room for any table. It obeys no style: a mark in brackets
and a symbol that is named between colons stay in the text, where other consoles take them out, replace
them, or refuse a mark that ends nothing. Nor is anything shortened to a width that a console has. So
what is drawn here is what those consoles draw only for cells without brackets, backslashes and colons,
and without controls but those that all of them drop (`Text.isMovement`), in a table for which there is
room.
-/

namespace HostDecl.Table

open Text

/-- The title. -/
def title : String := "Translation Diagnostics"

/-- The headers of the columns. -/
def headers : String × String × String := ("Event", "Detail", "Count")

/-- The characters of a frame line: left end, line, crossing, right end. -/
structure Rule where
  /-- The left end. -/
  left : Char
  /-- The line. -/
  line : Char
  /-- The crossing of two columns. -/
  crossing : Char
  /-- The right end. -/
  right : Char

/-- The line above the headers. -/
def topRule : Rule := ⟨'┏', '━', '┳', '┓'⟩

/-- The line below the headers. -/
def headRule : Rule := ⟨'┡', '━', '╇', '┩'⟩

/-- The line below the rows. -/
def bottomRule : Rule := ⟨'└', '─', '┴', '┘'⟩

/-- The widths of the columns. -/
structure Widths where
  /-- The width of the events. -/
  event : Nat
  /-- The width of the details. -/
  detail : Nat
  /-- The width of the counts. -/
  count : Nat

/-- The text of a cell, without the controls that would break the frame. Styles are not obeyed. -/
def cellText (s : String) : List Char := withoutMovements (unprotected s.toList)

/-- The widest of a header and its cells. -/
def widest (header : String) (cells : List String) : Nat :=
  cells.foldl (fun width cell => max width (naturalWidth (cellText cell))) header.length

/-- The widths that rows need. -/
def widths (rows : List (String × String × Nat)) : Widths :=
  ⟨widest headers.1 (rows.map fun row => row.1),
   widest headers.2.1 (rows.map fun row => row.2.1),
   widest headers.2.2 (rows.map fun row => toString row.2.2)⟩

/-- Spaces. -/
def spaces (n : Nat) : List Char := List.replicate n ' '

/-- A line with spaces behind it. -/
def padRight (room : Nat) (line : List Char) : List Char := line ++ spaces (room - width line)

/-- A line with spaces in front of it. -/
def padLeft (room : Nat) (line : List Char) : List Char := spaces (room - width line) ++ line

/-- A frame line. -/
def Rule.draw (r : Rule) (w : Widths) : String :=
  let run (n : Nat) : List Char := List.replicate (n + 2) r.line
  String.ofList (r.left :: (run w.event ++ r.crossing :: run w.detail ++ r.crossing ::
    run w.count ++ [r.right, '\n']))

/-- A line of cells between bars. -/
def cellsLine (bar : Char) (w : Widths) (event detail count : List Char) : String :=
  String.ofList ([bar, ' '] ++ padRight w.event event ++ [' ', bar, ' '] ++
    padRight w.detail detail ++ [' ', bar, ' '] ++ padLeft w.count count ++ [' ', bar, '\n'])

/-- A row: the lines of its cells side by side, with blank lines below a shorter cell. -/
def row (bar : Char) (w : Widths) (event detail count : String) : String :=
  let events := cellLines w.event (cellText event)
  let details := cellLines w.detail (cellText detail)
  let counts := cellLines w.count (cellText count)
  let height := max events.length (max details.length counts.length)
  String.join ((List.range height).map fun i =>
    cellsLine bar w (events[i]?.getD []) (details[i]?.getD []) (counts[i]?.getD []))

/-- The title, centred in the width of the table. -/
def titleLine (w : Widths) : String :=
  let room := w.event + w.detail + w.count + 10
  String.ofList (padRight room (spaces ((room - title.length) / 2) ++ title.toList) ++ ['\n'])

/-- The table of rows. -/
def draw (rows : List (String × String × Nat)) : String :=
  let w := widths rows
  titleLine w ++ topRule.draw w ++ row '┃' w headers.1 headers.2.1 headers.2.2 ++
    headRule.draw w ++
    String.join (rows.map fun (event, detail, count) => row '│' w event detail (toString count)) ++
    bottomRule.draw w

/-- The console that draws these tables. -/
def console (rows : List (String × String × Nat)) : Except Text String := .ok (draw rows)

end HostDecl.Table
