import HostDecl.Text.Blank
import HostDecl.Text.Terminal

/-!
# Cells of a table

A cell has the width of its text as it is measured, where tabs take no room, and is then filled with
the text as it is shown, where tabs reach to the next stop. So a text may be wider than its cell. It
goes on in a further line before the first word that does not fit, loses the blanks that hang over the
end of a line, and is cut off where a single word is too wide.
-/

namespace HostDecl.Table

open Text

/-- A character that ends a line when a text is measured. -/
def isLineEnd (c : Char) : Bool :=
  let n := c.toNat
  (0x0a ≤ n && n ≤ 0x0d) || (0x1c ≤ n && n ≤ 0x1e) || n == 0x85 || n == 0x2028 || n == 0x2029

/-- The width of a text as it is measured: that of its widest line. -/
def naturalWidth (cs : List Char) : Nat :=
  (cs.foldl (fun (line, widest) c =>
    if isLineEnd c then (0, widest)
    else (line + cellWidth c, max widest (line + cellWidth c))) (0, 0)).2

/-- One character in front of runs, each of which is a word and the blanks behind it. -/
def consRun (c : Char) (runs : List (List Char)) : List (List Char) :=
  match runs with
  | (d :: run) :: rest => if isBlank c && !isBlank d then [c] :: runs else (c :: d :: run) :: rest
  | _ => [c] :: runs

/-- The words of a text with the blanks behind them; blanks at the start belong to the first word. -/
def words (cs : List Char) : List (List Char) :=
  match cs.foldr consRun [] with
  | blanks :: word :: rest => if allBlank blanks then (blanks ++ word) :: rest else blanks :: word :: rest
  | runs => runs

/-- The lines that words fill, the last one first in `done`: `taken` is the room that the words in
`line` take. -/
def fill (room taken : Nat) (line : List Char) : List (List Char) → List (List Char)
  | [] => [line]
  | word :: rest =>
    if taken + width (trimEnd word) ≤ room then fill room (taken + width word) (line ++ word) rest
    else if line.isEmpty then fill room (width word) word rest
    else line :: fill room (width word) word rest

/-- The line without the blanks that hang over its end. -/
def withoutOverhang (room : Nat) (line : List Char) : List Char :=
  let blanks := line.length - (trimEnd line).length
  line.take (line.length - min blanks (line.length - room))

/-- The line cut off where it is too wide, with a mark for what is missing. -/
def cutOff (room : Nat) (line : List Char) : List Char :=
  if width line ≤ room then line else fitting (room - 1) line ++ ['…']

/-- The lines of a cell. -/
def cellLines (room : Nat) (cs : List Char) : List (List Char) :=
  (fill room 0 [] (words (expandTabs cs))).map fun line => cutOff room (withoutOverhang room line)

end HostDecl.Table
