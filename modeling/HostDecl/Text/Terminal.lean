/-!
# Text on a terminal

A terminal obeys some of the characters that it is sent. Echoed text loses its escape sequences; text
that is laid out loses the controls that would move the cursor, and its tabs become spaces. Controls
that stay take no room. Text that is laid out may be styled, with marks in brackets, and then a
backslash protects a bracket.

The marks that stand in a text itself are not modelled: only the backslashes in front of a bracket and
the style around a text are. Nor are symbols that are named between colons, characters that take the
room of two, and the width of the terminal.
-/

namespace HostDecl.Text

/-! ## Escape sequences -/

/-- The character that begins an escape sequence. -/
def escapeMark : Char := '\x1b'

/-- A character between the bracket of an escape sequence and the letter that ends it. -/
def isParameter (c : Char) : Bool := c == ';' || c == '?' || ('0' ≤ c && c ≤ '9')

/-- A text without its escape sequences, seen from the right. What stands behind a sequence is needed
when its mark is reached, so it is kept along the way. -/
structure Cleaned where
  /-- The text without escape sequences. -/
  kept : List Char
  /-- Where the text begins with parameters and the letter behind them: what follows the letter. -/
  pastLetter : Option (List Char)
  /-- Where the text begins with a bracket, parameters and a letter: what follows the letter. -/
  pastBracket : Option (List Char)

/-- The empty text. -/
def Cleaned.empty : Cleaned := ⟨[], none, none⟩

/-- One more character in front. -/
def Cleaned.cons (c : Char) (t : Cleaned) : Cleaned where
  kept := if c = escapeMark then t.pastBracket.getD (c :: t.kept) else c :: t.kept
  pastLetter := if c.isAlpha then some t.kept else if isParameter c then t.pastLetter else none
  pastBracket := if c = '[' then t.pastLetter else none

/-- The text without its escape sequences: a mark, a bracket, parameters and a letter. -/
def withoutEscapes (cs : List Char) : List Char := (cs.foldr Cleaned.cons .empty).kept

/-! ## Styles -/

/-- The text without the backslashes that protect a bracket from being read as a style. -/
def unprotected : List Char → List Char
  | '\\' :: '[' :: rest => '[' :: unprotected rest
  | c :: rest => c :: unprotected rest
  | [] => []

/-- The mark that ends a style. -/
def styleEnd : List Char := ['[', '/', ']']

/-- A text in a style. Backslashes at its end stand in front of the mark that ends the style: two of
them are one, and one that is left over makes the mark a part of the text. -/
def styled (cs : List Char) : List Char :=
  let slashes := (cs.reverse.takeWhile (· == '\\')).length
  unprotected (cs.take (cs.length - slashes)) ++ List.replicate (slashes / 2) '\\' ++
    if slashes % 2 = 0 then [] else styleEnd

/-! ## Layout -/

/-- A control that would move the cursor or ring the bell. -/
def isMovement (c : Char) : Bool :=
  c == '\x07' || c == '\x08' || c == '\x0b' || c == '\x0c' || c == '\r'

/-- The text without the controls that move the cursor. -/
def withoutMovements (cs : List Char) : List Char := cs.filter fun c => !isMovement c

/-- The room that a character takes. -/
def cellWidth (c : Char) : Nat :=
  if c.toNat < 0x20 ∨ (0x7f ≤ c.toNat ∧ c.toNat < 0xa0) then 0 else 1

/-- The room that a text takes. -/
def width : List Char → Nat
  | [] => 0
  | c :: rest => cellWidth c + width rest

/-- The distance of tab stops. -/
def tabDistance : Nat := 8

/-- The text from a column on, with spaces up to the next tab stop in place of each tab. -/
def expandTabsFrom (column : Nat) : List Char → List Char
  | [] => []
  | c :: rest =>
    if c = '\t' then
      let gap := tabDistance - column % tabDistance
      List.replicate gap ' ' ++ expandTabsFrom (column + gap) rest
    else c :: expandTabsFrom (column + cellWidth c) rest

/-- The text with its tabs expanded. -/
def expandTabs (cs : List Char) : List Char := expandTabsFrom 0 cs

/-- The first characters of a text that take no more than `room`. -/
def fitting (room : Nat) : List Char → List Char
  | [] => []
  | c :: rest => if cellWidth c ≤ room then c :: fitting (room - cellWidth c) rest else []

end HostDecl.Text
