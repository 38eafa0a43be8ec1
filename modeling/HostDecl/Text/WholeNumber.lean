import HostDecl.Text.Blank
import HostDecl.Text.Lines

/-!
# Whole numbers as they are typed

A whole number may be typed with blanks around it, with a plus sign, with zeros in front of its digits,
with single underscores between them and with a fraction of zeros. Reading takes these freedoms away
one after the other; what is left has one form for each number, a minus sign on zero apart.

The minus sign stands in front, and then zeros, underscores and the fraction are those of the text
behind it (`-00_2.0`), or it stands behind zeros in front, and then its digits have no zero in front of
them (`00-2`).
-/

namespace HostDecl.Text

/-- The most digits that a number may have without the zeros in front. -/
def numberLimit : Nat := 4300

/-- A blank that may stand around a number: the separators among the controls may not. -/
def isMargin (c : Char) : Bool := isBlank c && !(0x1c ≤ c.toNat && c.toNat ≤ 0x1f)

/-- A number without its plus sign; a minus sign cannot follow it. -/
def withoutPlus? : List Char → Option (List Char)
  | '+' :: '-' :: _ => none
  | '+' :: rest => some rest
  | cs => some cs

/-- What is left behind zeros in front, the last of which is `last`: everything from the first other
digit or the minus sign on, or the last zero where neither comes before a point or the end. Underscores
count as zeros here. -/
def afterZeros? (last : Char) : List Char → Option (List Char)
  | [] => some [last]
  | c :: rest =>
    if c = '0' ∨ c = '_' then afterZeros? c rest
    else if c = '.' then some (last :: c :: rest)
    else if c.isDigit ∨ c = '-' then some (c :: rest)
    else none

/-- A number without the zeros in front; it has to start with a digit. -/
def withoutZeros? : List Char → Option (List Char)
  | [] => none
  | c :: rest =>
    if c = '0' then afterZeros? c rest
    else if c.isDigit then some (c :: rest)
    else none

/-- A number without a fraction of zeros. -/
def withoutFraction (cs : List Char) : List Char :=
  match breakOn? ['.'] cs with
  | none => cs
  | some (whole, fraction) => if fraction ≠ [] ∧ fraction.all (· == '0') then whole else cs

/-- A number without the underscores between its digits. -/
def withoutUnderscores? (cs : List Char) : Option (List Char) :=
  if cs.head? = some '_' ∨ cs.getLast? = some '_' ∨ (breakOn? ['_', '_'] cs).isSome then none
  else some (cs.filter (· != '_'))

/-- The number that digits write, with no zero in front of another digit. -/
def plainNatural? (digits : List Char) : Option Nat :=
  if digits = [] ∨ !digits.all Char.isDigit ∨ numberLimit < digits.length then none
  else if digits.head? = some '0' ∧ digits ≠ ['0'] then none
  else some (digits.foldl (fun n c => 10 * n + (c.toNat - 48)) 0)

/-- The number that digits write behind a minus sign or none. -/
def plainInteger? : List Char → Option Int
  | '-' :: digits => (plainNatural? digits).map fun n => -(n : Int)
  | digits => (plainNatural? digits).map Int.ofNat

/-- A number that starts with a digit, without zeros in front, a fraction of zeros and underscores. -/
def plainForm? (cs : List Char) : Option (List Char) := do
  withoutUnderscores? (withoutFraction (← withoutZeros? cs))

/-- Reads a whole number. -/
def wholeNumber? (text : String) : Option Int := do
  match ← withoutPlus? (strip isMargin text.toList) with
  | '-' :: cs => (plainNatural? (← plainForm? cs)).map fun n => -(n : Int)
  | cs => plainInteger? (← plainForm? cs)

end HostDecl.Text
