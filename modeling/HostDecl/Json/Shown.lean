import HostDecl.Json.Basic
import HostDecl.Text.Printable

/-!
# Values in messages

How a value reads in a message that was meant for a text: a text stands for itself, other values are
spelled out, with quotes around the texts inside them and escapes for what is not printable. Also
which values count as holding, where no truth value is asked for but one is needed.
-/

namespace HostDecl.Json

/-- A character inside quotes. -/
def shownChar (quote c : Char) : List Char :=
  if c = quote ∨ c = '\\' then ['\\', c]
  else if c = '\n' then ['\\', 'n']
  else if c = '\r' then ['\\', 'r']
  else if c = '\t' then ['\\', 't']
  else if Text.isPrintable c.toNat then [c]
  else Text.escapedPoint c.toNat

/-- A code point inside quotes. -/
def shownPoint (quote : Char) : CodePoint → List Char
  | .char c => shownChar quote c
  | .half place => Text.escapedPoint (CodePoint.firstHalf + place)

/-- A text in quotes: single ones, unless it holds single quotes but no double ones. -/
def shownText (text : Text) : String :=
  let holds (c : Char) : Bool := text.points.contains (.char c)
  let quote := if holds '\'' && !holds '"' then '"' else '\''
  String.ofList (quote :: text.points.flatMap (shownPoint quote) ++ [quote])

mutual

/-- A value as part of another one. -/
def shownInside : Json → String
  | .null => "None"
  | .bool value => if value then "True" else "False"
  | .int value => toString value
  | .float value => value.text
  | .str text => shownText text
  | .arr items => "[" ++ ", ".intercalate (shownItems items) ++ "]"
  | .obj members => "\x7b" ++ ", ".intercalate (shownMembers members) ++ "\x7d"

/-- The items of an array. -/
def shownItems : List Json → List String
  | [] => []
  | item :: rest => shownInside item :: shownItems rest

/-- The members of an object. -/
def shownMembers : List (Text × Json) → List String
  | [] => []
  | (key, value) :: rest => (shownText key ++ ": " ++ shownInside value) :: shownMembers rest

end

/-- A value in a message. -/
def shown : Json → Text
  | .str text => text
  | value => shownInside value

/-- Whether a value counts as holding: nothing, zero and what is empty do not. -/
def holds : Json → Bool
  | .null => false
  | .bool value => value
  | .int value => value != 0
  | .float value => value.toInt? != some 0
  | .str text => !text.points.isEmpty
  | .arr items => !items.isEmpty
  | .obj members => !members.isEmpty

end HostDecl.Json
