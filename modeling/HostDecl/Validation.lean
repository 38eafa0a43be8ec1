import HostDecl.Json.Basic
import HostDecl.Text.Blank

/-!
# Validation of JSON values

A value is read into a type of the library, or refused with every issue found in it. An issue has a
location, the path of keys and indices from the value to the offending place, and a problem. Issues
of the fields of an object come in the order of the fields, issues of the items of an array in the
order of the items: `Checked.ap` and `Checked.cons` collect the issues of both their sides.
-/

namespace HostDecl

/-- A step of a location. -/
inductive Step where
  /-- Into the value of a key. -/
  | key (name : Text)
  /-- Into the item at an index. -/
  | index (i : Nat)
  deriving DecidableEq, Repr

/-- What is wrong at a location. -/
inductive Problem where
  /-- A required field is absent; the location ends in its name. -/
  | missing
  /-- The value is no text. -/
  | notText
  /-- The value is no array. -/
  | notList
  /-- The value is no object; the model it should be. -/
  | notObject (model : String)
  /-- The value is none of the listed texts. -/
  | notListed (texts : List Text)
  /-- The value could be a truth value but is none. -/
  | unreadableBoolean
  /-- The value cannot be a truth value. -/
  | notBoolean
  /-- The value is a text that holds half of a surrogate pair, where a word has to be looked up. -/
  | brokenText
  /-- The value breaks a rule of its model; the rule's wording. -/
  | broken (rule : Text)
  deriving DecidableEq, Repr

/-- A problem and its location. -/
structure Issue where
  /-- The path to the offending value. -/
  location : List Step
  /-- What is wrong there. -/
  problem : Problem
  deriving DecidableEq, Repr

/-- Texts in single quotes, with commas between and `or` before the last. -/
def alternatives : List Text → Text
  | [] => ""
  | [a] => "'" ++ a ++ "'"
  | [a, b] => "'" ++ a ++ "' or '" ++ b ++ "'"
  | a :: rest => "'" ++ a ++ "', " ++ alternatives rest

/-- The code of a problem. -/
def Problem.code : Problem → String
  | .missing => "missing"
  | .notText => "string_type"
  | .notList => "list_type"
  | .notObject _ => "model_type"
  | .notListed _ => "enum"
  | .unreadableBoolean => "bool_parsing"
  | .notBoolean => "bool_type"
  | .brokenText => "string_unicode"
  | .broken _ => "value_error"

/-- The wording of a problem. -/
def Problem.message : Problem → Text
  | .missing => "Field required"
  | .notText => "Input should be a valid string"
  | .notList => "Input should be a valid list"
  | .notObject model => "Input should be a valid dictionary or instance of " ++ model
  | .notListed texts => "Input should be " ++ alternatives texts
  | .unreadableBoolean => "Input should be a valid boolean, unable to interpret input"
  | .notBoolean => "Input should be a valid boolean"
  | .brokenText =>
    "Input should be a valid string, unable to parse raw data as a unicode string"
  | .broken rule => "Value error, " ++ rule

/-- A value, or the issues that refuse it. -/
inductive Checked (α : Type) where
  /-- The value was accepted. -/
  | valid (value : α)
  /-- The value was refused. -/
  | invalid (issues : List Issue)
  deriving Repr

namespace Checked

variable {α β : Type}

/-- Refused with one issue, here. -/
def refuse (problem : Problem) : Checked α := .invalid [⟨[], problem⟩]

/-- A function of the accepted value. -/
def map (f : α → β) : Checked α → Checked β
  | .valid value => .valid (f value)
  | .invalid issues => .invalid issues

/-- An accepted function of an accepted value, or the issues of both. -/
def ap : Checked (α → β) → Checked α → Checked β
  | .valid f, .valid value => .valid (f value)
  | .valid _, .invalid issues => .invalid issues
  | .invalid issues, .valid _ => .invalid issues
  | .invalid issues, .invalid more => .invalid (issues ++ more)

/-- The same outcome, seen from one step further out. -/
def under (step : Step) : Checked α → Checked α
  | .valid value => .valid value
  | .invalid issues => .invalid (issues.map fun issue => ⟨step :: issue.location, issue.problem⟩)

/-- An item at an index in front of the items behind it. -/
def cons (i : Nat) (head : Checked α) (tail : Checked (List α)) : Checked (List α) :=
  ((head.under (.index i)).map List.cons).ap tail

/-- The accepted value under a further rule. -/
def also (rule : α → Option Text) : Checked α → Checked α
  | .valid value =>
    match rule value with
    | none => .valid value
    | some broken => .refuse (.broken broken)
  | .invalid issues => .invalid issues

/-- The issues; none if the value was accepted. -/
def issues : Checked α → List Issue
  | .valid _ => []
  | .invalid found => found

end Checked

/-- The bound of the signed numbers of 64 bits. -/
def wordBound : Int := 9223372036854775808

namespace Json

variable {α : Type}

/-- Reads a text. -/
def readText : Json → Checked Text
  | .str text => .valid text
  | _ => .refuse .notText

/-- The words for the two truth values. -/
def truthWords : List String := ["1", "on", "t", "true", "y", "yes"]

@[inherit_doc truthWords]
def falsityWords : List String := ["0", "off", "f", "false", "n", "no"]

/-- Reads a whole number as a truth value. -/
def readTruthNumber (n : Int) : Checked Bool :=
  if n = 0 then .valid false else if n = 1 then .valid true else .refuse .unreadableBoolean

/-- Reads a truth value: the values themselves, the numbers 0 and 1, and the words for them in any
case. Numbers beyond 64 bits and fractions cannot be truth values at all. -/
def readBool : Json → Checked Bool
  | .bool value => .valid value
  | .int n =>
    if -wordBound ≤ n ∧ n < wordBound then readTruthNumber n else .refuse .notBoolean
  | .float x =>
    match x.toInt? with
    | some n =>
      if -wordBound < n ∧ n < wordBound then readTruthNumber n else .refuse .notBoolean
    | none => .refuse .notBoolean
  | .str text =>
    match text.string? with
    | none => .refuse .brokenText
    | some word =>
      if Text.asciiLower word ∈ truthWords then .valid true
      else if Text.asciiLower word ∈ falsityWords then .valid false
      else .refuse .unreadableBoolean
  | _ => .refuse .notBoolean

/-- Reads `null` or a value. -/
def readOptional (read : Json → Checked α) : Json → Checked (Option α)
  | .null => .valid none
  | value => (read value).map some

/-- Reads the items of an array, the first of which has index `i`. -/
def readItems (read : Json → Checked α) (i : Nat) : List Json → Checked (List α)
  | [] => .valid []
  | item :: rest => .cons i (read item) (readItems read (i + 1) rest)

/-- Reads an array. -/
def readList (read : Json → Checked α) : Json → Checked (List α)
  | .arr items => readItems read 0 items
  | _ => .refuse .notList

/-- Reads a field that must be there. -/
def required (key : Text) (read : Json → Checked α) (members : List (Text × Json)) :
    Checked α :=
  match member? key members with
  | some value => (read value).under (.key key)
  | none => .invalid [⟨[.key key], .missing⟩]

/-- Reads a field that has a default. -/
def optional (key : Text) (default : α) (read : Json → Checked α)
    (members : List (Text × Json)) : Checked α :=
  match member? key members with
  | some value => (read value).under (.key key)
  | none => .valid default

/-- Reads a field with a default that goes by two keys; the second counts if the first is absent. -/
def optionalEither (first second : Text) (default : α) (read : Json → Checked α)
    (members : List (Text × Json)) : Checked α :=
  match member? first members with
  | some value => (read value).under (.key first)
  | none => optional second default read members

end Json

end HostDecl
