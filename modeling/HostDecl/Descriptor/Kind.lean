import HostDecl.Validation

/-!
# Kinds of host types

The kind of a type occurrence decides its TypeScript type. Kinds have a text; reading accepts the
texts of the listed kinds only. An occurrence that was not read but built may have any other text as
its kind.
-/

namespace HostDecl

/-- The kind of a host type occurrence. -/
inductive Kind where
  /-- Text. -/
  | string
  /-- A primitive value. -/
  | primitive
  /-- A primitive value in an object. -/
  | boxedPrimitive
  /-- An enumeration. -/
  | enumeration
  /-- An object of any type, or a type variable. -/
  | object
  /-- A JSON object. -/
  | jsonObject
  /-- A JSON array. -/
  | jsonArray
  /-- An exception. -/
  | throwable
  /-- No value. -/
  | void
  /-- A list. -/
  | list
  /-- A set. -/
  | set
  /-- A map. -/
  | map
  /-- A type of a generated module. -/
  | api
  /-- A data object. -/
  | dataObject
  /-- A callback for one value. -/
  | handler
  /-- A function of one argument. -/
  | function
  /-- The outcome of an asynchronous call. -/
  | asyncResult
  /-- A class token. -/
  | classType
  /-- Any other listed type. -/
  | other
  /-- A kind that is not listed. -/
  | unlisted (text : Text)
  deriving DecidableEq, Repr

namespace Kind

/-- The listed kinds. -/
def all : List Kind :=
  [.string, .primitive, .boxedPrimitive, .enumeration, .object, .jsonObject, .jsonArray, .throwable,
   .void, .list, .set, .map, .api, .dataObject, .handler, .function, .asyncResult, .classType,
   .other]

/-- The text of a kind. -/
def text : Kind → Text
  | .string => "string"
  | .primitive => "primitive"
  | .boxedPrimitive => "boxed_primitive"
  | .enumeration => "enum"
  | .object => "object"
  | .jsonObject => "json_object"
  | .jsonArray => "json_array"
  | .throwable => "throwable"
  | .void => "void"
  | .list => "list"
  | .set => "set"
  | .map => "map"
  | .api => "api"
  | .dataObject => "data_object"
  | .handler => "handler"
  | .function => "function"
  | .asyncResult => "async_result"
  | .classType => "class_type"
  | .other => "other"
  | .unlisted text => text

/-- The listed kind with a text. -/
def ofText? (t : Text) : Option Kind := all.find? fun kind => kind.text = t

/-- The kind with a text, listed or not. -/
def ofText (t : Text) : Kind := (ofText? t).getD (.unlisted t)

/-- Reads a listed kind. -/
def ofJson : Json → Checked Kind
  | .str t =>
    match ofText? t with
    | some kind => .valid kind
    | none => .refuse (.notListed (all.map text))
  | _ => .refuse (.notListed (all.map text))

/-- How many arguments an occurrence of a kind has, if it has arguments at all; kinds that are not
here take any number. -/
def argumentCounts : List (Kind × Nat) :=
  [(.list, 1), (.set, 1), (.handler, 1), (.asyncResult, 1), (.map, 2), (.function, 2)]

/-- The number of arguments that a kind asks for. -/
def argumentCount? (kind : Kind) : Option Nat := argumentCounts.lookup kind

/-- The text of a listed kind leads back to it. -/
theorem ofText?_text {kind : Kind} (listed : kind ∈ all) : ofText? kind.text = some kind := by
  revert kind
  decide

end Kind

end HostDecl
