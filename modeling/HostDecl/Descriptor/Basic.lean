import HostDecl.Descriptor.Kind
import HostDecl.Json.Shown

/-!
# Type descriptors

A descriptor is one occurrence of a host type: its kind, its names, the module it comes from, its
type arguments if it has any (`List<String>` has one), and the names of the parameters that the type
declares (`T` for `List<T>`), with or without arguments.

Reading a descriptor checks the fields of every descriptor in it and then, where they are in order,
its number of type arguments; so a faulty argument hides the count of the descriptor around it.
-/

namespace HostDecl

/-- One occurrence of a host type. -/
structure Descriptor where
  /-- What sort of type it is. -/
  kind : Kind
  /-- The name without its package. -/
  simpleName : Text
  /-- The qualified name, type arguments included. -/
  name : Text
  /-- The generated module that holds the type; none for types outside. -/
  moduleName : Option Text
  /-- The type arguments of a parameterized occurrence. -/
  typeArguments : Option (List Descriptor)
  /-- The names of the parameters that the type declares. -/
  typeParameters : List Text
  /-- Whether the occurrence is a type variable. -/
  isVariable : Bool
  deriving Repr

/-- Why a number of type arguments is refused. -/
inductive ArgumentCountFault where
  /-- The occurrence is parameterized by nothing. -/
  | noArguments (name : Text)
  /-- The kind asks for another number. -/
  | wrongCount (name : Text) (kind : Kind) (expected got : Nat)
  deriving DecidableEq, Repr

/-- The wording of a refused number of arguments. -/
def ArgumentCountFault.message : ArgumentCountFault → Text
  | .noArguments name => name ++ ": type_arguments must not be empty"
  | .wrongCount name kind expected got =>
    name ++ ": " ++ kind.text ++ " takes " ++ toString expected ++ " type argument(s), got " ++
      toString got

/-- Why there is no type argument at an index. -/
inductive ArgumentFault where
  /-- The occurrence has no type arguments. -/
  | notParameterized (name : Text)
  /-- The index lies outside of the arguments. -/
  | outOfRange
  /-- The index has more than 64 bits. -/
  | indexTooWide
  deriving DecidableEq, Repr

/-- The wording of a missing argument. -/
def ArgumentFault.message : ArgumentFault → Text
  | .notParameterized name => name ++ " is not parameterized"
  | .outOfRange => "list index out of range"
  | .indexTooWide => "cannot fit 'int' into an index-sized integer"

/-- The part of a name before its type arguments. -/
def eraseArguments (name : Text) : Text := ⟨name.points.takeWhile (· ≠ .char '<')⟩

/-- The item at an index; a negative index counts from the end. -/
def itemAt? {α : Type} (items : List α) (index : Int) : Option α :=
  if 0 ≤ index then items[index.toNat]?
  else if index.natAbs ≤ items.length then items[items.length - index.natAbs]? else none

namespace Descriptor

/-- Whether the occurrence has type arguments. -/
def hasArguments (d : Descriptor) : Bool := d.typeArguments.isSome

/-- The qualified name without type arguments. -/
def bareName (d : Descriptor) : Text := eraseArguments d.name

/-- The simple name without type arguments. -/
def bareSimpleName (d : Descriptor) : Text := eraseArguments d.simpleName

/-- The type argument at an index. -/
def argument (d : Descriptor) (index : Int) : Except ArgumentFault Descriptor :=
  match d.typeArguments with
  | none => .error (.notParameterized d.name)
  | some items =>
    match itemAt? items index with
    | some item => .ok item
    | none =>
      if -wordBound ≤ index ∧ index < wordBound then .error .outOfRange else .error .indexTooWide

/-- What is wrong with the number of type arguments. -/
def argumentCountFault? (d : Descriptor) : Option ArgumentCountFault :=
  match d.typeArguments with
  | none => none
  | some [] => some (.noArguments d.name)
  | some items =>
    match d.kind.argumentCount? with
    | none => none
    | some expected =>
      if items.length = expected then none
      else some (.wrongCount d.name d.kind expected items.length)

/-- The rule that every accepted descriptor meets. -/
def argumentCountRule (d : Descriptor) : Option Text :=
  d.argumentCountFault?.map ArgumentCountFault.message

/-! ## Reading -/

/-- The name of the model in reports. -/
def model : String := "TypeDescriptor"

mutual

/-- Reads a descriptor. -/
def ofJson : Json → Checked Descriptor
  | .obj members =>
    ((((((((Json.required "kind" Kind.ofJson members).map mk).ap
      (Json.required "simple_name" Json.readText members)).ap
      (Json.required "name" Json.readText members)).ap
      (Json.optional "module_name" none (Json.readOptional Json.readText) members)).ap
      (argumentsField members)).ap
      (Json.optional "type_parameters" [] (Json.readList Json.readText) members)).ap
      (Json.optional "is_variable" false Json.readBool members)).also argumentCountRule
  | _ => .refuse (.notObject model)

/-- Reads the field of the type arguments. -/
def argumentsField : List (Text × Json) → Checked (Option (List Descriptor))
  | [] => .valid none
  | (key, value) :: rest =>
    if key = "type_arguments" then (readArguments value).under (.key key) else argumentsField rest

/-- Reads type arguments, or their absence. -/
def readArguments : Json → Checked (Option (List Descriptor))
  | .null => .valid none
  | .arr items => (argumentsFrom 0 items).map some
  | _ => .refuse .notList

/-- Reads the type arguments from index `i` on. -/
def argumentsFrom (i : Nat) : List Json → Checked (List Descriptor)
  | [] => .valid []
  | item :: rest => .cons i (ofJson item) (argumentsFrom (i + 1) rest)

end

/-- Reads descriptors one after the other; the issues of the first refused one are the answer. -/
def readEach : List Json → Checked (List Descriptor)
  | [] => .valid []
  | item :: rest =>
    match ofJson item with
    | .invalid issues => .invalid issues
    | .valid d => (readEach rest).map (d :: ·)

/-- Reads the type arguments of an unchecked descriptor, each as a descriptor of its own. -/
def uncheckedArguments : Option Json → Checked (Option (List Descriptor))
  | some (.arr items) => (readEach items).map some
  | none | some .null => .valid none
  | some _ => .refuse (.notObject model)

/-- The names of the parameters of an unchecked descriptor. -/
def uncheckedParameters : Option Json → List Text
  | some (.arr items) => items.map Json.shown
  | some (.obj members) => members.map Prod.fst
  | some (.str text) => text.points.map fun p => ⟨[p]⟩
  | _ => []

/-- The module of an unchecked descriptor: whatever is given names one. -/
def uncheckedModule : Option Json → Option Text
  | none | some .null => none
  | some value => some value.shown

/-- Reads the outermost descriptor without its rules: any value is a kind, under the text that shows
it, and any number of arguments will do. The descriptors in it are read as usual. -/
def ofJsonUnchecked : Json → Checked Descriptor
  | .obj members =>
    let text (key : Text) : Text := ((Json.member? key members).map Json.shown).getD ""
    (uncheckedArguments (Json.member? "type_arguments" members)).map fun typeArguments =>
      { kind := .ofText (text "kind")
        simpleName := text "simple_name"
        name := text "name"
        moduleName := uncheckedModule (Json.member? "module_name" members)
        typeArguments := typeArguments
        typeParameters := uncheckedParameters (Json.member? "type_parameters" members)
        isVariable := ((Json.member? "is_variable" members).map Json.holds).getD false }
  | _ => .refuse (.notObject model)

/-! ## Writing -/

mutual

/-- The seven fields of a descriptor. -/
def toJson : Descriptor → Json
  | ⟨kind, simpleName, name, moduleName, typeArguments, typeParameters, isVariable⟩ =>
    .obj [
      ("kind", .str kind.text),
      ("simple_name", .str simpleName),
      ("name", .str name),
      ("module_name", (moduleName.map Json.str).getD .null),
      ("type_arguments", argumentsToJson typeArguments),
      ("type_parameters", .arr (typeParameters.map .str)),
      ("is_variable", .bool isVariable)]

/-- Type arguments, or `null`. -/
def argumentsToJson : Option (List Descriptor) → Json
  | none => .null
  | some items => .arr (itemsToJson items)

/-- A list of descriptors. -/
def itemsToJson : List Descriptor → List Json
  | [] => []
  | d :: rest => d.toJson :: itemsToJson rest

end

end Descriptor

end HostDecl
