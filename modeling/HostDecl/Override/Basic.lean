import HostDecl.Validation

/-!
# Overrides of methods

An override replaces the argument list of a method, its return type, or both. A document gives it as an
object, or as a bare text that replaces the argument list only.
-/

namespace HostDecl

/-- What a document says about one method. -/
structure MethodOverride where
  /-- The replacement of the argument list. -/
  arguments : Option Text
  /-- The replacement of the return type. -/
  returnType : Option Text
  /-- Whether the document gives it as an object. -/
  fromObject : Bool
  deriving DecidableEq, Repr

namespace MethodOverride

/-- The name of the model in reports. -/
def model : String := "OverrideEntry"

/-- The override that a bare text is. -/
def ofArguments (arguments : Option Text) : MethodOverride := ⟨arguments, none, false⟩

/-- Reads a bare text. -/
def ofBareJson (value : Json) : Checked MethodOverride :=
  ((Json.readOptional Json.readText value).under (.key "args")).map ofArguments

/-- Reads the members of an object. The return type goes by `return`, or by `return_type` where
`return` is absent. -/
def ofMembers (members : List (Text × Json)) : Checked MethodOverride :=
  ((Json.optional "args" none (Json.readOptional Json.readText) members).map
    fun arguments returnType => (⟨arguments, returnType, true⟩ : MethodOverride)).ap
    (Json.optionalEither "return" "return_type" none (Json.readOptional Json.readText) members)

/-- Reads an object. -/
def ofJson : Json → Checked MethodOverride
  | .obj members => ofMembers members
  | _ => .refuse (.notObject model)

end MethodOverride

end HostDecl
