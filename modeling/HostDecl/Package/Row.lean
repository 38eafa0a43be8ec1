import HostDecl.Validation

/-!
# Rows of the package table

A row says how the modules of a group are named as packages: their scope, a prefix by which modules
are recognised and which may be stripped, and an explicit name for one module. Scopes are kept in
the form `@scope/`, however they were written.
-/

namespace HostDecl

/-- A scope in its kept form: empty, or from an at sign to a slash. -/
def normalScope (scope : Text) : Text :=
  if scope = "" then ""
  else
    let start := if scope.points.head? = some (.char '@') then scope else "@" ++ scope
    if start.points.getLast? = some (.char '/') then start else start ++ "/"

/-- A row of the package table. -/
structure PackageRow where
  /-- The group whose modules the row is about. -/
  group : Text
  /-- The scope of their packages. -/
  scope : Text
  /-- The beginning of the module names that the row derives a name for. -/
  modulePrefix : Option Text
  /-- Whether that beginning is left out of the name. -/
  stripsPrefix : Bool
  /-- The module that gets an explicit name. -/
  moduleName : Option Text
  /-- The explicit name. -/
  packageName : Option Text
  deriving DecidableEq, Repr

namespace PackageRow

/-- The name of the model in reports. -/
def model : String := "RegistryEntry"

/-- Reads a scope into its kept form. -/
def readScope (value : Json) : Checked Text := (Json.readText value).map normalScope

/-- Reads a row. -/
def ofJson : Json → Checked PackageRow
  | .obj members =>
    ((((((Json.required "group" Json.readText members).map mk).ap
      (Json.optional "scope" "" readScope members)).ap
      (Json.optional "prefix" none (Json.readOptional Json.readText) members)).ap
      (Json.optionalEither "stripPrefix" "strip_prefix" false Json.readBool members)).ap
      (Json.optional "module" none (Json.readOptional Json.readText) members)).ap
      (Json.optional "name" none (Json.readOptional Json.readText) members)
  | _ => .refuse (.notObject model)

/-- The fields of a row. -/
def toJson (e : PackageRow) : Json :=
  let text (t : Option Text) : Json := (t.map Json.str).getD .null
  .obj [
    ("group", .str e.group),
    ("scope", .str e.scope),
    ("prefix", text e.modulePrefix),
    ("strip_prefix", .bool e.stripsPrefix),
    ("module", text e.moduleName),
    ("name", text e.packageName)]

end PackageRow

/-- A host module. -/
structure HostModule where
  /-- The name of the module. -/
  name : Text
  /-- The group that it belongs to. -/
  group : Text
  deriving DecidableEq, Repr

namespace HostModule

/-- The name of the model in reports. -/
def model : String := "ModuleInfo"

/-- Reads a module. -/
def ofJson : Json → Checked HostModule
  | .obj members =>
    ((Json.required "name" Json.readText members).map mk).ap
      (Json.required "group_package" Json.readText members)
  | _ => .refuse (.notObject model)

end HostModule

end HostDecl
