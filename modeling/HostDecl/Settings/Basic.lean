import HostDecl.Disk.Path
import HostDecl.Json.Reader
import HostDecl.Package.Naming
import HostDecl.Settings.Variables

/-!
# Settings

The settings come from five variables. Three of them hold JSON arrays: an absent or empty one is an
empty array. The first of the three that holds no array is the fault; only if all hold arrays are
their items validated, and then every issue in them is reported.
-/

namespace HostDecl

/-- The settings of a run. -/
structure Settings where
  /-- The directory of the override documents; none for the working directory. -/
  baseDir : Option Path
  /-- The rows of the package table. -/
  rows : List PackageRow
  /-- The optional dependencies. -/
  optional : List Text
  /-- The classes that are left out. -/
  leftOut : List Text
  /-- Whether diagnostics are written to the log. -/
  logs : Bool
  deriving DecidableEq, Repr

/-- Why there are no settings. -/
inductive SettingsFault where
  /-- A variable is no JSON. -/
  | notJson (name : String) (fault : Json.SyntaxFault) (line column position : Nat)
  /-- The text of a variable goes beyond a limit. -/
  | beyond (limit : Json.LimitFault)
  /-- A variable is no array. -/
  | notArray (name : String)
  /-- The items of the arrays are not valid. -/
  | invalid (issues : List Issue)
  deriving DecidableEq, Repr

namespace Settings

/-- The name of the model in reports. -/
def model : String := "GeneratorConfig"

/-- The variable of the base directory. -/
def baseDirVariable : String := "TSDECL_BASEDIR"

/-- The variable of the package table. -/
def packageRowsVariable : String := "TSDECL_SCOPE_REGISTRY"

/-- The variable of the optional dependencies. -/
def optionalDependenciesVariable : String := "TSDECL_OPTIONAL_DEPENDENCIES"

/-- The variable of the classes left out. -/
def classBlacklistVariable : String := "TSDECL_CLASS_BLACKLIST"

/-- The variable that turns the log on. -/
def diagnosticsLogVariable : String := "TSDECL_DIAGNOSTICS_LOG"

/-- The words that turn the log on. -/
def onWords : List String := ["1", "true", "yes"]

/-- The array in a variable. -/
def arrayIn (vars : Variables) (name : String) : Except SettingsFault (List Json) :=
  match vars.value? name with
  | none => .ok []
  | some text =>
    if text = "" then .ok []
    else
      match Json.parse text with
      | .error (.malformed fault line column position) =>
        .error (.notJson name fault line column position)
      | .error (.beyond limit) => .error (.beyond limit)
      | .ok (.arr items) => .ok items
      | .ok _ => .error (.notArray name)

/-- The items of an array, under the name of its field. -/
def field {α : Type} (name : String) (read : Json → Checked α) (items : List Json) :
    Checked (List α) :=
  (Json.readItems read 0 items).under (.key name)

/-- The settings of three arrays and two plain variables. -/
def ofArrays (baseDir : Option Path) (logs : Bool)
    (rows dependencies blacklist : List Json) : Checked Settings :=
  (((field "scope_registry" PackageRow.ofJson rows).map
    fun rows dependencies blacklist =>
      (⟨baseDir, rows, dependencies, blacklist, logs⟩ : Settings)).ap
    (field "optional_dependencies" Json.readText dependencies)).ap
    (field "class_blacklist" Json.readText blacklist)

/-- The base directory that the variables name. -/
def baseDirIn (vars : Variables) : Option Path :=
  match vars.value? baseDirVariable with
  | none => none
  | some text => if text = "" then none else some (.ofText text)

/-- Whether the variables turn the log on. -/
def diagnosticsLogIn (vars : Variables) : Bool :=
  Text.asciiLower ((vars.value? diagnosticsLogVariable).getD "") ∈ onWords

/-- The settings that the variables make. -/
def ofVariables (vars : Variables) : Except SettingsFault Settings :=
  match arrayIn vars packageRowsVariable with
  | .error fault => .error fault
  | .ok rows =>
    match arrayIn vars optionalDependenciesVariable with
    | .error fault => .error fault
    | .ok dependencies =>
      match arrayIn vars classBlacklistVariable with
      | .error fault => .error fault
      | .ok blacklist =>
        match ofArrays (baseDirIn vars) (diagnosticsLogIn vars) rows dependencies blacklist with
        | .valid settings => .ok settings
        | .invalid issues => .error (.invalid issues)

/-- The naming of packages that the settings ask for. -/
def packages (s : Settings) : PackageRules :=
  ⟨s.rows, s.optional, s.leftOut⟩

end Settings

/-- The wording of a fault. The issues are worded elsewhere; `report` stands for them. -/
def SettingsFault.message (report : List Issue → Text) : SettingsFault → Text
  | .notJson name fault line column position =>
    name ++ " is not valid JSON: " ++ (Json.ReadFault.malformed fault line column position).message
  | .beyond limit => limit.message
  | .notArray name => name ++ " must be a JSON array"
  | .invalid issues => report issues

end HostDecl
