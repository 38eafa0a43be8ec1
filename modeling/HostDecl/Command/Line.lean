import HostDecl.Command.Options
import HostDecl.Text.WholeNumber

/-!
# The command line

Which commands there are, with their arguments and options.
-/

namespace HostDecl

/-- A command. -/
inductive Command where
  /-- Writes the TypeScript types of the descriptors of a file. -/
  | translate (file : String) (session : Bool) (base : String)
  /-- Escapes identifiers. -/
  | escape (identifiers : List String)
  /-- Names the package of a module. -/
  | scope (moduleName group : String)
  /-- Shows the override of a method. -/
  | override (typeName method : String) (directory : Option String)
  /-- Shows the diagnostics that were logged last. -/
  | showLog (lines : Int) (event : String) (base : String)
  /-- Counts the diagnostics that were logged. -/
  | summarizeLog (base : String)
  /-- Removes the log. -/
  | clearLog (force : Bool) (base : String)
  deriving DecidableEq, Repr

namespace Command

/-- A path as an argument: a text with a zero character is none. -/
def path? (text : String) : Option String :=
  if text.toList.contains '\x00' then none else some text

/-- The option for the base directory of the log. -/
def baseOption : OptionSpec := ⟨"base", 'b', true⟩

/-- The base directory of the log, the working directory by default. -/
def baseOf? (a : Arguments) : Option String := path? ((a.value? "base").getD ".")

/-- Reads the arguments of `translate`. -/
def readTypes (arguments : List String) : Option Command := do
  let a ← readArguments [⟨"session", 's', false⟩, baseOption] none arguments
  match a.positional with
  | [file] => return .translate (← path? file) (a.has "session") (← baseOf? a)
  | _ => none

/-- Reads the arguments of `escape`. -/
def readEscape (arguments : List String) : Option Command := do
  let a ← readArguments [] none arguments
  if a.positional.isEmpty then none else return .escape a.positional

/-- Reads the arguments of `scope`. -/
def readScope (arguments : List String) : Option Command := do
  let a ← readArguments [] none arguments
  match a.positional with
  | [moduleName, group] => return .scope moduleName group
  | _ => none

/-- Reads the arguments of `override`. -/
def readOverride (arguments : List String) : Option Command := do
  let a ← readArguments [⟨"dir", 'd', true⟩] none arguments
  match a.positional, a.value? "dir" with
  | [typeName, method], none => return .override typeName method none
  | [typeName, method], some text => return .override typeName method (some (← path? text))
  | _, _ => none

/-- Reads the arguments of `logs show`. -/
def readShow (arguments : List String) : Option Command := do
  let a ← readArguments [⟨"lines", 'n', true⟩, ⟨"event", 'e', true⟩, baseOption] none arguments
  let lines ← Text.wholeNumber? ((a.value? "lines").getD "50")
  if a.positional.isEmpty then
    return .showLog lines ((a.value? "event").getD "") (← baseOf? a)
  else none

/-- Reads the arguments of `logs summary`. -/
def readSummary (arguments : List String) : Option Command := do
  let a ← readArguments [baseOption] none arguments
  if a.positional.isEmpty then return .summarizeLog (← baseOf? a) else none

/-- Reads the arguments of `logs clear`. -/
def readClear (arguments : List String) : Option Command := do
  let a ← readArguments [⟨"force", 'f', false⟩, baseOption] none arguments
  if a.positional.isEmpty then return .clearLog (a.has "force") (← baseOf? a) else none

/-- Reads the arguments of `logs`. -/
def readLogs (arguments : List String) : Option Command :=
  match subcommand? arguments with
  | some ("show", rest) => readShow rest
  | some ("summary", rest) => readSummary rest
  | some ("clear", rest) => readClear rest
  | _ => none

/-- Reads a command line. Nothing for a usage error. -/
def ofArguments? (arguments : List String) : Option Command :=
  match subcommand? arguments with
  | some ("translate", rest) => readTypes rest
  | some ("escape", rest) => readEscape rest
  | some ("scope", rest) => readScope rest
  | some ("override", rest) => readOverride rest
  | some ("logs", rest) => readLogs rest
  | _ => none

end Command

end HostDecl
