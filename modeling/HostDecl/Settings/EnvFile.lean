import HostDecl.Settings.Basic
import HostDecl.SideFile

/-!
# The file of variables

Variables may stand in a file named `.env`. The one in the home directory of the installation is read
if it is there, unless a variable forbids it. One in the working directory is only noticed. What is no
statement in the file is skipped with a warning.
-/

namespace HostDecl

/-- The name of the file of variables. -/
def envFileName : String := ".env"

/-- The variable that forbids reading files of variables. -/
def envFileDisabledVariable : String := "PYTHON_DOTENV_DISABLED"

/-- The words that forbid it. -/
def forbiddingWords : List String := ["1", "true", "t", "yes", "y"]

/-- Where the program runs: the disk, and the directory that the installation calls home. -/
structure Workspace where
  /-- The disk. -/
  disk : Disk
  /-- The home directory of the installation. -/
  home : Path

/-- What loading variables leads to. -/
structure Loaded where
  /-- Whether a file of variables was found. -/
  found : Bool
  /-- The lines of the file where something was skipped. -/
  skipped : List Nat
  /-- The variables afterwards. -/
  environment : Variables
  deriving DecidableEq, Repr

/-- Why variables cannot be loaded. -/
inductive LoadFault where
  /-- The text of the file cannot be had. -/
  | text (fault : TextFault)
  /-- A variable cannot be set; the lines of the file where something was skipped. -/
  | unsettable (fault : VariableFault) (skipped : List Nat)
  deriving DecidableEq, Repr

/-- The warning about a line where something was skipped. -/
def skippedWarning (line : Nat) : String :=
  "python-dotenv could not parse statement starting at line " ++ toString line ++ "\n"

namespace Variables

/-- Whether the variables forbid reading a file of variables. -/
def forbidFile (vars : Variables) : Bool :=
  Text.caseFolded ((vars.value? envFileDisabledVariable).getD "") ∈ forbiddingWords

/-- The variables with those of the text of a file. -/
def load (vars : Variables) (text : List Char) : Except LoadFault Loaded :=
  let statements := Statement.sequence text
  let skipped := (statements.filter fun entry => entry.2 = .faulty).map Prod.fst
  match vars.orElse (.ofStatements vars (statements.map Prod.snd)) with
  | .ok environment => .ok ⟨true, skipped, environment⟩
  | .error fault => .error (.unsettable fault skipped)

end Variables

/-- The variables with those of the file in the home directory. -/
def Workspace.loadHomeFile (w : Workspace) (vars : Variables) : Except LoadFault Loaded :=
  if vars.forbidFile then .ok ⟨true, [], vars⟩
  else
    match w.disk.readText (w.home.child envFileName) with
    | .error (.disk .isADirectory) => .ok ⟨true, [], vars⟩
    | .error fault => .error (.text fault)
    | .ok text => vars.load text.toList

/-- The variables with those of the file of variables. -/
def Workspace.loadVariables (w : Workspace) (vars : Variables) : Except LoadFault Loaded :=
  match w.disk.pathExists (w.home.child envFileName) with
  | .error fault => .error (.text (.disk fault))
  | .ok true => w.loadHomeFile vars
  | .ok false =>
    match w.disk.pathExists (Path.here.child envFileName) with
    | .error fault => .error (.text (.disk fault))
    | .ok found => .ok ⟨found, [], vars⟩

end HostDecl
