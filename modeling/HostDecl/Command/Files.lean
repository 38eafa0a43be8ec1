import HostDecl.Command.Run

/-!
# The files of a command

Which paths a command may look at or change, so that a program that runs it on a real disk knows
what to fetch before and what to compare after.
-/

namespace HostDecl

/-- The paths of the log below a base directory. -/
def logPaths (base : String) : List Path :=
  let base := Path.ofText base
  [logDirectory base, logFile base, logBackup base]

/-- The paths at which a file of variables is looked for. -/
def Workspace.variablePaths (w : Workspace) : List Path :=
  [Path.here.child envFileName, w.home.child envFileName]

/-- The names behind the marks of references in a text. -/
def referencedNames : List Char → List String
  | '$' :: '\x7b' :: rest =>
    String.ofList (rest.takeWhile fun c => c != '\x7d' && c != ':') :: referencedNames rest
  | _ :: rest => referencedNames rest
  | [] => []

/-- The variables of the environment that a run may look at, once the files of variables are
known. -/
def Workspace.variableNames (w : Workspace) : List String :=
  let referenced :=
    match w.disk.readText (w.home.child envFileName) with
    | .ok text => referencedNames text.toList
    | .error _ => []
  [Settings.baseDirVariable, Settings.packageRowsVariable, Settings.optionalDependenciesVariable,
    Settings.classBlacklistVariable, Settings.diagnosticsLogVariable,
    envFileDisabledVariable] ++ referenced

/-- The paths that a command may look at or change, once the files of variables are known. -/
def Command.paths (s : Surroundings) : Command → List Path
  | .translate file _ base => .ofText file :: logPaths base
  | .escape _ | .scope _ _ => []
  | .override typeName _ directory =>
    match overrideDirectory s directory with
    | .ok (base, _) => [base.join (.ofText (documentName typeName))]
    | .error _ => []
  | .showLog _ _ base | .summarizeLog base | .clearLog _ base => logPaths base

end HostDecl
