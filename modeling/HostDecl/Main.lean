import HostDecl.Command.Files
import HostDecl.Diagnostic.Moment
import HostDecl.Diagnostic.Table
import Std.Time.Zoned

/-!
# The program

Fetches what a command may look at from the real disk, runs it, and carries out what it changed. All
decisions are taken by the command; this module only reads and writes.
-/

namespace HostDecl.Program

/-- How the program is used. -/
def usage : String :=
  "Usage: COMMAND [ARGUMENTS]\n\n" ++
  "  translate FILE [--session|-s] [--base|-b PATH]\n" ++
  "  escape IDENTIFIER...\n" ++
  "  scope MODULE GROUP\n" ++
  "  override TYPE METHOD [--dir|-d PATH]\n" ++
  "  logs show [--lines|-n N] [--event|-e EVENT] [--base|-b PATH]\n" ++
  "  logs summary [--base|-b PATH]\n" ++
  "  logs clear [--force|-f] [--base|-b PATH]\n"

/-- The text of a location. -/
def locationText (place : Location) : String := "/" ++ "/".intercalate place.names.reverse

/-- What stands at a location of the real disk, inside a directory that is there. -/
def fetchNode (place : Location) : IO (Option Node) := do
  try
    return some (.file (← IO.FS.readBinFile (locationText place)))
  catch
    | .inappropriateType .. => return some .directory
    | _ => return none

/-- Fetches one location, inside a directory that was fetched. -/
def fetch (d : Disk) (place : Location) : IO Disk := do
  match d.node? place, d.node? place.parent with
  | none, some .directory =>
    match ← fetchNode place with
    | some node => return d.put place node
    | none => return d
  | _, _ => return d

/-- Fetches every location on the way of a path. -/
def fetchPath (d : Disk) (p : Path) : IO Disk := do
  let mut disk := d
  let mut place := d.base p
  for part in p.parts do
    place := if part = ".." then place.parent else place.child part
    disk ← fetch disk place
  return disk

/-- Fetches paths. -/
def fetchPaths (d : Disk) (paths : List Path) : IO Disk := paths.foldlM fetchPath d

/-- Carries out on the real disk what turned one disk into another. -/
def store (before after : Disk) : IO Unit := do
  for (place, node) in after.nodes do
    match node, before.node? place with
    | .directory, none => IO.FS.createDir (locationText place)
    | .file content, some (.file old) =>
      if content != old then IO.FS.writeBinFile (locationText place) content
    | .file content, _ => IO.FS.writeBinFile (locationText place) content
    | .directory, some _ => pure ()
  for (place, _) in before.nodes do
    if (after.node? place).isNone then IO.FS.removeFile (locationText place)

/-- The variables with the given names that are set. -/
def fetchVariables (names : List String) : IO Variables :=
  names.filterMapM fun name => do return (← IO.getEnv name).map fun value => (name, value)

/-- The time, as diagnostics are stamped with it. It is read once for a run. -/
def now : IO String := do
  let t ← Std.Time.PlainDateTime.now
  let moment : Moment :=
    ⟨⟨t.date.year.toNat, t.date.month.val.toNat, t.date.day.val.toNat⟩,
      ⟨t.time.hour.val.toNat, t.time.minute.val.toNat, t.time.second.val.toNat,
        t.time.nanosecond.val.toNat / 1000⟩⟩
  return moment.text

/-- The text on standard input, where a command asks for it. -/
def inputOf : Command → IO String
  | .clearLog false _ => do return (← (← IO.getStdin).readToEnd)
  | _ => return ""

/-- Runs a command on the real disk. -/
def run (command : Command) : IO UInt32 := do
  let working := (Path.ofText (toString (← IO.currentDir))).parts.reverse
  let home := Path.ofText (toString (← IO.appDir))
  let bare : Disk := ⟨[], .ofNames working⟩
  let workspace : Workspace := ⟨← fetchPaths bare [⟨1, working.reverse⟩, home], home⟩
  let workspace := { workspace with
    disk := ← fetchPaths workspace.disk workspace.variablePaths }
  let time ← now
  let surroundings : Surroundings :=
    ⟨workspace, ← fetchVariables workspace.variableNames, .new false, fun _ => time, ← inputOf command,
      Table.console⟩
  let disk ← fetchPaths workspace.disk (command.paths surroundings)
  let finished := command.run { surroundings with workspace := { workspace with disk := disk } }
  store disk finished.disk
  IO.print finished.outcome.output
  IO.eprint finished.outcome.errors
  match finished.outcome.fault with
  | some fault => IO.eprintln fault.message.spelled
  | none => pure ()
  return finished.outcome.exitCode.toUInt32

end HostDecl.Program

/-- Reads the command line and runs the command that it names. -/
def main (arguments : List String) : IO UInt32 := do
  match HostDecl.Command.ofArguments? arguments with
  | some command => HostDecl.Program.run command
  | none =>
    IO.eprint HostDecl.Program.usage
    return 2
