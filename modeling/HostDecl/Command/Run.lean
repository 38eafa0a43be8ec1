import HostDecl.Command.Line
import HostDecl.Diagnostic.Log
import HostDecl.Diagnostic.Summary
import HostDecl.ImportLedger
import HostDecl.Override.Cache
import HostDecl.Settings.EnvFile
import HostDecl.Descriptor.TypeExpr
import HostDecl.Text.Terminal
import HostDecl.TypeScript.Reserved
import HostDecl.Validation.Report

/-!
# Running commands

A command runs on a workspace, with the variables of the environment, a channel for diagnostics, a
clock, the text on its standard input, and a console that draws tables. It answers with what it prints,
how it exits, and the disk and the channel afterwards. Faults that a command is not prepared for end it
where they arise; what it printed before stays printed.

What a command answers is echoed without escape sequences. A text with half of a surrogate pair cannot
be written to standard output; standard error spells the half.
-/

namespace HostDecl

/-- A fault that a command is not prepared for. -/
inductive Unprepared where
  /-- A file cannot be worked with. -/
  | disk (fault : FileFault)
  /-- The bytes of a file are no text. -/
  | encoding (fault : Text.Utf8.Fault)
  /-- A document goes beyond a limit. -/
  | beyond (limit : Json.LimitFault)
  /-- A type argument is missing. -/
  | argument (fault : ArgumentFault)
  /-- A text holds half of a surrogate pair. -/
  | unwritable
  /-- The console does not draw what it is handed. -/
  | undrawn (message : Text)
  deriving DecidableEq, Repr

/-- A fault of a text as one that a command is not prepared for. -/
def TextFault.unprepared : TextFault → Unprepared
  | .disk fault => .disk fault
  | .encoding fault => .encoding fault

/-- The wording of a fault that a command is not prepared for. -/
def Unprepared.message : Unprepared → Text
  | .disk fault => fault.message
  | .encoding fault => fault.message
  | .beyond limit => limit.message
  | .argument fault => fault.message
  | .unwritable => "half of a surrogate pair cannot be written"
  | .undrawn message => message

/-- What a command prints and how it ends. -/
structure Outcome where
  /-- The exit code. -/
  exitCode : Nat
  /-- The text on standard output. -/
  output : String
  /-- The text on standard error. -/
  errors : String
  /-- The fault that ended the command. -/
  fault : Option Unprepared
  deriving DecidableEq, Repr

/-- A text as it is echoed, on a line of its own. -/
def echoed (text : String) : String :=
  String.ofList (Text.withoutEscapes text.toList) ++ "\n"

namespace Outcome

/-- A command that did its work. -/
def done (output : String) : Outcome := ⟨0, output, "", none⟩

/-- A command that says why it does not do its work. -/
def refused (message : Text) : Outcome := ⟨1, "", echoed ("Error: " ++ message.spelled), none⟩

/-- A command that is ended by a fault. -/
def stopped (fault : Unprepared) : Outcome := ⟨1, "", "", some fault⟩

/-- A command that echoes texts, up to one that cannot be written. -/
def echo (texts : List Text) : Outcome :=
  let written := Text.writable texts
  let output := String.join (written.map echoed)
  if written.length = texts.length then done output else { stopped .unwritable with output := output }

/-- A command that ends with a drawing. -/
def drawn : Except Text String → Outcome
  | .ok drawing => done drawing
  | .error message => stopped (.undrawn message)

/-- The outcome behind warnings. -/
def warned (warnings : String) (o : Outcome) : Outcome := { o with errors := warnings ++ o.errors }

end Outcome

/-- A console draws a table from its rows, each with an event, a detail and a count. What it makes of
style marks, symbols, controls and tabs in a cell, how wide its tables may be, and which rows it does
not draw at all, is its own affair. -/
abbrev Console := List (String × String × Nat) → Except Text String

/-- Where and with what a command runs. -/
structure Surroundings where
  /-- The workspace. -/
  workspace : Workspace
  /-- The variables of the environment. -/
  environment : Variables
  /-- The channel for diagnostics. -/
  channel : Channel
  /-- What the clock shows at each reading during the run, as a text. -/
  clock : Nat → String
  /-- The text on standard input. -/
  input : String
  /-- The console. -/
  console : Console

/-- The outcome of a command, and what it leaves behind. -/
structure Finished where
  /-- The outcome. -/
  outcome : Outcome
  /-- The disk afterwards. -/
  disk : Disk
  /-- The channel afterwards. -/
  channel : Channel

/-- An outcome that leaves everything as it was. -/
def Surroundings.finish (s : Surroundings) (outcome : Outcome) : Finished :=
  ⟨outcome, s.workspace.disk, s.channel⟩

/-- The settings of a run, and the warnings on the way to them. -/
structure Prepared where
  /-- The settings. -/
  settings : Settings
  /-- The warnings. -/
  warnings : String

/-- How a command ends without settings. -/
def SettingsFault.outcome : SettingsFault → Outcome
  | .beyond (.tooDeep isObject) => .stopped (.beyond (.tooDeep isObject))
  | fault => .refused (fault.message (issueReport Settings.model))

/-- The warnings about what was skipped. -/
def skippedWarnings (lines : List Nat) : String := String.join (lines.map skippedWarning)

/-- The settings of a run, from the variables and the file of variables; or how the command ends
without them. -/
def Surroundings.prepare (s : Surroundings) : Except Outcome Prepared :=
  match s.workspace.loadVariables s.environment with
  | .error (.text (.disk fault)) => .error (.stopped (.disk fault))
  | .error (.text (.encoding fault)) => .error (.refused fault.message)
  | .error (.unsettable fault skipped) =>
    .error ((Outcome.refused fault.message).warned (skippedWarnings skipped))
  | .ok loaded =>
    match Settings.ofVariables loaded.environment with
    | .ok settings => .ok ⟨settings, skippedWarnings loaded.skipped⟩
    | .error fault => .error (fault.outcome.warned (skippedWarnings loaded.skipped))

/-! ## Types -/

/-- Reads one descriptor or an array of them. -/
def descriptorsOf : Json → Checked (List Descriptor)
  | .arr items => Json.readItems Descriptor.ofJson 0 items
  | value => (Descriptor.ofJson value).map fun d => [d]

/-- The name of what `descriptorsOf` reads, in reports. -/
def descriptorsModel : Json → String
  | .arr _ => "list[" ++ Descriptor.model ++ "]"
  | _ => Descriptor.model

/-- The descriptors of a file, or how the command ends without them. -/
def loadDescriptors (d : Disk) (file : Path) : Except Outcome (List Descriptor) :=
  let invalid (what : Text) : Outcome :=
    .refused ("invalid descriptor file " ++ file.text ++ ": " ++ what)
  match d.jsonValue file with
  | .error (.text fault) => .error (.stopped fault.unprepared)
  | .error (.json (.beyond limit)) => .error (.stopped (.beyond limit))
  | .error (.json fault) => .error (invalid fault.message)
  | .ok value =>
    match descriptorsOf value with
    | .valid descriptors => .ok descriptors
    | .invalid issues => .error (invalid (issueReport (descriptorsModel value) issues))

/-- The word for the import status of a type. -/
def statusWord (visible : Bool) : String := if visible then "visible" else "import"

/-- What writing the types of descriptors leads to. -/
structure TypeRun where
  /-- The lines written. -/
  lines : List String
  /-- What was reported. -/
  reports : List Report
  /-- The fault that ended it. -/
  fault : Option Unprepared

/-- Writes the types of descriptors one after the other, up to one that cannot be written; in a
session each with whether it is visible when its turn comes. -/
def writeTypes (session : Bool) (s : ImportLedger Unit) : List Descriptor → TypeRun
  | [] => ⟨[], [], none⟩
  | d :: rest =>
    match d.typeExpr with
    | .error fault => ⟨[], fault.reports, some (.argument fault.cause)⟩
    | .ok type =>
      let (visible, s) := s.refer () d
      let line := if session then type.render ++ "\t" ++ statusWord visible else type.render
      match line.string? with
      | none => ⟨[], type.reports, some .unwritable⟩
      | some line =>
        let more := writeTypes session s rest
        ⟨line :: more.lines, type.reports ++ more.reports, more.fault⟩

/-- Writes the types of the descriptors of a file. All of them are read before the first one is
written. -/
def runTypes (s : Surroundings) (file : String) (session : Bool) (base : String) : Finished :=
  let path := Path.ofText file
  match s.workspace.disk.pathExists path with
  | .error fault => s.finish (.stopped (.disk fault))
  | .ok false => s.finish (.refused (path.text ++ " not found"))
  | .ok true =>
    match s.prepare with
    | .error outcome => s.finish outcome
    | .ok prepared =>
      match loadDescriptors s.workspace.disk path with
      | .error outcome => s.finish (outcome.warned prepared.warnings)
      | .ok descriptors =>
        let types := writeTypes session .empty descriptors
        let output := String.join (types.lines.map echoed)
        let (echo, channel) := s.channel.reportAll s.clock types.reports
        let errors := prepared.warnings ++ echo.spelled
        match types.fault with
        | some fault => ⟨⟨1, output, errors, some fault⟩, s.workspace.disk, channel⟩
        | none =>
          if prepared.settings.logs then
            let written := channel.persist s.workspace.disk (.ofText base)
            match written.outcome with
            | .ok _ => ⟨⟨0, output, errors, none⟩, written.disk, written.channel⟩
            | .error fault =>
              ⟨⟨1, output, errors, some (.disk fault)⟩, written.disk, written.channel⟩
          else ⟨⟨0, output, errors, none⟩, s.workspace.disk, channel⟩

/-! ## Names -/

/-- Escapes identifiers. -/
def runEscape (identifiers : List String) : Outcome :=
  .echo (identifiers.map fun word => TypeScript.escapeReserved word)

/-- Names the package of a module. -/
def runScope (s : Surroundings) (moduleName group : String) : Outcome :=
  match s.prepare with
  | .error outcome => outcome
  | .ok ⟨settings, warnings⟩ =>
    (Outcome.echo [settings.packages.packageName ⟨moduleName, group⟩]).warned warnings

/-- The directory of the override documents, and the warnings on the way to it. -/
def overrideDirectory (s : Surroundings) (directory : Option String) :
    Except Outcome (Path × String) :=
  match directory with
  | some text => .ok (.ofText text, "")
  | none =>
    match s.prepare with
    | .error outcome => .error outcome
    | .ok ⟨settings, warnings⟩ => .ok (settings.baseDir.getD .here, warnings)

/-- How a command ends on a failed look-up. -/
def LookupFault.outcome : LookupFault → Outcome
  | .text (.disk fault) => .stopped (.disk fault)
  | .text (.encoding fault) => .refused fault.message
  | .document (.beyond (.tooDeep isObject)) => .stopped (.beyond (.tooDeep isObject))
  | .document fault => .refused (fault.message (issueReport MethodOverride.model))

/-- The lines that show an override. -/
def overrideLines (arguments returnType : Option Text) : List Text :=
  if arguments.isNone ∧ returnType.isNone then ["No override."]
  else
    ["args: " ++ arguments.getD "(default)", "return: " ++ returnType.getD "(default)"]

/-- Shows the override of a method whose documents are in a directory. -/
def showOverride (d : Disk) (base : Path) (typeName method : String) : Outcome :=
  match (OverrideCache.new base).arguments d typeName method with
  | .error fault => fault.outcome
  | .ok (arguments, cache) =>
    match cache.returnType d typeName method with
    | .error fault => fault.outcome
    | .ok (returnType, _) => .echo (overrideLines arguments returnType)

/-- Shows the override of a method. -/
def runOverride (s : Surroundings) (typeName method : String) (directory : Option String) :
    Outcome :=
  match overrideDirectory s directory with
  | .error outcome => outcome
  | .ok (base, warnings) =>
    (showOverride s.workspace.disk base typeName method).warned warnings

/-! ## The log -/

/-- What is printed where the log holds nothing to show. -/
def nothingFound : String := "No diagnostics found.\n"

/-- The last `n` items; all of them for zero, and for a negative number all but that many of the
first. -/
def recent {α : Type} (n : Int) (items : List α) : List α :=
  if 0 < n then items.drop (items.length - n.toNat) else items.drop n.natAbs

/-- The line that shows a diagnostic, its time to the second, laid out for a terminal. The time and
the event have a style. -/
def Diagnostic.shown (entry : Diagnostic) : String :=
  let line := Text.styled (entry.timestamp.toList.take 19) ++ ' ' ::
    Text.styled entry.event.toList ++ ' ' :: Text.unprotected entry.detail.spelled.toList
  String.ofList (Text.expandTabs (Text.withoutMovements line)) ++ "\n"

/-- Shows the diagnostics that were logged last, for one event or for all. -/
def runShow (d : Disk) (lines : Int) (event base : String) : Outcome :=
  match d.readLog (.ofText base) with
  | .error fault => .stopped fault.unprepared
  | .ok entries =>
    let matching := if event = "" then entries else entries.filter fun entry => entry.event == event
    if matching = [] then .done nothingFound
    else .done (String.join ((recent lines matching).map Diagnostic.shown))

/-- Counts the diagnostics that were logged, and hands the rows to the console. -/
def runSummary (s : Surroundings) (base : String) : Outcome :=
  match s.workspace.disk.readLog (.ofText base) with
  | .error fault => .stopped fault.unprepared
  | .ok entries =>
    if entries = [] then .done nothingFound
    else .drawn (s.console (Summary.ofDiagnostics entries).rows)

/-- The question that is asked before the log is removed. -/
def clearQuestion : String := "Clear all diagnostics? [y/N]: "

/-- The lines of an input. What is behind the last line feed is a line if there is anything. -/
def inputLines (text : String) : List String :=
  let lines := Text.splitLines (Text.unifyNewlines text.toList)
  let lines := if lines.getLast? = some [] then lines.dropLast else lines
  lines.map String.ofList

/-- The meaning of an answer. -/
def answer? (line : String) : Option Bool :=
  let word := String.ofList (Text.trim (Text.asciiLower line).toList)
  if word = "y" ∨ word = "yes" then some true
  else if word = "n" ∨ word = "no" ∨ word = "" then some false
  else none

/-- Asks until an answer is understood: what is printed, with the answers as they were typed, and
the answer. The end of the input is a no. -/
def confirm : List String → String × Bool
  | [] => (clearQuestion, false)
  | line :: rest =>
    let asked := clearQuestion ++ line ++ "\n"
    match answer? line with
    | some answer => (asked, answer)
    | none =>
      let (more, answer) := confirm rest
      (asked ++ "Error: invalid input\n" ++ more, answer)

/-- Removes the log. -/
def runClear (s : Surroundings) (force : Bool) (base : String) : Finished :=
  let file := logFile (.ofText base)
  match s.workspace.disk.pathExists file with
  | .error fault => s.finish (.stopped (.disk fault))
  | .ok false => s.finish (.done "No log file to clear.\n")
  | .ok true =>
    let (asked, confirmed) := if force then ("", true) else confirm (inputLines s.input)
    if confirmed then
      match s.workspace.disk.unlink file with
      | .error fault => s.finish { Outcome.stopped (.disk fault) with output := asked }
      | .ok disk => ⟨.done (asked ++ "Log file cleared.\n"), disk, s.channel⟩
    else s.finish ⟨1, asked, "Aborted.\n", none⟩

/-! ## All commands -/

/-- Runs a command. -/
def Command.run (s : Surroundings) : Command → Finished
  | .translate file session base => runTypes s file session base
  | .escape identifiers => s.finish (runEscape identifiers)
  | .scope moduleName group => s.finish (runScope s moduleName group)
  | .override typeName method directory => s.finish (runOverride s typeName method directory)
  | .showLog lines event base => s.finish (runShow s.workspace.disk lines event base)
  | .summarizeLog base => s.finish (runSummary s base)
  | .clearLog force base => runClear s force base

end HostDecl
