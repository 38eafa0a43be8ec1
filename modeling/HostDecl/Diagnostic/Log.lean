import HostDecl.Diagnostic.Channel
import HostDecl.SideFile
import HostDecl.Text.Blank

/-!
# The diagnostics log

Diagnostics are kept in a file below a base directory, a line for each. A file that has grown beyond
its limit is set aside before the next diagnostics are written, in place of the one set aside before.

A line has the time, the event and the detail between bars. Nothing is escaped: reading a line takes
its first two bars as the separators, after trimming it.
-/

namespace HostDecl

/-- The name of the directory of the log. -/
def logDirectoryName : String := ".tsdecl-logs"

/-- The name of the log file. -/
def logFileName : String := "diagnostics.log"

/-- The size in bytes beyond which the log is set aside: ten mebibytes. -/
def logSizeLimit : Nat := 10 * 1024 * 1024

/-- The number of bytes that are decoded at a time when the log is read. -/
def logBlockSize : Nat := 8192

/-- The directory of the log. -/
def logDirectory (base : Path) : Path := base.child logDirectoryName

/-- The log file. -/
def logFile (base : Path) : Path := (logDirectory base).child logFileName

/-- The log that was set aside. -/
def logBackup (base : Path) : Path := (logDirectory base).child (logFileName ++ ".1")

/-! ## Lines -/

/-- What stands between the fields of a line. -/
def fieldSeparator : List Char := [' ', '|', ' ']

/-- The line of a diagnostic. -/
def Diagnostic.line (entry : Diagnostic) : Text :=
  entry.timestamp ++ " | " ++ entry.event ++ " | " ++ entry.detail ++ "\n"

/-- Reads a line. Blank lines, and lines without a separator, hold no diagnostic; a line with one
separator has an empty detail. -/
def Diagnostic.ofLine? (line : List Char) : Option Diagnostic :=
  match Text.breakOn? fieldSeparator (Text.trim line) with
  | none => none
  | some (timestamp, rest) =>
    match Text.breakOn? fieldSeparator rest with
    | none => some ⟨String.ofList timestamp, String.ofList rest, ""⟩
    | some (event, detail) =>
      some ⟨String.ofList timestamp, String.ofList event, .ofChars detail⟩

/-- The diagnostics in the text of a log. -/
def diagnosticsOf (text : List Char) : List Diagnostic :=
  (Text.splitLines (Text.unifyNewlines text)).filterMap Diagnostic.ofLine?

/-- The lines that diagnostics are written as, up to one that cannot be written. -/
def linesOf (entries : List Diagnostic) : List String := Text.writable (entries.map Diagnostic.line)

/-! ## Writing -/

/-- The number of bytes of a file; a directory counts for nothing. -/
def Disk.fileSize (d : Disk) (p : Path) : Nat :=
  match d.readBytes p with
  | .ok content => content.size
  | .error _ => 0

/-- Sets the log aside if it has grown beyond its limit. The sizes are compared in bytes. Dividing them
by the bytes of a mebibyte first, in floating point, leads to the same answer for every size
(`lt_roundedMebibytes_iff`). -/
def Disk.rotateLog (d : Disk) (base : Path) : Except FileFault Disk :=
  if d.fileSize (logFile base) ≤ logSizeLimit then .ok d
  else
    match d.pathExists (logBackup base) with
    | .error fault => .error fault
    | .ok false => d.rename (logFile base) (logBackup base)
    | .ok true =>
      match d.unlink (logBackup base) with
      | .error fault => .error fault
      | .ok d => d.rename (logFile base) (logBackup base)

/-- What writing the log leads to. -/
structure Written where
  /-- The number of diagnostics written, or why none was. -/
  outcome : Except FileFault Nat
  /-- The disk afterwards. -/
  disk : Disk
  /-- The channel afterwards: empty, or as before where writing failed. -/
  channel : Channel

/-- Adds what a channel has collected to the log. -/
def Channel.persist (c : Channel) (d : Disk) (base : Path) : Written :=
  if c.entries = [] then ⟨.ok 0, d, c⟩
  else
    match d.makeDirectories (logDirectory base) with
    | (d, some fault) => ⟨.error fault, d, c⟩
    | (d, none) =>
      match d.rotateLog base with
      | .error fault => ⟨.error fault, d, c⟩
      | .ok rotated =>
        let lines := linesOf c.entries
        match rotated.append (logFile base) (String.join lines).toUTF8 with
        | .error fault => ⟨.error fault, rotated, c⟩
        | .ok grown =>
          if lines.length < c.entries.length then ⟨.error .unwritable, grown, c⟩
          else ⟨.ok c.entries.length, grown, c.clear⟩

/-! ## Reading -/

/-- The diagnostics in the log; none where there is no log. -/
def Disk.readLog (d : Disk) (base : Path) : Except TextFault (List Diagnostic) :=
  match d.pathExists (logFile base) with
  | .error fault => .error (.disk fault)
  | .ok false => .ok []
  | .ok true =>
    match d.readBytes (logFile base) with
    | .error fault => .error (.disk fault)
    | .ok bytes =>
      match Text.Utf8.decodeBlocks logBlockSize bytes with
      | .error fault => .error (.encoding fault)
      | .ok text => .ok (diagnosticsOf text.toList)

end HostDecl
