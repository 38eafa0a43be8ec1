import HostDecl.Disk.Basic
import HostDecl.Json.Reader

/-!
# Side files

Text files beside the module sources: JSON documents, and optional files whose text is included in
generated output with a blank line behind it.
-/

namespace HostDecl

/-- Why the text of a file cannot be had. -/
inductive TextFault where
  /-- The file cannot be read. -/
  | disk (fault : FileFault)
  /-- The bytes of the file are no text. -/
  | encoding (fault : Text.Utf8.Fault)
  deriving DecidableEq, Repr

/-- Why a JSON document cannot be had. -/
inductive DocumentFault where
  /-- The text cannot be had. -/
  | text (fault : TextFault)
  /-- The text is no JSON. -/
  | json (fault : Json.ReadFault)
  deriving DecidableEq, Repr

/-- The text behind the bytes of a file, with one kind of line end. -/
def textOfBytes (bytes : ByteArray) : Except Text.Utf8.Fault String :=
  match Text.Utf8.decode bytes with
  | .ok text => .ok (String.ofList (Text.unifyNewlines text.toList))
  | .error fault => .error fault

namespace Disk

/-- The text of the file at a path. -/
def readText (d : Disk) (p : Path) : Except TextFault String :=
  match d.readBytes p with
  | .error fault => .error (.disk fault)
  | .ok bytes =>
    match textOfBytes bytes with
    | .ok text => .ok text
    | .error fault => .error (.encoding fault)

/-- The text of a file is that of its bytes, with one kind of line end. -/
theorem readText_eq {d : Disk} {p : Path} {bytes : ByteArray} (held : d.readBytes p = .ok bytes) :
    d.readText p = match Text.Utf8.decode bytes with
      | .ok text => .ok (String.ofList (Text.unifyNewlines text.toList))
      | .error fault => .error (.encoding fault) := by
  rw [readText, held]
  dsimp only
  rw [textOfBytes]
  cases Text.Utf8.decode bytes <;> rfl

/-- The JSON value in the file at a path. -/
def jsonValue (d : Disk) (p : Path) : Except DocumentFault Json :=
  match d.readText p with
  | .error fault => .error (.text fault)
  | .ok text =>
    match Json.parse text with
    | .ok value => .ok value
    | .error fault => .error (.json fault)

end Disk

/-- The text with a blank line behind it; nothing stays nothing. -/
def withBlankLine (text : List Char) : List Char :=
  if text = [] then [] else if text.getLast? = some '\n' then text ++ ['\n'] else text ++ ['\n', '\n']

/-- The text of an optional file for inclusion; nothing if there is no such file. -/
def Disk.sideText (d : Disk) (base : Path) (file : String) : Except TextFault String :=
  let p := base.join (.ofText file)
  match d.pathExists p with
  | .error fault => .error (.disk fault)
  | .ok false => .ok ""
  | .ok true =>
    match d.readText p with
    | .ok text => .ok (String.ofList (withBlankLine text.toList))
    | .error fault => .error fault

end HostDecl
