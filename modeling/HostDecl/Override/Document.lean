import HostDecl.Override.Basic
import HostDecl.Json.Reader

/-!
# Override documents

The document of a type is a JSON object with an entry for each method. It is read as a whole: one
faulty entry refuses the document, and the first one in the order of the document is named.
-/

namespace HostDecl

/-- The entries of a document, by method. -/
abbrev OverrideTable := List (Text × MethodOverride)

/-- What the name of a type's document ends in. -/
def overrideSuffix : String := ".override.json"

/-- The name of a type's document. -/
def documentName (typeName : String) : String := typeName ++ overrideSuffix

/-- Why a document is refused. -/
inductive OverrideFault where
  /-- The text is no JSON. -/
  | notJson (document : String) (fault : Json.SyntaxFault) (line column position : Nat)
  /-- The text goes beyond a limit. -/
  | beyond (limit : Json.LimitFault)
  /-- The value is no object. -/
  | notObject (document : String)
  /-- The value of a method is no entry; its issues. -/
  | invalidEntry (document : String) (method : Text) (issues : List Issue)
  /-- The value of a method is neither a text nor an object; the word for what it is. -/
  | wrongKind (document : String) (method : Text) (kind : String)
  deriving DecidableEq, Repr

/-- The wording of a refusal. The issues of an entry are worded elsewhere; `report` stands for
them. -/
def OverrideFault.message (report : List Issue → Text) : OverrideFault → Text
  | .notJson document fault line column position =>
    "Malformed override document " ++ document ++ ": " ++
      (Json.ReadFault.malformed fault line column position).message
  | .beyond limit => limit.message
  | .notObject document => "Malformed override document " ++ document ++ ": expected an object"
  | .invalidEntry document method issues =>
    "Malformed override for " ++ method ++ " in " ++ document ++ ": " ++ report issues
  | .wrongKind document method kind =>
    "Malformed override for " ++ method ++ " in " ++ document ++
      ": expected a string or object, got " ++ kind

namespace OverrideTable

/-- Reads the value of one method. -/
def entryOf (document : String) (method : Text) (value : Json) : Except OverrideFault MethodOverride :=
  match value with
  | .str text => .ok (.ofArguments (some text))
  | .obj members =>
    match MethodOverride.ofMembers members with
    | .valid entry => .ok entry
    | .invalid issues => .error (.invalidEntry document method issues)
  | value => .error (.wrongKind document method value.kindWord)

/-- Reads the members of a document. -/
def ofMembers (document : String) : List (Text × Json) → Except OverrideFault OverrideTable
  | [] => .ok []
  | (method, value) :: rest =>
    match entryOf document method value with
    | .error fault => .error fault
    | .ok entry =>
      match ofMembers document rest with
      | .error fault => .error fault
      | .ok table => .ok ((method, entry) :: table)

/-- Reads the value of a document. -/
def ofJson (document : String) : Json → Except OverrideFault OverrideTable
  | .obj members => ofMembers document members
  | _ => .error (.notObject document)

/-- Reads the text of a type's document. -/
def ofText (typeName text : String) : Except OverrideFault OverrideTable :=
  match Json.parse text with
  | .error (.malformed fault line column position) =>
    .error (.notJson (documentName typeName) fault line column position)
  | .error (.beyond limit) => .error (.beyond limit)
  | .ok value => ofJson (documentName typeName) value

end OverrideTable

end HostDecl
