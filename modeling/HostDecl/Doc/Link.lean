import HostDecl.Descriptor.Basic
import HostDecl.Diagnostic.Report

/-!
# Links in documentation

A link points at a host type or at one of its elements. Data objects and generated enumerations link
to their reference page, classes, interfaces and methods become a marker that stays in the text.
Links to types outside of the modules are dropped in silence; links to other kinds of elements are
dropped and reported.
-/

namespace HostDecl

/-- The kind of element that a link points at. -/
inductive Element where
  /-- A class. -/
  | classType
  /-- An interface. -/
  | interface
  /-- A method. -/
  | method
  /-- A field. -/
  | field
  /-- A constructor. -/
  | constructor
  /-- A constant of an enumeration. -/
  | enumConstant
  /-- Any other element. -/
  | other
  deriving DecidableEq, Repr

namespace Element

/-- The kinds, in the order in which they are listed. -/
def all : List Element :=
  [.classType, .interface, .method, .field, .constructor, .enumConstant, .other]

/-- The text of a kind. -/
def text : Element → Text
  | .classType => "class"
  | .interface => "interface"
  | .method => "method"
  | .field => "field"
  | .constructor => "constructor"
  | .enumConstant => "enum_constant"
  | .other => "other"

/-- The kind with a text. -/
def ofText? (t : Text) : Option Element := all.find? fun kind => kind.text = t

/-- Reads a kind. -/
def ofJson : Json → Checked Element
  | .str t =>
    match ofText? t with
    | some kind => .valid kind
    | none => .refuse (.notListed (all.map text))
  | _ => .refuse (.notListed (all.map text))

end Element

/-- A link. -/
structure LinkTag where
  /-- The type that the link leads to. -/
  target : Descriptor
  /-- The text that the author gave the link. -/
  label : Text
  /-- The kind of the element. -/
  elementKind : Element
  /-- The name of the element. -/
  elementName : Text
  /-- Whether an enumeration is generated. -/
  isGeneratedEnum : Bool
  deriving Repr

/-- What becomes of a link. -/
inductive LinkForm where
  /-- Nothing: the type is outside of the modules. -/
  | dropped
  /-- A link to a reference page. -/
  | page (file : String)
  /-- A marker with a target. -/
  | marker (target : Text)
  /-- Nothing, and a report. -/
  | unsupported
  deriving DecidableEq, Repr

namespace LinkTag

/-- The name of the model in reports. -/
def model : String := "DocLink"

/-- Reads a link. -/
def ofJson : Json → Checked LinkTag
  | .obj members =>
    (((((Json.required "target" Descriptor.ofJson members).map mk).ap
      (Json.optional "label" "" Json.readText members)).ap
      (Json.optional "element_kind" .classType Element.ofJson members)).ap
      (Json.optional "element_name" "" Json.readText members)).ap
      (Json.optional "is_gen_enum" true Json.readBool members)
  | _ => .refuse (.notObject model)

/-- What becomes of a link. -/
def form (link : LinkTag) : LinkForm :=
  let name := link.target.bareSimpleName
  if link.target.moduleName.isNone then .dropped
  else if link.target.kind = .dataObject then .page "dataobjects"
  else if link.target.kind = .enumeration ∧ link.isGeneratedEnum then .page "enums"
  else match link.elementKind with
    | .classType | .interface => .marker name
    | .method => .marker (name ++ "#" ++ link.elementName)
    | _ => .unsupported

/-- The text of a link, if it is not dropped. -/
def render (link : LinkTag) : Option Text :=
  let name := link.target.bareSimpleName
  let label := Text.trimmed link.label
  match link.form with
  | .page file =>
    some ("<a href=\"../../" ++ file ++ ".html#" ++ name ++ "\">" ++
      (if label = "" then name else label) ++ "</a>")
  | .marker target =>
    let before : Text := if label = "" then "" else "[" ++ label ++ "] "
    some (before ++ "\x7b@link " ++ target ++ "\x7d")
  | .dropped | .unsupported => none

/-- What a link reports. -/
def reports (link : LinkTag) : List Report :=
  match link.form with
  | .unsupported =>
    [⟨Report.unhandledLinkKind, link.elementKind.text ++ " " ++ link.target.bareSimpleName⟩]
  | _ => []

end LinkTag

end HostDecl
