import HostDecl.Doc.Link
import HostDecl.Text.Blank
import HostDecl.Text.Lines

/-!
# Documentation blocks

The parts of a documentation, texts and links, are written one after the other; the text they make
is put into a comment line by line. The comment depends on nothing but that text and the margin.
-/

namespace HostDecl

/-- A piece of documentation. -/
inductive DocPart where
  /-- Text. -/
  | text (value : Text)
  /-- A link. -/
  | link (target : LinkTag)

namespace DocPart

/-- Reads a part: a text, or else a link. -/
def ofJson : Json → Checked DocPart
  | .str value => .valid (.text value)
  | value => (LinkTag.ofJson value).map .link

/-- The text of a part; a dropped link has none. -/
def flat : DocPart → Text
  | .text value => value
  | .link target => target.render.getD ""

/-- What a part reports. -/
def reports : DocPart → List Report
  | .text _ => []
  | .link target => target.reports

end DocPart

/-- The text that parts make. -/
def flatten (parts : List DocPart) : Text := Text.join (parts.map DocPart.flat)

/-- A line of text as a line of a comment, without blanks at its end. -/
def docLine (margin line : Text) : Text :=
  if line = "" then margin ++ " *" else (margin ++ " * " ++ line).trimmedEnd

/-- The lines of the comment for a text. -/
def docLines (margin text : Text) : List Text :=
  (margin ++ "/**") :: (text.lines.map (docLine margin) ++ [margin ++ " */"])

/-- The comment for a text. -/
def docBlock (margin text : Text) : Text := Text.intercalate "\n" (docLines margin text) ++ "\n"

/-- The comment for parts; nothing for an element without documentation. -/
def docComment (parts : Option (List DocPart)) (margin : Text) : Text :=
  match parts with
  | none => ""
  | some parts => docBlock margin (flatten parts)

/-- What the parts of a documentation report. -/
def docReports (parts : Option (List DocPart)) : List Report :=
  (parts.getD []).flatMap DocPart.reports

end HostDecl
