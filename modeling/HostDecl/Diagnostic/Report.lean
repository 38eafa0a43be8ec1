import HostDecl.Text.Basic

/-!
# Reports

What the typing of a host type, or the rendering of a link, has to say besides its result: an event
and the name it concerns.
-/

namespace HostDecl

/-- One report. -/
structure Report where
  /-- The event. -/
  event : String
  /-- The name of what it concerns. -/
  detail : Text
  deriving DecidableEq, Repr

namespace Report

/-- A host type without a TypeScript counterpart. -/
def unmappedType : String := "unmapped-type"

/-- A kind that is not listed. -/
def unhandledKind : String := "unhandled-kind"

/-- A link to a kind of element that has no rendering. -/
def unhandledLinkKind : String := "unhandled-link-kind"

/-- The line that announces a report. -/
def line (r : Report) : Text := "[" ++ r.event ++ "] " ++ r.detail ++ "\n"

end Report

end HostDecl
