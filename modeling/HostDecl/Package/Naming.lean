import HostDecl.Package.Row

/-!
# Package names

The rows of a module's group are applied in order: each sets the scope, and each that derives a name
sets the name. So scope and name come from the last row that has a say, not always from the same
one. Within a row an explicit name counts before the prefix.
-/

namespace HostDecl

/-- How packages are named, which are optional, and which classes are left out. -/
structure PackageRules where
  /-- The rows, in the order in which they are applied. -/
  rows : List PackageRow
  /-- The optional dependencies. -/
  optional : List Text
  /-- The classes that are left out. -/
  leftOut : List Text

/-- The name that a row derives from a module by its prefix; empty for none. -/
def PackageRow.prefixName (e : PackageRow) (moduleName : Text) : Text :=
  match e.modulePrefix with
  | none => ""
  | some start =>
    if start.points.isPrefixOf moduleName.points then
      if e.stripsPrefix then ⟨moduleName.points.drop start.points.length⟩ else moduleName
    else ""

/-- The explicit name that a row has for a module; empty for none. -/
def PackageRow.explicitName (e : PackageRow) (moduleName : Text) : Text :=
  match e.moduleName, e.packageName with
  | some own, some name => if own = moduleName then name else ""
  | _, _ => ""

/-- The name that a row derives from a module; empty for none. -/
def PackageRow.derivedName (e : PackageRow) (moduleName : Text) : Text :=
  if e.explicitName moduleName = "" then e.prefixName moduleName else e.explicitName moduleName

/-- A scope and a name. -/
structure Naming where
  /-- The scope so far. -/
  scope : Text
  /-- The name so far; empty for none. -/
  name : Text
  deriving DecidableEq, Repr

/-- Applies a row. -/
def Naming.step (m : HostModule) (n : Naming) (e : PackageRow) : Naming :=
  if e.group = m.group then
    let derived := e.derivedName m.name
    ⟨e.scope, if derived = "" then n.name else derived⟩
  else n

namespace PackageRules

/-- The package name of a module: the module's own name where no row derives one. -/
def packageName (r : PackageRules) (m : HostModule) : Text :=
  let n := r.rows.foldl (Naming.step m) ⟨"", ""⟩
  n.scope ++ if n.name = "" then m.name else n.name

/-- Whether a package is an optional dependency. -/
def isOptional (r : PackageRules) (name : Text) : Bool := name ∈ r.optional

/-- Whether a class is left out. -/
def leavesOut (r : PackageRules) (name : Text) : Bool := name ∈ r.leftOut

end PackageRules

end HostDecl
