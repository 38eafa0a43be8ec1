import HostDecl.Override.Document
import HostDecl.SideFile

/-!
# The cache of overrides

A cache looks documents up in one directory. The first look-up of a type that does not fail keeps the
table of its document, and every later look-up of that type answers from the table kept; a failed
look-up keeps nothing.
-/

namespace HostDecl

/-- The tables kept for a directory. -/
structure OverrideCache where
  /-- The directory of the documents. -/
  base : Path
  /-- The tables kept, by type, in the order in which they were loaded. -/
  tables : List (String × OverrideTable)

/-- Why a look-up fails. -/
inductive LookupFault where
  /-- The text of the document cannot be had. -/
  | text (fault : TextFault)
  /-- The document is refused. -/
  | document (fault : OverrideFault)
  deriving DecidableEq, Repr

/-- The table of the document that is in a directory now. No document, and one of blanks only, is an
empty table. -/
def loadOverrides (d : Disk) (base : Path) (typeName : String) :
    Except LookupFault OverrideTable :=
  match d.sideText base (documentName typeName) with
  | .error fault => .error (.text fault)
  | .ok text =>
    if Text.allBlank text.toList then .ok []
    else
      match OverrideTable.ofText typeName text with
      | .ok table => .ok table
      | .error fault => .error (.document fault)

namespace OverrideCache

/-- A cache that has kept nothing yet. -/
def new (base : Path) : OverrideCache := ⟨base, []⟩

/-- The types whose tables are kept. -/
def keptTypes (c : OverrideCache) : List String := c.tables.map Prod.fst

/-- The table of a type, and the cache afterwards. -/
def table (c : OverrideCache) (d : Disk) (typeName : String) :
    Except LookupFault (OverrideTable × OverrideCache) :=
  match c.tables.lookup typeName with
  | some table => .ok (table, c)
  | none =>
    match loadOverrides d c.base typeName with
    | .ok table => .ok (table, { c with tables := c.tables ++ [(typeName, table)] })
    | .error fault => .error fault

/-- The entry of a method, and the cache afterwards. -/
def entry (c : OverrideCache) (d : Disk) (typeName : String) (method : Text) :
    Except LookupFault (Option MethodOverride × OverrideCache) :=
  match c.table d typeName with
  | .ok (table, c) => .ok (table.lookup method, c)
  | .error fault => .error fault

/-- The argument list that replaces a method's own. -/
def arguments (c : OverrideCache) (d : Disk) (typeName : String) (method : Text) :
    Except LookupFault (Option Text × OverrideCache) :=
  match c.entry d typeName method with
  | .ok (found, c) => .ok (found.bind MethodOverride.arguments, c)
  | .error fault => .error fault

/-- The return type that replaces a method's own; a bare text has none. -/
def returnType (c : OverrideCache) (d : Disk) (typeName : String) (method : Text) :
    Except LookupFault (Option Text × OverrideCache) :=
  match c.entry d typeName method with
  | .ok (found, c) =>
    .ok (found.bind fun entry => if entry.fromObject then entry.returnType else none, c)
  | .error fault => .error fault

end OverrideCache

end HostDecl
