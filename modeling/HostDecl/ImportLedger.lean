import HostDecl.Descriptor.Basic

/-!
# Import ledgers

A ledger remembers the types that one output file has referred to, by module and simple name. The
first reference to a type of a module asks for an import; every later one, and every reference to a
type outside of the modules, does not.
-/

namespace HostDecl

/-- The key of a type: its module, a slash, its simple name. A type outside of the modules has the
word `None` for its module. -/
def Descriptor.importKey (d : Descriptor) : Text :=
  d.moduleName.getD "None" ++ "/" ++ d.simpleName

/-- The types seen, by key, in the order in which they were first seen. Each key has the first
descriptor that had it, with the label under which the caller recorded it: labels tell occurrences
apart that are described alike. -/
structure ImportLedger (ι : Type) where
  /-- Each key with what was recorded for it. -/
  records : List (Text × ι × Descriptor)

namespace ImportLedger

variable {ι : Type}

/-- A ledger that has seen nothing. -/
def empty : ImportLedger ι := ⟨[]⟩

/-- What was recorded for a key. -/
def get? (l : ImportLedger ι) (key : Text) : Option (ι × Descriptor) := l.records.lookup key

/-- Whether a key was recorded. -/
def contains (l : ImportLedger ι) (key : Text) : Bool := (l.get? key).isSome

/-- The keys, in the order in which they were recorded. -/
def keys (l : ImportLedger ι) : List Text := l.records.map Prod.fst

/-- The number of keys. -/
def size (l : ImportLedger ι) : Nat := l.records.length

/-- Records a descriptor unless its key was recorded before; says whether it did. -/
def add (l : ImportLedger ι) (label : ι) (d : Descriptor) : Bool × ImportLedger ι :=
  if l.contains d.importKey then (false, l) else (true, ⟨l.records ++ [(d.importKey, label, d)]⟩)

/-- Whether a type is visible already. If not, it is from now on. -/
def refer (l : ImportLedger ι) (label : ι) (d : Descriptor) : Bool × ImportLedger ι :=
  match d.moduleName with
  | none => (true, l)
  | some _ =>
    let (added, l) := l.add label d
    (!added, l)

end ImportLedger

end HostDecl
