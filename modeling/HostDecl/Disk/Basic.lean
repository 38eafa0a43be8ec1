import HostDecl.Disk.Path
import HostDecl.Text.Utf8

/-!
# The disk

The files and directories that the program sees. A location is the names on the way from a node up to
the root. Paths are followed part by part from the working directory, so two dots lead out of a
directory only if it is there.

Operations fail as the operating system lets them fail, with the fault of the first part of the path
that cannot be followed.
-/

namespace HostDecl

/-- A place on the disk. The depth stands first because it alone tells most places apart. -/
structure Location where
  /-- How many names there are. -/
  depth : Nat
  /-- The names from there up to the root, innermost first. -/
  names : List String
  /-- The depth is what it says. -/
  depth_eq : depth = names.length := by rfl
  deriving DecidableEq, Repr

namespace Location

/-- The root. -/
def root : Location := ⟨0, [], rfl⟩

/-- The place with the given names, innermost first. -/
def ofNames (names : List String) : Location := ⟨names.length, names, rfl⟩

/-- The place of a name in a directory. -/
def child (place : Location) (name : String) : Location :=
  ⟨place.depth + 1, name :: place.names, by simp [place.depth_eq]⟩

/-- The directory that a place is in; the root is in itself. -/
def parent (place : Location) : Location :=
  ⟨place.depth - 1, place.names.tail, by simp [place.depth_eq]⟩

/-- A place is its names. -/
theorem eq_of_names_eq {a b : Location} (same : a.names = b.names) : a = b := by
  obtain ⟨_, names, rfl⟩ := a
  obtain ⟨_, _, rfl⟩ := b
  cases same
  rfl

/-- A name in a directory leads back to it. -/
theorem parent_child (place : Location) (name : String) : (place.child name).parent = place :=
  eq_of_names_eq rfl

end Location

/-- What stands at a location. -/
inductive Node where
  /-- A regular file. -/
  | file (content : ByteArray)
  /-- A directory. -/
  | directory

/-- Why an operation on a path fails. -/
inductive FileFault where
  /-- There is nothing at the path. -/
  | notFound
  /-- A part of the path is a file where a directory should be. -/
  | notADirectory
  /-- There is a directory where a file should be. -/
  | isADirectory
  /-- There is something at the path already. -/
  | alreadyExists
  /-- A name is too long. -/
  | nameTooLong
  /-- The path holds a zero character. -/
  | zeroCharacter
  /-- The text to be written holds half of a surrogate pair. -/
  | unwritable
  deriving DecidableEq, Repr

/-- The wording of a fault. -/
def FileFault.message : FileFault → String
  | .notFound => "no such file or directory"
  | .notADirectory => "not a directory"
  | .isADirectory => "is a directory"
  | .alreadyExists => "file exists"
  | .nameTooLong => "file name too long"
  | .zeroCharacter => "path with a zero character"
  | .unwritable => "half of a surrogate pair cannot be written"

/-- The files and directories, and where the program stands. -/
structure Disk where
  /-- The nodes below the root, in the order in which they were made. -/
  nodes : List (Location × Node)
  /-- The working directory. -/
  working : Location

/-- The most bytes that a name may have. -/
def nameLimit : Nat := 255

/-- The most bytes that the text of a path may have. -/
def pathLimit : Nat := 4095

namespace Disk

/-- What stands at a location. The root is a directory. -/
def node? (d : Disk) (place : Location) : Option Node :=
  if place = .root then some .directory else d.nodes.lookup place

/-- The nodes after one was put at a location. -/
def putNode (place : Location) (node : Node) : List (Location × Node) → List (Location × Node)
  | [] => [(place, node)]
  | (l, n) :: rest => if l = place then (l, node) :: rest else (l, n) :: putNode place node rest

/-- Puts a node at a location. -/
def put (d : Disk) (place : Location) (node : Node) : Disk :=
  { d with nodes := putNode place node d.nodes }

/-- Takes the node at a location away. -/
def erase (d : Disk) (place : Location) : Disk :=
  { d with nodes := d.nodes.filter fun entry => entry.1 ≠ place }

/-- Follows parts from a location. All but the last one must lead through directories; whether
anything stands at the answer is not asked. -/
def follow (d : Disk) (origin : Location) : List String → Except FileFault Location
  | [] => .ok origin
  | part :: rest =>
    match d.node? origin with
    | none => .error .notFound
    | some (.file _) => .error .notADirectory
    | some .directory =>
      if part = ".." then d.follow origin.parent rest
      else if nameLimit < part.utf8ByteSize then .error .nameTooLong
      else d.follow (origin.child part) rest

/-- Where a path starts. -/
def base (d : Disk) (p : Path) : Location := if p.slashes = 0 then d.working else .root

/-- What is wrong with a path, whatever is on the disk. -/
def pathFault? (p : Path) : Option FileFault :=
  if p.parts.any fun part => part.toList.contains '\x00' then some .zeroCharacter
  else if pathLimit < p.text.utf8ByteSize then some .nameTooLong
  else none

/-- The location that a path leads to. -/
def locate (d : Disk) (p : Path) : Except FileFault Location :=
  match pathFault? p with
  | some fault => .error fault
  | none => d.follow (d.base p) p.parts

/-- Whether there is anything at a path. Only names that are too long make the question fail. -/
def pathExists (d : Disk) (p : Path) : Except FileFault Bool :=
  match d.locate p with
  | .ok place => .ok (d.node? place).isSome
  | .error .nameTooLong => .error .nameTooLong
  | .error _ => .ok false

/-- The bytes of the file at a path. -/
def readBytes (d : Disk) (p : Path) : Except FileFault ByteArray :=
  match d.locate p with
  | .error fault => .error fault
  | .ok place =>
    match d.node? place with
    | none => .error .notFound
    | some .directory => .error .isADirectory
    | some (.file content) => .ok content

/-- A file that can be read is there. -/
theorem pathExists_of_readBytes {d : Disk} {p : Path} {bytes : ByteArray}
    (held : d.readBytes p = .ok bytes) : d.pathExists p = .ok true := by
  rw [readBytes] at held
  rw [pathExists]
  cases found : d.locate p with
  | error fault =>
    rw [found] at held
    cases held
  | ok place =>
    rw [found] at held
    dsimp only at held ⊢
    cases node : d.node? place with
    | none =>
      rw [node] at held
      cases held
    | some _ => rfl

/-- Adds bytes to the end of the file at a path, which is made if it is not there. -/
def append (d : Disk) (p : Path) (bytes : ByteArray) : Except FileFault Disk :=
  match d.locate p with
  | .error fault => .error fault
  | .ok place =>
    match d.node? place with
    | some .directory => .error .isADirectory
    | some (.file content) => .ok (d.put place (.file (content ++ bytes)))
    | none =>
      match d.node? place.parent with
      | some .directory => .ok (d.put place (.file bytes))
      | some (.file _) => .error .notADirectory
      | none => .error .notFound

/-- Removes the file at a path. -/
def unlink (d : Disk) (p : Path) : Except FileFault Disk :=
  match d.locate p with
  | .error fault => .error fault
  | .ok place =>
    match d.node? place with
    | none => .error .notFound
    | some .directory => .error .isADirectory
    | some (.file _) => .ok (d.erase place)

/-- Gives the file at a path another path, in place of a file that is there. -/
def rename (d : Disk) (source target : Path) : Except FileFault Disk :=
  match d.readBytes source, d.locate target with
  | .error fault, _ => .error fault
  | _, .error fault => .error fault
  | .ok content, .ok place =>
    match d.node? place with
    | some .directory => .error .isADirectory
    | _ =>
      match d.unlink source with
      | .error fault => .error fault
      | .ok d => .ok (d.put place (.file content))

/-- The fault of making directories, one of which is made by then: what stands in the way is met at the
end of a path. -/
def onceMade : FileFault → FileFault
  | .notADirectory => .alreadyExists
  | fault => fault

/-- Makes the directories that parts call for, from a location on. Those made before a fault stay. -/
def makeDirectoriesFrom (d : Disk) (origin : Location) : List String → Disk × Option FileFault
  | [] => (d, none)
  | part :: rest =>
    if part = ".." then d.makeDirectoriesFrom origin.parent rest
    else if nameLimit < part.utf8ByteSize then (d, some .nameTooLong)
    else
      let place := origin.child part
      match d.node? place with
      | some .directory => d.makeDirectoriesFrom place rest
      | some (.file _) => (d, some (if rest.isEmpty then .alreadyExists else .notADirectory))
      | none =>
        let (d, fault) := (d.put place .directory).makeDirectoriesFrom place rest
        (d, fault.map onceMade)

/-- Makes the directory at a path and those above it, as far as they are not there. -/
def makeDirectories (d : Disk) (p : Path) : Disk × Option FileFault :=
  match pathFault? p with
  | some fault => (d, some fault)
  | none => d.makeDirectoriesFrom (d.base p) p.parts

/-- Puts a node at a path, after making the directories above it. -/
def install (d : Disk) (p : Path) (node : Node) : Except FileFault Disk :=
  match d.makeDirectories { p with parts := p.parts.dropLast } with
  | (_, some fault) => .error fault
  | (d, none) =>
    match d.locate p with
    | .error fault => .error fault
    | .ok place => .ok (d.put place node)

/-- The parts of a location below a directory, outermost first, if it is there. -/
def partsBelow? (directory : Location) (place : Location) : Option (List String) :=
  if directory.names.isSuffixOf place.names then
    some (place.names.take (place.depth - directory.depth)).reverse
  else none

/-- The regular files below the working directory, by path. -/
def tree (d : Disk) : List (String × ByteArray) :=
  d.nodes.filterMap fun (place, node) =>
    match node, partsBelow? d.working place with
    | .file content, some parts => some ("/".intercalate parts, content)
    | _, _ => none

/-! ## Observations -/

/-- What stands where after a put. -/
theorem node?_put (d : Disk) (place other : Location) (node : Node) (below : place ≠ .root) :
    (d.put place node).node? other = if other = place then some node else d.node? other := by
  have nodes : ∀ list : List (Location × Node),
      (putNode place node list).lookup other =
        if other = place then some node else list.lookup other := by
    intro list
    induction list with
    | nil =>
      by_cases same : other = place
      · subst same; simp [putNode]
      · have : (other == place) = false := by simpa using same
        simp [putNode, List.lookup_cons, same, this]
    | cons entry rest ih =>
      obtain ⟨l, n⟩ := entry
      by_cases here : l = place
      · subst here
        by_cases same : other = l
        · subst same; simp [putNode]
        · have : (other == l) = false := by simpa using same
          simp [putNode, List.lookup_cons, same, this]
      · simp only [putNode, here, if_false]
        by_cases same : other = l
        · subst same
          simp [here]
        · have : (other == l) = false := by simpa using same
          simp [List.lookup_cons, this, ih]
  unfold node? put
  by_cases root : other = .root
  · subst root
    simp [Ne.symm below]
  · simp [root, nodes]

/-- What stands where after an erasure. -/
theorem node?_erase (d : Disk) (place other : Location) (below : place ≠ .root) :
    (d.erase place).node? other = if other = place then none else d.node? other := by
  have nodes : ∀ list : List (Location × Node),
      (list.filter fun entry => !decide (entry.1 = place)).lookup other =
        if other = place then none else list.lookup other := by
    intro list
    induction list with
    | nil => simp
    | cons entry rest ih =>
      obtain ⟨l, n⟩ := entry
      by_cases here : l = place
      · subst here
        by_cases same : other = l
        · subst same; simpa using ih
        · have : (other == l) = false := by simpa using same
          simpa [List.lookup_cons, same, this] using ih
      · by_cases same : other = l
        · subst same; simp [here]
        · have : (other == l) = false := by simpa using same
          simp [List.lookup_cons, here, this, ih]
  unfold node? erase
  by_cases root : other = .root
  · subst root
    simp [Ne.symm below]
  · simp [root, nodes]

end Disk

end HostDecl
