import HostDecl.Text.Lines

/-!
# Paths

A path is its parts and whether it starts at the root. Empty parts and single dots say nothing and
are dropped when a path is read; two dots stay, because what they mean depends on the directories
that are there. A path that starts with exactly two slashes keeps both.
-/

namespace HostDecl

/-- A path. -/
structure Path where
  /-- The slashes in front: none for a relative path, otherwise one or two. -/
  slashes : Nat
  /-- The parts, outermost first. -/
  parts : List String
  deriving DecidableEq, Repr

namespace Path

/-- The parts of a text that say something. -/
def partsOf (text : List Char) : List String :=
  ((Text.splitOn '/' text).filter fun part => part ≠ [] ∧ part ≠ ['.']).map String.ofList

/-- The number of slashes that a text keeps in front. -/
def slashesOf (text : List Char) : Nat :=
  match (text.takeWhile (· = '/')).length with
  | 2 => 2
  | n => min n 1

/-- Reads a path. -/
def ofText (text : String) : Path := ⟨slashesOf text.toList, partsOf text.toList⟩

/-- The working directory. -/
def here : Path := ⟨0, []⟩

/-- A path below another one; one that starts at the root stands for itself. -/
def join (base file : Path) : Path :=
  if file.slashes = 0 then ⟨base.slashes, base.parts ++ file.parts⟩ else file

/-- A path with one more part. -/
def child (base : Path) (part : String) : Path := ⟨base.slashes, base.parts ++ [part]⟩

/-- The text of a path; a dot for the working directory. -/
def text (p : Path) : String :=
  if p.slashes = 0 ∧ p.parts = [] then "."
  else String.ofList (List.replicate p.slashes '/') ++ "/".intercalate p.parts

end Path

end HostDecl
