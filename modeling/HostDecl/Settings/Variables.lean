import HostDecl.Settings.Assignment

/-!
# Environment variables

Variables are set by the environment and, where the environment does not set them, by a file of
assignments. Values in such a file may refer to variables that the environment sets or that the file
assigned before.

A value is a string: an environment in which a value has bytes that are no UTF-8 is left out.
-/

namespace HostDecl

/-- The variables that are set, by name. -/
abbrev Variables := List (String × String)

/-- Why a variable cannot be set. -/
inductive VariableFault where
  /-- The name or the value holds a zero character. -/
  | zeroCharacter
  /-- The name holds an equals sign. -/
  | equalsSign
  deriving DecidableEq, Repr

/-- The wording of a variable that cannot be set. -/
def VariableFault.message : VariableFault → String
  | .zeroCharacter => "embedded null byte"
  | .equalsSign => "illegal environment variable name"

namespace Variables

/-- The value of a variable. -/
def value? (vars : Variables) (name : String) : Option String := vars.lookup name

end Variables

/-- The names that a file assigned, in the order in which they first appeared. A name that was taken
back has no value. -/
abbrev Assignments := List (String × Option String)

namespace Assignments

/-- The assignments after one more. -/
def set (name : String) (value : Option String) : Assignments → Assignments
  | [] => [(name, value)]
  | (n, v) :: rest => if n = name then (n, value) :: rest else (n, v) :: set name value rest

/-! ## References -/

/-- A reference to a variable in a value. -/
structure Reference where
  /-- The name of the variable. -/
  name : String
  /-- What stands for the variable if it is not known. -/
  fallback : List Char

/-- A reference whose mark, a dollar sign and a brace, stands in front of the text, and the text
behind it. -/
def reference? (cs : List Char) : Option (Reference × List Char) :=
  let inName (c : Char) : Bool := c != '\x7d' && c != ':'
  let name := String.ofList (cs.takeWhile inName)
  match cs.dropWhile inName with
  | ':' :: '-' :: rest =>
    match rest.dropWhile (· != '\x7d') with
    | [] => none
    | _ :: behind => some (⟨name, rest.takeWhile (· != '\x7d')⟩, behind)
  | '\x7d' :: behind => some (⟨name, []⟩, behind)
  | _ => none

theorem length_of_reference? {cs behind : List Char} {r : Reference}
    (found : reference? cs = some (r, behind)) : behind.length < cs.length := by
  have shorter :=
    Statement.length_dropWhile_le (fun c => c != '\x7d' && c != ':') cs
  unfold reference? at found
  simp only at found
  split at found
  · rename_i rest split
    have further := Statement.length_dropWhile_le (· != '\x7d') rest
    rw [split] at shorter
    split at found
    · simp at found
    · rename_i more split
      rw [split] at further
      simp only [Option.some.injEq, Prod.mk.injEq] at found
      obtain ⟨_, rfl⟩ := found
      simp only [List.length_cons] at shorter further
      omega
  · rename_i split
    rw [split] at shorter
    simp only [Option.some.injEq, Prod.mk.injEq] at found
    obtain ⟨_, rfl⟩ := found
    simp only [List.length_cons] at shorter
    omega
  · simp at found

/-- A value with its references replaced. -/
def resolve (lookup : Reference → List Char) : List Char → List Char
  | [] => []
  | '$' :: '\x7b' :: rest =>
    match _ : reference? rest with
    | some (r, behind) => lookup r ++ resolve lookup behind
    | none => '$' :: resolve lookup ('\x7b' :: rest)
  | c :: rest => c :: resolve lookup rest
termination_by cs => cs.length
decreasing_by
  · rename_i found
    have := length_of_reference? found
    simp only [List.length_cons]
    omega
  · simp
  · simp

/-- What a reference stands for: the environment counts before the file. A name that was taken back
stands for nothing. -/
def meaning (vars : Variables) (assigned : Assignments) (r : Reference) : List Char :=
  match vars.value? r.name, assigned.lookup r.name with
  | some value, _ => value.toList
  | none, some value => (value.getD "").toList
  | none, none => r.fallback

/-- The assignments after a statement. -/
def step (vars : Variables) (assigned : Assignments) : Statement → Assignments
  | .assign name value =>
    set name (value.map fun text =>
      String.ofList (resolve (meaning vars assigned) text.toList)) assigned
  | .comment | .faulty => assigned

/-- The assignments that statements make. -/
def ofStatements (vars : Variables) (statements : List Statement) : Assignments :=
  statements.foldl (step vars) []

end Assignments

namespace Variables

/-- What is wrong with a variable. -/
def fault? (name value : String) : Option VariableFault :=
  if name.toList.contains '\x00' || value.toList.contains '\x00' then some .zeroCharacter
  else if name.toList.contains '=' then some .equalsSign
  else none

/-- The variables with those of a file, which never override a variable that is set. -/
def orElse (vars : Variables) : Assignments → Except VariableFault Variables
  | [] => .ok vars
  | (_, none) :: rest => vars.orElse rest
  | (name, some value) :: rest =>
    if (vars.value? name).isSome then vars.orElse rest
    else
      match fault? name value with
      | some fault => .error fault
      | none => orElse (vars ++ [(name, value)]) rest

end Variables

end HostDecl
