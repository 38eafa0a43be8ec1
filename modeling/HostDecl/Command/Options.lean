/-!
# Options on a command line

Arguments are options or positional. An option has a long name behind two dashes and a letter behind
one; letters can be joined behind one dash. The value of an option stands behind an equals sign
(long name), directly behind the letter, or in the next argument, whatever that looks like. Two dashes
alone end the options. Options and positional arguments may be mixed.
-/

namespace HostDecl.Command

/-- An option that a command knows. -/
structure OptionSpec where
  /-- The long name, without its dashes. -/
  long : String
  /-- The letter. -/
  short : Char
  /-- Whether it has a value. -/
  takesValue : Bool

/-- The arguments of a command. -/
structure Arguments where
  /-- The options by long name, with their values, in order. -/
  options : List (String × String)
  /-- The positional arguments. -/
  positional : List String
  deriving DecidableEq, Repr

namespace Arguments

/-- An option in front. -/
def withOption (name value : String) (a : Arguments) : Arguments :=
  { a with options := (name, value) :: a.options }

/-- A positional argument in front. -/
def withPositional (value : String) (a : Arguments) : Arguments :=
  { a with positional := value :: a.positional }

/-- The value of an option; the last one counts. -/
def value? (a : Arguments) (name : String) : Option String := a.options.reverse.lookup name

/-- Whether an option was given. -/
def has (a : Arguments) (name : String) : Bool := (a.value? name).isSome

end Arguments

/-- What an argument gives: options, and the name of the one whose value is still to come. -/
structure OptionPart where
  /-- The options that are complete. -/
  given : List (String × String)
  /-- The option that waits for its value. -/
  pending : Option String

/-- Reads the letters behind a single dash. -/
def readLetters (specs : List OptionSpec) : List Char → Option OptionPart
  | [] => some ⟨[], none⟩
  | c :: rest =>
    match specs.find? fun spec => spec.short = c with
    | none => none
    | some spec =>
      if spec.takesValue then
        if rest.isEmpty then some ⟨[], some spec.long⟩
        else some ⟨[(spec.long, String.ofList rest)], none⟩
      else (readLetters specs rest).map fun part => { part with given := (spec.long, "") :: part.given }

/-- Reads what stands behind two dashes. -/
def readLong (specs : List OptionSpec) (text : List Char) : Option OptionPart :=
  let name := String.ofList (text.takeWhile (· ≠ '='))
  let value := match text.dropWhile (· ≠ '=') with
    | [] => none
    | _ :: value => some (String.ofList value)
  match specs.find? fun spec => spec.long = name with
  | none => none
  | some spec =>
    match spec.takesValue, value with
    | true, some value => some ⟨[(name, value)], none⟩
    | true, none => some ⟨[], some name⟩
    | false, none => some ⟨[(name, "")], none⟩
    | false, some _ => none

/-- Reads an argument as options: nothing if it is positional. -/
def readOptions? (specs : List OptionSpec) (argument : String) : Option (Option OptionPart) :=
  match argument.toList with
  | '-' :: '-' :: text => some (readLong specs text)
  | '-' :: c :: letters => some (readLetters specs (c :: letters))
  | _ => none

/-- Reads arguments, with the option that waits for its value. Nothing for a usage error. -/
def readArguments (specs : List OptionSpec) : Option String → List String → Option Arguments
  | none, [] => some ⟨[], []⟩
  | some _, [] => none
  | some name, value :: rest => (readArguments specs none rest).map (·.withOption name value)
  | none, argument :: rest =>
    if argument = "--" then some ⟨[], rest⟩
    else
      match readOptions? specs argument with
      | none => (readArguments specs none rest).map (·.withPositional argument)
      | some none => none
      | some (some part) =>
        (readArguments specs part.pending rest).map fun a =>
          { a with options := part.given ++ a.options }

/-- The subcommand that a command line names, and the arguments behind it. A group of commands has no
options of its own. -/
def subcommand? : List String → Option (String × List String)
  | [] => none
  | argument :: rest =>
    if argument = "--" then
      match rest with
      | [] => none
      | name :: rest => some (name, rest)
    else if (readOptions? [] argument).isSome then none
    else some (argument, rest)

end HostDecl.Command
