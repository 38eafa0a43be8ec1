import HostDecl.Text.Blank

/-!
# Files of assignments

A file of assignments is a sequence of statements. A statement is a comment behind `#`, or a name,
which the word `export` may precede, with an equals sign and a value. A value is plain, up to the end
of its line or a comment behind a blank, or stands in quotes and may then go on over lines. A name
without an equals sign takes back what was assigned to it.

What is no statement is skipped from where it goes wrong to the end of the line there. Every step
leaves a shorter text, so reading ends.
-/

namespace HostDecl

/-- A statement of a file of assignments. -/
inductive Statement where
  /-- A name and its value, if it has one. -/
  | assign (name : String) (value : Option String)
  /-- A comment. -/
  | comment
  /-- Something that is no statement. -/
  | faulty
  deriving DecidableEq, Repr

namespace Statement

open Text

/-- A blank inside a line. -/
def isGap (c : Char) : Bool := isBlank c && c != '\n'

/-- A character of a name that is not in quotes. -/
def isNameChar (c : Char) : Bool := c != '=' && c != '#' && !isBlank c

/-- The text behind the end of the line. -/
def skipLine (cs : List Char) : List Char := (cs.dropWhile (· != '\n')).drop 1

/-- The text behind the word `export` and blanks, if they are there. -/
def withoutExport (cs : List Char) : List Char :=
  let word := "export".toList
  let behind := cs.drop word.length
  if word.isPrefixOf cs && behind.head?.any isGap then behind.dropWhile isGap else cs

/-- A name, and the text behind it. -/
def name? : List Char → Option (String × List Char)
  | [] => none
  | c :: rest =>
    if c = '\'' then
      match rest.dropWhile (· != '\'') with
      | [] => none
      | _ :: behind =>
        let name := rest.takeWhile (· != '\'')
        if name.isEmpty then none else some (String.ofList name, behind)
    else if isNameChar c then
      some (String.ofList (c :: rest.takeWhile isNameChar), rest.dropWhile isNameChar)
    else none

/-- The character that a backslash and a letter stand for between double quotes. -/
def letterEscape? : Char → Option Char
  | 'a' => some '\x07'
  | 'b' => some '\x08'
  | 'f' => some '\x0c'
  | 'n' => some '\n'
  | 'r' => some '\r'
  | 't' => some '\t'
  | 'v' => some '\x0b'
  | _ => none

/-- What a backslash and a character stand for inside quotes. -/
def unescaped (quote c : Char) : List Char :=
  if c = '\\' ∨ c = '\'' ∨ c = quote then [c]
  else
    match if quote = '"' then letterEscape? c else none with
    | some d => [d]
    | none => ['\\', c]

/-- The text up to a closing quote, and the text behind it. A backslash and the character behind it
belong together, so a quote there closes nothing. -/
def quoted? (quote : Char) : List Char → Option (List Char × List Char)
  | [] => none
  | ['\\'] => none
  | '\\' :: c :: rest =>
    (quoted? quote rest).map fun (text, behind) => (unescaped quote c ++ text, behind)
  | c :: rest =>
    if c = quote then some ([], rest)
    else (quoted? quote rest).map fun (text, behind) => (c :: text, behind)

/-- A plain value, up to a comment behind a blank; `before` is what stands in front, reversed. -/
def plain (before : List Char) : List Char → List Char
  | [] => trim before.reverse
  | c :: rest =>
    if c = '#' ∧ before.head?.any isBlank then trim before.reverse else plain (c :: before) rest

/-- The value behind an equals sign, and the text behind it. -/
def value? (cs : List Char) : Option (List Char × List Char) :=
  match cs.dropWhile isGap with
  | '\'' :: rest => quoted? '\'' rest
  | '"' :: rest => quoted? '"' rest
  | _ => some (plain [] (cs.takeWhile (· != '\n')), cs.dropWhile (· != '\n'))

/-- A statement before the end of its line, where only blanks and a comment may stand. -/
def ended (statement : Statement) (cs : List Char) : Statement × List Char :=
  match cs.dropWhile isGap with
  | [] => (statement, [])
  | c :: rest =>
    if c = '\n' then (statement, rest)
    else if c = '#' then (statement, skipLine rest)
    else (.faulty, skipLine (c :: rest))

/-- The statement of a name, with the text behind the name. -/
def named (name : String) (cs : List Char) : Statement × List Char :=
  match cs.dropWhile isGap with
  | '=' :: rest =>
    match value? rest with
    | some (value, behind) => ended (.assign name (some (String.ofList value))) behind
    | none => (.faulty, skipLine (rest.dropWhile isGap))
  | rest => ended (.assign name none) rest

/-- The first statement of a text that starts with no blank, and the text behind it. -/
def first (cs : List Char) : Statement × List Char :=
  let cs := withoutExport cs
  if cs.head? = some '#' then (.comment, skipLine cs)
  else
    match name? cs with
    | some (name, behind) => named name behind
    | none => (.faulty, skipLine cs)

/-! ## Lengths -/

theorem length_dropWhile_le (p : Char → Bool) (cs : List Char) :
    (cs.dropWhile p).length ≤ cs.length :=
  (List.dropWhile_sublist p).length_le

theorem length_skipLine_le (cs : List Char) : (skipLine cs).length ≤ cs.length - 1 := by
  have := length_dropWhile_le (· != '\n') cs
  simp only [skipLine, List.length_drop]
  omega

theorem length_withoutExport_le (cs : List Char) : (withoutExport cs).length ≤ cs.length := by
  unfold withoutExport
  simp only
  split
  · have := length_dropWhile_le isGap (cs.drop "export".toList.length)
    simp only [List.length_drop] at this
    omega
  · exact Nat.le_refl _

theorem length_of_name? {cs behind : List Char} {name : String}
    (found : name? cs = some (name, behind)) : behind.length < cs.length := by
  cases cs with
  | nil => simp [name?] at found
  | cons c rest =>
    simp only [name?] at found
    split at found
    · have shorter := length_dropWhile_le (· != '\'') rest
      split at found
      · simp at found
      · rename_i more split
        rw [split] at shorter
        split at found
        · simp at found
        · simp only [Option.some.injEq, Prod.mk.injEq] at found
          obtain ⟨_, rfl⟩ := found
          simp only [List.length_cons] at shorter ⊢
          omega
    · split at found
      · simp only [Option.some.injEq, Prod.mk.injEq] at found
        obtain ⟨_, rfl⟩ := found
        have := length_dropWhile_le isNameChar rest
        simp only [List.length_cons]
        omega
      · simp at found

theorem length_of_quoted? {quote : Char} {cs text behind : List Char}
    (found : quoted? quote cs = some (text, behind)) : behind.length < cs.length := by
  fun_induction quoted? quote cs generalizing text with
  | case1 => simp at found
  | case2 => simp at found
  | case3 c rest ih =>
    obtain ⟨⟨inner, _⟩, hit, same⟩ := Option.map_eq_some_iff.1 found
    obtain ⟨_, rfl⟩ := Prod.mk.injEq .. ▸ same
    have := ih hit
    simp only [List.length_cons]
    omega
  | case4 rest =>
    simp only [Option.some.injEq, Prod.mk.injEq] at found
    obtain ⟨_, rfl⟩ := found
    simp
  | case5 c rest _ _ other ih =>
    obtain ⟨⟨inner, _⟩, hit, same⟩ := Option.map_eq_some_iff.1 found
    obtain ⟨_, rfl⟩ := Prod.mk.injEq .. ▸ same
    have := ih hit
    simp only [List.length_cons]
    omega

theorem length_of_value? {cs text behind : List Char}
    (found : value? cs = some (text, behind)) : behind.length ≤ cs.length := by
  have shorter := length_dropWhile_le isGap cs
  unfold value? at found
  split at found
  · rename_i rest split
    have := length_of_quoted? found
    rw [split, List.length_cons] at shorter
    omega
  · rename_i rest split
    have := length_of_quoted? found
    rw [split, List.length_cons] at shorter
    omega
  · simp only [Option.some.injEq, Prod.mk.injEq] at found
    obtain ⟨_, rfl⟩ := found
    exact length_dropWhile_le _ cs

theorem length_ended_le (statement : Statement) (cs : List Char) :
    (ended statement cs).2.length ≤ cs.length := by
  have shorter := length_dropWhile_le isGap cs
  unfold ended
  split
  · simp
  · rename_i c rest split
    rw [split, List.length_cons] at shorter
    have behind := length_skipLine_le rest
    have whole := length_skipLine_le (c :: rest)
    simp only [List.length_cons] at whole
    split
    · simp only
      omega
    · split <;> simp only <;> omega

theorem length_named_le (name : String) (cs : List Char) :
    (named name cs).2.length ≤ cs.length := by
  have shorter := length_dropWhile_le isGap cs
  unfold named
  split
  · rename_i rest split
    rw [split, List.length_cons] at shorter
    split
    · rename_i value behind found
      have := length_of_value? found
      have := length_ended_le (.assign name (some (String.ofList value))) behind
      omega
    · have := length_skipLine_le (rest.dropWhile isGap)
      have := length_dropWhile_le isGap rest
      simp only
      omega
  · have := length_ended_le (.assign name none) (cs.dropWhile isGap)
    omega

/-- A statement takes at least one character. -/
theorem length_first_lt {cs : List Char} (nonempty : cs ≠ []) : (first cs).2.length < cs.length := by
  have whole := length_withoutExport_le cs
  have line := length_skipLine_le (withoutExport cs)
  have positive : 0 < cs.length := List.length_pos_iff.2 nonempty
  unfold first
  simp only
  split
  · simp only
    omega
  · split
    · rename_i name behind found
      have := length_of_name? found
      have := length_named_le name behind
      omega
    · simp only
      omega

/-! ## Sequences -/

/-- The number of line ends in a text. -/
def lineEnds (cs : List Char) : Nat := cs.count '\n'

/-- The statements of a text whose first line has the given number, each with the number of the line
where the text before it ended. -/
def sequenceFrom (line : Nat) (cs : List Char) : List (Nat × Statement) :=
  let here := cs.dropWhile isBlank
  if _ : here = [] then []
  else
    let next := (first here).2
    (line, (first here).1) :: sequenceFrom (line + (lineEnds cs - lineEnds next)) next
termination_by cs.length
decreasing_by
  rename_i nonblank
  have step : (first (cs.dropWhile isBlank)).2.length < (cs.dropWhile isBlank).length :=
    length_first_lt nonblank
  have skipped := length_dropWhile_le isBlank cs
  omega

/-- The statements of a text, with line numbers. A byte order mark in front says nothing. -/
def sequence (cs : List Char) : List (Nat × Statement) :=
  sequenceFrom 1 (match cs with
    | '\ufeff' :: rest => rest
    | cs => cs)

end Statement

end HostDecl
