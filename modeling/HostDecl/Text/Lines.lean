import HostDecl.Text.Basic

/-!
# Lines

A text read from a file has one kind of line end: a carriage return, alone or before a line feed, is
read as a line feed. A text of `n` line feeds has `n + 1` lines, the last one possibly empty.

Both are right folds, so that they take a text of any length in constant stack.
-/

namespace HostDecl.Text

variable {α : Type} [DecidableEq α]

/-- One step of `unifyNewlines`, from the right: whether the character after this one is a line
feed, and the text so far. -/
def unifyStep (c : Char) (after : Bool × List Char) : Bool × List Char :=
  if c = '\r' then (false, if after.1 then after.2 else '\n' :: after.2)
  else (c == '\n', c :: after.2)

/-- Turns each carriage return, and each carriage return with its line feed, into one line feed. -/
def unifyNewlines (cs : List Char) : List Char := (cs.foldr unifyStep (false, [])).2

/-- Puts an item in front of a list of pieces: a separator begins a new one. -/
def consPiece (separator c : α) (pieces : List (List α)) : List (List α) :=
  if c = separator then [] :: pieces
  else match pieces with
    | [] => [[c]]
    | piece :: rest => (c :: piece) :: rest

/-- The list cut at each separator. -/
def splitOn (separator : α) (cs : List α) : List (List α) :=
  cs.foldr (consPiece separator) [[]]

/-- The pieces joined by separators. -/
def joinWith (separator : α) : List (List α) → List α
  | [] => []
  | [piece] => piece
  | piece :: rest => piece ++ separator :: joinWith separator rest

/-- The text cut at each line feed. -/
def splitLines (cs : List Char) : List (List Char) := splitOn '\n' cs

/-- The lines of a text, cut at each line feed. -/
def lines (t : Text) : List Text := (splitOn (.char '\n') t.points).map Text.mk

/-- The first occurrence of a separator: the text before it and the text after it. -/
def breakOn? (separator : List Char) (cs : List Char) : Option (List Char × List Char) :=
  go [] cs
where
  /-- Goes on behind the characters in `before`, the last one first. -/
  go (before : List Char) : List Char → Option (List Char × List Char)
    | [] => if separator.isEmpty then some (before.reverse, []) else none
    | c :: rest =>
      if separator.isPrefixOf (c :: rest) then
        some (before.reverse, (c :: rest).drop separator.length)
      else go (c :: before) rest

/-! ## Line ends -/

theorem unifyNewlines_cons {c : Char} (plain : c ≠ '\r') (rest : List Char) :
    unifyNewlines (c :: rest) = c :: unifyNewlines rest := by
  simp only [unifyNewlines, List.foldr_cons, unifyStep, if_neg plain]

theorem unifyNewlines_append {front : List Char} (plain : '\r' ∉ front) (rest : List Char) :
    unifyNewlines (front ++ rest) = front ++ unifyNewlines rest := by
  induction front with
  | nil => rfl
  | cons c cs ih =>
    rw [List.mem_cons, not_or] at plain
    rw [List.cons_append, unifyNewlines_cons (Ne.symm plain.1), ih plain.2, List.cons_append]

theorem notMem_unifyNewlines (cs : List Char) : '\r' ∉ unifyNewlines cs := by
  unfold unifyNewlines
  induction cs with
  | nil => exact List.not_mem_nil
  | cons c cs ih =>
    rw [List.foldr_cons]
    generalize cs.foldr unifyStep (false, []) = after at ih ⊢
    unfold unifyStep
    split
    · dsimp only
      split
      · exact ih
      · exact List.not_mem_cons_of_ne_of_not_mem (by decide) ih
    · next other => exact List.not_mem_cons_of_ne_of_not_mem (Ne.symm other) ih

/-- The first answer of the fold: whether a line feed comes next. -/
theorem foldr_unifyStep_fst (cs : List Char) :
    (cs.foldr unifyStep (false, [])).1 = true ↔ cs.head? = some '\n' := by
  cases cs with
  | nil => simp
  | cons c rest =>
    rw [List.foldr_cons, unifyStep]
    split
    next same => simp [same]
    next => simp

/-- A carriage return becomes a line feed, or goes with the one behind it. -/
theorem unifyNewlines_return (rest : List Char) :
    unifyNewlines ('\r' :: rest) =
      if rest.head? = some '\n' then unifyNewlines rest else '\n' :: unifyNewlines rest := by
  rw [unifyNewlines, List.foldr_cons, unifyStep, if_pos rfl]
  simp only [foldr_unifyStep_fst]
  rfl

/-- The first character stays, but for a carriage return. -/
theorem head?_unifyNewlines (cs : List Char) :
    (unifyNewlines cs).head? = cs.head?.map fun c => if c = '\r' then '\n' else c := by
  induction cs with
  | nil => rfl
  | cons c rest ih =>
    by_cases same : c = '\r'
    · rw [same, unifyNewlines_return]
      split
      next head =>
        rw [ih, head]
        rfl
      next => rfl
    · rw [unifyNewlines_cons same, List.head?_cons, List.head?_cons, Option.map_some, if_neg same]

/-! ## Pieces -/

/-- An item in front lengthens the first piece or begins a new one. -/
theorem splitOn_cons (separator c : α) (cs : List α) :
    splitOn separator (c :: cs) = consPiece separator c (splitOn separator cs) := rfl

/-- There is always a piece. -/
theorem splitOn_ne_nil (separator : α) (cs : List α) : splitOn separator cs ≠ [] := by
  cases cs with
  | nil => simp [splitOn]
  | cons c cs =>
    rw [splitOn_cons]
    unfold consPiece
    split
    · simp
    · split <;> simp

/-- Joining the pieces gives the list back. -/
theorem joinWith_splitOn (separator : α) (cs : List α) :
    joinWith separator (splitOn separator cs) = cs := by
  induction cs with
  | nil => rfl
  | cons c cs ih =>
    rw [splitOn_cons]
    cases pieces : splitOn separator cs with
    | nil => exact absurd pieces (splitOn_ne_nil separator cs)
    | cons piece rest =>
      rw [pieces] at ih
      by_cases cut : c = separator
      · simp [consPiece, cut, joinWith, ih]
      · cases rest <;> simp_all [consPiece, joinWith]

theorem splitOn_separator (separator : α) (cs : List α) :
    splitOn separator (separator :: cs) = [] :: splitOn separator cs := by
  rw [splitOn_cons]
  unfold consPiece
  rw [if_pos rfl]

/-- Another item in front lengthens the first piece. -/
theorem splitOn_cons_of_ne {separator c : α} (other : c ≠ separator) (cs : List α) :
    ∃ first rest, splitOn separator cs = first :: rest ∧
      splitOn separator (c :: cs) = (c :: first) :: rest := by
  cases pieces : splitOn separator cs with
  | nil => exact absurd pieces (splitOn_ne_nil separator cs)
  | cons first rest =>
    refine ⟨first, rest, rfl, ?_⟩
    rw [splitOn_cons, pieces]
    unfold consPiece
    rw [if_neg other]

theorem splitOn_append {separator : α} {front : List α} (plain : separator ∉ front) (rest : List α) :
    splitOn separator (front ++ separator :: rest) = front :: splitOn separator rest := by
  induction front with
  | nil => exact splitOn_separator separator rest
  | cons c cs ih =>
    rw [List.mem_cons, not_or] at plain
    obtain ⟨first, others, pieces, longer⟩ :=
      splitOn_cons_of_ne (Ne.symm plain.1) (cs ++ separator :: rest)
    rw [ih plain.2] at pieces
    cases pieces
    exact longer

/-- A list without the separator is one piece. -/
theorem splitOn_eq_singleton {separator : α} {cs : List α} (plain : separator ∉ cs) :
    splitOn separator cs = [cs] := by
  induction cs with
  | nil => rfl
  | cons c cs ih =>
    rw [List.mem_cons, not_or] at plain
    obtain ⟨first, others, pieces, longer⟩ := splitOn_cons_of_ne (Ne.symm plain.1) cs
    rw [ih plain.2] at pieces
    cases pieces
    exact longer

/-- A piece holds no separator, and nothing that was not in the list. -/
theorem piece_of_mem_splitOn {separator : α} {cs piece : List α} (mem : piece ∈ splitOn separator cs) :
    separator ∉ piece ∧ piece ⊆ cs := by
  induction cs generalizing piece with
  | nil =>
    cases List.mem_singleton.mp mem
    exact ⟨List.not_mem_nil, List.nil_subset _⟩
  | cons c cs ih =>
    by_cases cut : c = separator
    · subst cut
      rw [splitOn_separator] at mem
      rcases List.mem_cons.mp mem with rfl | later
      · exact ⟨List.not_mem_nil, List.nil_subset _⟩
      · exact ⟨(ih later).1, List.subset_cons_of_subset _ (ih later).2⟩
    · obtain ⟨first, rest, pieces, longer⟩ := splitOn_cons_of_ne cut cs
      rw [pieces] at ih
      rw [longer] at mem
      rcases List.mem_cons.mp mem with rfl | later
      · obtain ⟨plain, inside⟩ := ih List.mem_cons_self
        exact ⟨List.not_mem_cons_of_ne_of_not_mem (Ne.symm cut) plain, List.cons_subset_cons c inside⟩
      · obtain ⟨plain, inside⟩ := ih (List.mem_cons_of_mem _ later)
        exact ⟨plain, List.subset_cons_of_subset _ inside⟩

end HostDecl.Text
