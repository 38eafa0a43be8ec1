import HostDecl.Diagnostic.Log
import HostDecl.Proofs.Echo
import Mathlib.Data.List.DropRight

/-!
# The lines of the log

A diagnostic is written as one line and read by cutting the line at its first two separators. Nothing is
escaped, so which diagnostics survive is a question about texts: where separators, line ends and blanks at
the ends of a line can come from.

- `diagnosticsOf_linesOf`: any number of diagnostics whose details fit a line are read back, in order;
- `fitsLine_of_mem_diagnosticsOf`: whatever a log holds, a detail that is read from it fits a line or is
  empty.

The time and the event are words, without any blank in them (`Diagnostic.Fits`). That is what makes the
first two separators the ones that were written: the detail behind them may hold any number of its own.
-/

namespace HostDecl

namespace Text

/-- Characters, and none of them is blank. -/
structure IsWord (cs : List Char) : Prop where
  some_char : cs ≠ []
  plain : ∀ c ∈ cs, isBlank c = false

instance (cs : List Char) : Decidable (IsWord cs) :=
  decidable_of_iff (cs ≠ [] ∧ cs.all fun c => !isBlank c)
    ⟨fun ⟨some_char, plain⟩ => ⟨some_char, by simpa using plain⟩,
      fun word => ⟨word.some_char, by simpa using word.plain⟩⟩

theorem IsWord.notMem {cs : List Char} (word : IsWord cs) {c : Char} (blank : isBlank c = true) :
    c ∉ cs := by
  intro mem
  rw [word.plain c mem] at blank
  cases blank

theorem IsWord.head?_any {cs : List Char} (word : IsWord cs) : cs.head?.any isBlank = false := by
  cases cs with
  | nil => rfl
  | cons c rest => exact word.plain c List.mem_cons_self

/-- A detail that fits the end of a line: there is one, it does not end the line, and it does not end in
a blank. Whether it is a string is another question. -/
structure FitsLine (detail : Text) : Prop where
  some_point : detail.points ≠ []
  noLineFeed : .char '\n' ∉ detail.points
  noReturn : .char '\r' ∉ detail.points
  ended : detail.points.getLast?.any isBlankPoint = false

instance (detail : Text) : Decidable (FitsLine detail) :=
  decidable_of_iff (detail.points ≠ [] ∧ .char '\n' ∉ detail.points ∧ .char '\r' ∉ detail.points ∧
      detail.points.getLast?.any isBlankPoint = false)
    ⟨fun ⟨a, b, c, d⟩ => ⟨a, b, c, d⟩, fun ⟨a, b, c, d⟩ => ⟨a, b, c, d⟩⟩

/-- Whether characters fit the end of a line. -/
theorem fitsLine_ofChars {cs : List Char} :
    FitsLine (ofChars cs) ↔ cs ≠ [] ∧ '\n' ∉ cs ∧ '\r' ∉ cs ∧ cs.getLast?.any isBlank = false := by
  have last : (cs.map CodePoint.char).getLast?.any isBlankPoint = cs.getLast?.any isBlank := by
    rw [List.getLast?_map, Option.any_map]
    rfl
  constructor
  · rintro ⟨some_point, noLineFeed, noReturn, ended⟩
    simp only [ofChars, last] at some_point noLineFeed noReturn ended
    exact ⟨by simpa using some_point, by simpa using noLineFeed, by simpa using noReturn, ended⟩
  · rintro ⟨some_char, noLineFeed, noReturn, ended⟩
    refine ⟨?_, ?_, ?_, ?_⟩ <;> simp only [ofChars, last]
    · simpa using some_char
    · simpa using noLineFeed
    · simpa using noReturn
    · exact ended

/-! ## Trimming -/

theorem trim_eq_self {cs : List Char} (head : cs.head?.any isBlank = false)
    (last : cs.getLast?.any isBlank = false) : trim cs = cs := by
  have front : cs.dropWhile isBlank = cs := by
    cases cs with
    | nil => rfl
    | cons c rest => exact List.dropWhile_cons_of_neg (by simpa using head)
  rw [trim, strip, front]
  change cs.rdropWhile isBlank = cs
  rw [List.rdropWhile_eq_self_iff]
  intro some_char
  rw [List.getLast?_eq_some_getLast some_char] at last
  simpa using last

/-- A blank behind what begins with another character is removed. -/
theorem trim_concat_blank {cs : List Char} (head : cs.head?.any isBlank = false) (some_char : cs ≠ [])
    {c : Char} (blank : isBlank c = true) : trim (cs ++ [c]) = trim cs := by
  cases cs with
  | nil => exact absurd rfl some_char
  | cons first rest =>
    have plain : ¬isBlank first = true := by simpa using head
    have whole : (first :: rest).dropWhile isBlank = first :: rest := List.dropWhile_cons_of_neg plain
    have longer : (first :: rest ++ [c]).dropWhile isBlank = first :: rest ++ [c] :=
      List.dropWhile_cons_of_neg plain
    rw [trim, trim, strip, strip, whole, longer]
    exact List.rdropWhile_concat_pos isBlank (first :: rest) c blank

theorem getLast?_trim (cs : List Char) : (trim cs).getLast?.any isBlank = false := by
  change ((cs.dropWhile isBlank).rdropWhile isBlank).getLast?.any isBlank = false
  cases last : ((cs.dropWhile isBlank).rdropWhile isBlank).getLast? with
  | none => rfl
  | some c =>
    have some_char : (cs.dropWhile isBlank).rdropWhile isBlank ≠ [] := by
      intro nothing
      rw [nothing] at last
      cases last
    have notBlank := List.rdropWhile_last_not isBlank _ some_char
    rw [List.getLast?_eq_some_getLast some_char] at last
    cases last
    simpa using notBlank

theorem mem_of_mem_trim {c : Char} {cs : List Char} (mem : c ∈ trim cs) : c ∈ cs := by
  have inFront := (List.rdropWhile_prefix isBlank (cs.dropWhile isBlank)).subset mem
  exact (List.dropWhile_suffix isBlank).subset inFront

/-! ## Cutting at a separator -/

/-- What begins with a separator begins with a blank. -/
theorem isPrefixOf_fieldSeparator_of_plain {c : Char} (plain : isBlank c = false) (rest : List Char) :
    fieldSeparator.isPrefixOf (c :: rest) = false := by
  have other : c ≠ ' ' := by
    rintro rfl
    cases plain
  simp [fieldSeparator, List.isPrefixOf, Ne.symm other]

/-- Behind a word, the first separator is the one that was put there. -/
theorem breakOn?_word {front : List Char} (plain : ∀ c ∈ front, isBlank c = false) (rest : List Char) :
    breakOn? fieldSeparator (front ++ (fieldSeparator ++ rest)) = some (front, rest) := by
  have go : ∀ before, breakOn?.go fieldSeparator before (front ++ (fieldSeparator ++ rest)) =
      some (before.reverse ++ front, rest) := by
    induction front with
    | nil =>
      intro before
      rw [List.append_nil]
      rfl
    | cons c cs ih =>
      intro before
      obtain ⟨first, others⟩ := List.forall_mem_cons.mp plain
      rw [List.cons_append, breakOn?.go, isPrefixOf_fieldSeparator_of_plain first]
      rw [if_neg Bool.false_ne_true, ih others, List.reverse_cons, List.append_assoc]
      rfl
  exact go []

/-- What was cut is put together again. -/
theorem eq_of_breakOn? {separator cs before behind : List Char}
    (cut : breakOn? separator cs = some (before, behind)) : cs = before ++ (separator ++ behind) := by
  have go : ∀ cs taken, breakOn?.go separator taken cs = some (before, behind) →
      taken.reverse ++ cs = before ++ (separator ++ behind) := by
    intro cs
    induction cs with
    | nil =>
      intro taken found
      rw [breakOn?.go] at found
      split at found
      next empty =>
        cases found
        rw [List.isEmpty_iff.mp empty]
        rfl
      next => cases found
    | cons c cs ih =>
      intro taken found
      rw [breakOn?.go] at found
      split at found
      next starts =>
        cases found
        obtain ⟨rest, split⟩ := List.isPrefixOf_iff_prefix.mp starts
        rw [← split, List.drop_left]
      next =>
        have inner := ih (c :: taken) found
        rwa [List.reverse_cons, List.append_assoc] at inner
  exact go cs [] cut

end Text

/-! ## One line -/

/-- The characters of a line, without the line feed at its end. -/
def lineChars (timestamp event detail : List Char) : List Char :=
  timestamp ++ (fieldSeparator ++ (event ++ (fieldSeparator ++ detail)))

theorem getLast?_lineChars {timestamp event detail : List Char} (some_char : detail ≠ []) :
    (lineChars timestamp event detail).getLast? = detail.getLast? := by
  rw [lineChars, ← List.append_assoc, ← List.append_assoc, ← List.append_assoc,
    List.getLast?_append_of_ne_nil _ some_char]

namespace Diagnostic

/-- The time and the event are words, and the detail is a string that fits the end of a line. -/
structure Fits (entry : Diagnostic) : Prop where
  timestamp : Text.IsWord entry.timestamp.toList
  event : Text.IsWord entry.event.toList
  string : entry.detail.IsString
  detail : entry.detail.FitsLine

/-- The line of a diagnostic. -/
theorem line_eq (timestamp event detail : String) :
    line ⟨timestamp, event, detail⟩ =
      Text.ofChars (lineChars timestamp.toList event.toList detail.toList ++ ['\n']) := by
  have points : ∀ cs : List Char, (Text.ofChars cs).points = cs.map .char := fun _ => rfl
  have append : ∀ a b : Text, (a ++ b).points = a.points ++ b.points := fun _ _ => rfl
  have separator : " | ".toList = fieldSeparator := by decide
  have lineFeed : "\n".toList = ['\n'] := by decide
  apply congrArg Text.mk
  simp only [Text.ofString, points, append, separator, lineFeed, lineChars, List.map_append,
    List.append_assoc]

/-- A line whose fields fit it is read as it was written. -/
theorem ofLine?_lineChars {timestamp event detail : String} (first : Text.IsWord timestamp.toList)
    (second : Text.IsWord event.toList) (fits : (detail : Text).FitsLine) :
    ofLine? (lineChars timestamp.toList event.toList detail.toList) =
      some ⟨timestamp, event, detail⟩ := by
  obtain ⟨some_char, -, -, ended⟩ := Text.fitsLine_ofChars.mp fits
  have trimmed : Text.trim (lineChars timestamp.toList event.toList detail.toList) =
      lineChars timestamp.toList event.toList detail.toList := by
    apply Text.trim_eq_self
    · rw [lineChars, List.head?_append_of_ne_nil _ first.some_char]
      exact first.head?_any
    · rw [getLast?_lineChars some_char]
      exact ended
  rw [ofLine?, trimmed, lineChars, Text.breakOn?_word first.plain]
  dsimp only
  rw [Text.breakOn?_word second.plain]
  simp only [String.ofList_toList]
  rfl

/-- Where the fields of a line that is read stood in it. -/
theorem ofLine?_eq_some {cs : List Char} {entry : Diagnostic} (read : ofLine? cs = some entry) :
    (∃ detail, Text.trim cs = lineChars entry.timestamp.toList entry.event.toList detail ∧
        entry.detail = Text.ofChars detail) ∨
      (Text.trim cs = entry.timestamp.toList ++ (fieldSeparator ++ entry.event.toList) ∧
        entry.detail = "") := by
  unfold ofLine? at read
  split at read
  next => cases read
  next timestamp rest first =>
    have split := Text.eq_of_breakOn? first
    split at read
    next =>
      cases read
      refine .inr ⟨?_, rfl⟩
      rw [split, String.toList_ofList, String.toList_ofList]
    next event detail second =>
      cases read
      refine .inl ⟨detail, ?_, rfl⟩
      rw [split, Text.eq_of_breakOn? second, String.toList_ofList, String.toList_ofList]
      rfl

/-- A line whose detail is empty is read with the second bar in its event: trimming leaves no separator
there. -/
theorem ofLine?_withoutDetail {timestamp event : String} (first : Text.IsWord timestamp.toList)
    (second : Text.IsWord event.toList) :
    ofLine? (lineChars timestamp.toList event.toList []) = some ⟨timestamp, event ++ " |", ""⟩ := by
  have bar : (event ++ " |").toList = event.toList ++ [' ', '|'] := by
    rw [String.toList_append]
    rfl
  have line : lineChars timestamp.toList event.toList [] =
      (timestamp.toList ++ (fieldSeparator ++ (event ++ " |").toList)) ++ [' '] := by
    rw [bar]
    simp only [lineChars, fieldSeparator, List.append_assoc, List.cons_append, List.nil_append,
      List.append_nil]
  have trimmed : Text.trim (lineChars timestamp.toList event.toList []) =
      timestamp.toList ++ (fieldSeparator ++ (event ++ " |").toList) := by
    have some_char := first.some_char
    have front : ∀ behind : List Char,
        (timestamp.toList ++ behind).head?.any Text.isBlank = false := by
      intro behind
      rw [List.head?_append_of_ne_nil _ some_char]
      exact first.head?_any
    rw [line, Text.trim_concat_blank (front _) (by simp [some_char]) (by decide)]
    refine Text.trim_eq_self (front _) ?_
    rw [bar, List.getLast?_append_of_ne_nil _ (by simp), List.getLast?_append_of_ne_nil _ (by simp),
      List.getLast?_append_of_ne_nil _ (by simp)]
    rfl
  have uncut : Text.breakOn? fieldSeparator (event ++ " |").toList = none := by
    cases cut : Text.breakOn? fieldSeparator (event ++ " |").toList with
    | none => rfl
    | some pair =>
      -- a separator has two blanks, and there is one behind the word
      have blanks := congrArg (List.countP Text.isBlank) (Text.eq_of_breakOn? cut)
      have none_inside : event.toList.countP Text.isBlank = 0 :=
        List.countP_eq_zero.mpr fun c mem => by simp [second.plain c mem]
      have one : [' ', '|'].countP Text.isBlank = 1 := by decide
      have two : fieldSeparator.countP Text.isBlank = 2 := by decide
      rw [bar] at blanks
      simp only [List.countP_append, none_inside, one, two] at blanks
      omega
  rw [ofLine?, trimmed, Text.breakOn?_word first.plain]
  dsimp only
  rw [uncut]
  simp only [String.ofList_toList]

/-- The characters of a line that fits hold no line end. -/
theorem notMem_lineChars {timestamp event detail : String} (first : Text.IsWord timestamp.toList)
    (second : Text.IsWord event.toList) {c : Char} (blank : Text.isBlank c = true) (other : c ≠ ' ')
    (plain : c ∉ detail.toList) :
    c ∉ lineChars timestamp.toList event.toList detail.toList := by
  have separator : c ∉ fieldSeparator := by
    have bar : c ≠ '|' := by
      rintro rfl
      cases blank
    simp [fieldSeparator, other, bar]
  simp only [lineChars, List.mem_append, not_or]
  exact ⟨first.notMem blank, separator, second.notMem blank, separator, plain⟩

end Diagnostic

/-! ## All lines -/

/-- The first line is read by itself. -/
theorem diagnosticsOf_append {cs : List Char} (noLineFeed : '\n' ∉ cs) (noReturn : '\r' ∉ cs)
    (rest : List Char) :
    diagnosticsOf (cs ++ '\n' :: rest) = (Diagnostic.ofLine? cs).toList ++ diagnosticsOf rest := by
  have lines : Text.splitLines (Text.unifyNewlines (cs ++ '\n' :: rest)) =
      cs :: Text.splitLines (Text.unifyNewlines rest) := by
    rw [Text.unifyNewlines_append noReturn, Text.unifyNewlines_cons (by decide)]
    exact Text.splitOn_append noLineFeed _
  rw [diagnosticsOf, lines, List.filterMap_cons]
  cases Diagnostic.ofLine? cs <;> rfl

theorem diagnosticsOf_nil : diagnosticsOf [] = [] := by decide

/-- A diagnostic whose detail is a string is written, in front of those behind it. -/
theorem linesOf_cons_string (timestamp event detail : String) (rest : List Diagnostic) :
    linesOf (⟨timestamp, event, detail⟩ :: rest) =
      String.ofList (lineChars timestamp.toList event.toList detail.toList ++ ['\n']) ::
        linesOf rest := by
  rw [linesOf, List.map_cons, Diagnostic.line_eq, Text.writable, Text.string?, Text.chars?_ofChars]
  rfl

/-- A diagnostic that fits is written as a line that is read as it. -/
theorem linesOf_cons {entry : Diagnostic} (fits : entry.Fits) (rest : List Diagnostic) :
    ∃ cs : List Char, '\n' ∉ cs ∧ '\r' ∉ cs ∧ Diagnostic.ofLine? cs = some entry ∧
      linesOf (entry :: rest) = String.ofList (cs ++ ['\n']) :: linesOf rest := by
  obtain ⟨timestamp, event, _⟩ := entry
  obtain ⟨first, second, ⟨detail, rfl⟩, fitsLine⟩ := fits
  obtain ⟨-, noLineFeed, noReturn, -⟩ := Text.fitsLine_ofChars.mp fitsLine
  refine ⟨_, Diagnostic.notMem_lineChars first second (by decide) (by decide) noLineFeed,
    Diagnostic.notMem_lineChars first second (by decide) (by decide) noReturn,
    Diagnostic.ofLine?_lineChars first second fitsLine, ?_⟩
  exact linesOf_cons_string timestamp event detail rest

/-- **Diagnostics that fit their lines are read back**: all of them are written, and each is read once and
in its place. -/
theorem diagnosticsOf_linesOf {entries : List Diagnostic} (fit : ∀ entry ∈ entries, entry.Fits) :
    (linesOf entries).length = entries.length ∧
      diagnosticsOf (String.join (linesOf entries)).toList = entries := by
  induction entries with
  | nil => exact ⟨rfl, diagnosticsOf_nil⟩
  | cons entry rest ih =>
    obtain ⟨first, others⟩ := List.forall_mem_cons.mp fit
    obtain ⟨count, read⟩ := ih others
    obtain ⟨cs, noLineFeed, noReturn, readFirst, lines⟩ := linesOf_cons first rest
    rw [lines]
    constructor
    · rw [List.length_cons, List.length_cons, count]
    · rw [String.join_cons, String.toList_append, String.toList_ofList, List.append_assoc,
        List.singleton_append, diagnosticsOf_append noLineFeed noReturn, readFirst, read]
      rfl

/-- A diagnostic without a detail is not read back: the bar in front of the detail stays with the event. -/
theorem diagnosticsOf_linesOf_withoutDetail {timestamp event : String}
    (first : Text.IsWord timestamp.toList) (second : Text.IsWord event.toList) :
    diagnosticsOf (String.join (linesOf [⟨timestamp, event, ""⟩])).toList =
      [⟨timestamp, event ++ " |", ""⟩] := by
  have plain : ∀ {c : Char}, Text.isBlank c = true → c ≠ ' ' →
      c ∉ lineChars timestamp.toList event.toList "".toList := fun blank other =>
    Diagnostic.notMem_lineChars first second blank other List.not_mem_nil
  have read := Diagnostic.ofLine?_withoutDetail first second
  rw [linesOf_cons_string, String.join_cons, String.toList_append, String.toList_ofList,
    List.append_assoc, List.singleton_append,
    diagnosticsOf_append (plain (by decide) (by decide)) (plain (by decide) (by decide))]
  rw [String.toList_empty, read]
  rfl

/-- A diagnostic of a log is read from a line of it, which no line end interrupts. -/
theorem line_of_mem_diagnosticsOf {text : List Char} {entry : Diagnostic} (mem : entry ∈ diagnosticsOf text) :
    ∃ cs, Diagnostic.ofLine? cs = some entry ∧ '\n' ∉ cs ∧ '\r' ∉ cs := by
  obtain ⟨cs, line, read⟩ := List.mem_filterMap.mp mem
  obtain ⟨noLineFeed, inside⟩ := Text.piece_of_mem_splitOn line
  exact ⟨cs, read, noLineFeed, fun among => Text.notMem_unifyNewlines text (inside among)⟩

/-- **What is read from a log**: whatever the log holds, the detail of a diagnostic in it fits a line, or
there is none and the time and the event are the whole of a line. -/
theorem fitsLine_of_mem_diagnosticsOf {text : List Char} {entry : Diagnostic}
    (mem : entry ∈ diagnosticsOf text) :
    entry.detail = "" ∨ entry.detail.IsString ∧ entry.detail.FitsLine := by
  obtain ⟨cs, read, noLineFeed, noReturn⟩ := line_of_mem_diagnosticsOf mem
  rcases Diagnostic.ofLine?_eq_some read with ⟨detail, trimmed, eq⟩ | ⟨-, empty⟩
  · have ended := Text.getLast?_trim cs
    have among : ∀ {c}, c ∈ detail → c ∈ cs := by
      intro c mem
      apply Text.mem_of_mem_trim
      rw [trimmed]
      simp [lineChars, mem]
    have some_char : detail ≠ [] := by
      -- with nothing behind it, the last separator would leave a blank at the end of the line
      rintro rfl
      have last : (lineChars entry.timestamp.toList entry.event.toList []).getLast? = some ' ' := by
        rw [lineChars, List.append_nil, ← List.append_assoc, ← List.append_assoc,
          List.getLast?_append_of_ne_nil _ (by decide)]
        rfl
      rw [trimmed, last] at ended
      cases ended
    rw [trimmed, getLast?_lineChars some_char] at ended
    rw [eq]
    refine .inr ⟨⟨String.ofList detail, ?_⟩, Text.fitsLine_ofChars.mpr ?_⟩
    · rw [Text.ofString, String.toList_ofList]
    · exact ⟨some_char, fun mem => noLineFeed (among mem), fun mem => noReturn (among mem), ended⟩
  · exact .inl empty

/-- **One diagnostic and its line**: it is read back exactly if its detail is a string that fits the
line. -/
theorem diagnosticsOf_linesOf_singleton_iff {timestamp event : String}
    (first : Text.IsWord timestamp.toList) (second : Text.IsWord event.toList) (detail : Text) :
    diagnosticsOf (String.join (linesOf [⟨timestamp, event, detail⟩])).toList =
        [⟨timestamp, event, detail⟩] ↔ detail.IsString ∧ detail.FitsLine := by
  constructor
  · intro read
    have mem : (⟨timestamp, event, detail⟩ : Diagnostic) ∈
        diagnosticsOf (String.join (linesOf [⟨timestamp, event, detail⟩])).toList := by
      rw [read]
      exact List.mem_singleton_self _
    rcases fitsLine_of_mem_diagnosticsOf mem with empty | fits
    · -- without a detail, the event that is read is another one
      have nothing : detail = "" := empty
      rw [nothing, diagnosticsOf_linesOf_withoutDetail first second, List.singleton_inj] at read
      have longer := congrArg String.length (congrArg Diagnostic.event read)
      simp at longer
    · exact fits
  · rintro ⟨string, fits⟩
    have fit : ∀ entry ∈ [(⟨timestamp, event, detail⟩ : Diagnostic)], entry.Fits := by
      rw [List.forall_mem_singleton]
      exact ⟨first, second, string, fits⟩
    exact (diagnosticsOf_linesOf fit).2

end HostDecl
