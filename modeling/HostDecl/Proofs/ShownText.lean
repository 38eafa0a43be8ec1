import HostDecl.Diagnostic.Table
import HostDecl.Command.Run
import Mathlib.Data.List.Basic

/-!
# Text that is shown as it is

Laying out a text for a terminal can change it: a backslash in front of a bracket goes, controls go, tabs
become spaces, and what is too wide for its cell goes on in a further line. None of it happens to a text
that has no such character, in a cell that is wide enough; and the columns of a table are as wide as their
cells ask for.

- `Diagnostic.shown_of_showsAsIs`: a diagnostic of such texts is shown as its time to the second, its event
  and its detail, with a space between them.
- `Diagnostic.shown_oneLine`: whatever its texts hold, if it is no line feed then the diagnostic is one line.
- `Table.draw_of_plain`: a table of visible ASCII has one line for each row, which holds the three cells.

The layout knows no width of the terminal, and it leaves styles in a text and symbols that are named between
colons as they are. So nothing is said here about a bracket that opens.
-/

namespace HostDecl

namespace Text

/-- A character that stays where it is laid out: it moves no cursor, takes no further room, and is not a
part of a style. -/
def Stays (c : Char) : Prop := isMovement c = false ∧ c ≠ '\t' ∧ c ≠ '\\' ∧ c ≠ '['

instance (c : Char) : Decidable (Stays c) := inferInstanceAs (Decidable (_ ∧ _))

/-- A text whose characters stay. -/
def ShowsAsIs (cs : List Char) : Prop := ∀ c ∈ cs, Stays c

instance (cs : List Char) : Decidable (ShowsAsIs cs) := List.decidableBAll Stays cs

theorem showsAsIs_append {front behind : List Char} :
    ShowsAsIs (front ++ behind) ↔ ShowsAsIs front ∧ ShowsAsIs behind :=
  List.forall_mem_append

theorem ShowsAsIs.spaced {cs : List Char} (stays : ShowsAsIs cs) : ShowsAsIs (' ' :: cs) :=
  List.forall_mem_cons.mpr ⟨by decide, stays⟩

/-! ## Lines -/

theorem ShowsAsIs.unprotected {cs : List Char} (stays : ShowsAsIs cs) : unprotected cs = cs := by
  induction cs with
  | nil => rfl
  | cons c rest ih =>
    obtain ⟨⟨-, -, noSlash, -⟩, others⟩ := List.forall_mem_cons.mp stays
    rw [Text.unprotected, ih others]
    intro _ slash
    exact absurd slash noSlash

theorem ShowsAsIs.styled {cs : List Char} (stays : ShowsAsIs cs) : styled cs = cs := by
  have noSlash : cs.reverse.takeWhile (· == '\\') = [] := by
    cases reversed : cs.reverse with
    | nil => rfl
    | cons last others =>
      have mem : last ∈ cs := List.mem_reverse.mp (reversed ▸ List.mem_cons_self)
      rw [List.takeWhile_cons_of_neg]
      simpa using (stays last mem).2.2.1
  rw [Text.styled, noSlash]
  simp [stays.unprotected]

theorem ShowsAsIs.withoutMovements {cs : List Char} (stays : ShowsAsIs cs) :
    withoutMovements cs = cs := by
  rw [Text.withoutMovements, List.filter_eq_self]
  intro c mem
  rw [(stays c mem).1]
  rfl

theorem ShowsAsIs.expandTabsFrom {cs : List Char} (stays : ShowsAsIs cs) (column : Nat) :
    expandTabsFrom column cs = cs := by
  induction cs generalizing column with
  | nil => rfl
  | cons c rest ih =>
    obtain ⟨⟨-, noTab, -⟩, others⟩ := List.forall_mem_cons.mp stays
    rw [Text.expandTabsFrom, if_neg noTab, ih others]

theorem ShowsAsIs.expandTabs {cs : List Char} (stays : ShowsAsIs cs) : expandTabs cs = cs :=
  stays.expandTabsFrom 0

theorem unprotected_sublist (cs : List Char) : (unprotected cs).Sublist cs := by
  fun_induction unprotected cs with
  | case1 rest ih => exact (ih.cons_cons '[').cons '\\'
  | case2 c rest _ ih => exact ih.cons_cons c
  | case3 => exact List.Sublist.slnil

theorem mem_of_mem_styled {c : Char} {cs : List Char} (mem : c ∈ styled cs) :
    c ∈ cs ∨ c = '\\' ∨ c ∈ styleEnd := by
  rw [styled, List.mem_append, List.mem_append] at mem
  rcases mem with (inside | slash) | mark
  · exact .inl (List.mem_of_mem_take ((unprotected_sublist _).subset inside))
  · exact .inr (.inl (List.mem_replicate.mp slash).2)
  · split at mark
    · cases mark
    · exact .inr (.inr mark)

theorem mem_of_mem_expandTabsFrom {c : Char} {cs : List Char} {column : Nat}
    (mem : c ∈ expandTabsFrom column cs) : c = ' ' ∨ c ∈ cs := by
  induction cs generalizing column with
  | nil => cases mem
  | cons first rest ih =>
    rw [expandTabsFrom] at mem
    split at mem
    · rcases List.mem_append.mp mem with gap | below
      · exact .inl (List.mem_replicate.mp gap).2
      · exact (ih below).imp_right (List.mem_cons_of_mem _)
    · rcases List.mem_cons.mp mem with rfl | below
      · exact .inr List.mem_cons_self
      · exact (ih below).imp_right (List.mem_cons_of_mem _)

theorem spelled_ofString (s : String) : (ofString s).spelled = s := by
  apply String.toList_inj.mp
  simp [spelled, ofString, ofChars, CodePoint.spelled, List.flatMap_map]

end Text

open Text

namespace Diagnostic

/-- **A diagnostic is shown as it is**, its time to the second. -/
theorem shown_of_showsAsIs {entry : Diagnostic} (timed : ShowsAsIs (entry.timestamp.toList.take 19))
    (named : ShowsAsIs entry.event.toList) (detailed : ShowsAsIs entry.detail.spelled.toList) :
    entry.shown = String.ofList (entry.timestamp.toList.take 19) ++ " " ++ entry.event ++ " " ++
      entry.detail.spelled ++ "\n" := by
  have line : ShowsAsIs (entry.timestamp.toList.take 19 ++ ' ' :: entry.event.toList ++
      ' ' :: entry.detail.spelled.toList) :=
    showsAsIs_append.mpr ⟨showsAsIs_append.mpr ⟨timed, named.spaced⟩, detailed.spaced⟩
  rw [shown, timed.styled, named.styled, detailed.unprotected, line.withoutMovements, line.expandTabs]
  apply String.toList_inj.mp
  simp [String.toList_append]

/-- A diagnostic without a line feed is shown as one line. -/
theorem shown_oneLine {entry : Diagnostic} (timed : '\n' ∉ entry.timestamp.toList)
    (named : '\n' ∉ entry.event.toList) (detailed : '\n' ∉ entry.detail.spelled.toList) :
    ∃ line, '\n' ∉ line ∧ entry.shown = String.ofList line ++ "\n" := by
  refine ⟨_, ?_, rfl⟩
  intro mem
  rcases mem_of_mem_expandTabsFrom mem with space | mem
  · cases space
  have inside := (List.mem_filter.mp mem).1
  have styles : ∀ {cs : List Char}, '\n' ∉ cs → '\n' ∉ styled cs := by
    intro cs without among
    rcases mem_of_mem_styled among with there | slash | mark
    · exact without there
    · cases slash
    · exact absurd mark (by decide)
  rcases List.mem_append.mp inside with front | behind
  · rcases List.mem_append.mp front with first | second
    · exact styles (fun there => timed (List.mem_of_mem_take there)) first
    · rcases List.mem_cons.mp second with space | there
      · cases space
      · exact styles named there
  · rcases List.mem_cons.mp behind with space | there
    · cases space
    · exact detailed ((unprotected_sublist _).subset there)

end Diagnostic

/-! ## Plain text -/

namespace Text

/-- A visible ASCII character or a space, but neither a backslash nor a bracket that opens. -/
def IsPlainChar (c : Char) : Prop := 0x20 ≤ c.toNat ∧ c.toNat < 0x7f ∧ c ≠ '\\' ∧ c ≠ '['

instance (c : Char) : Decidable (IsPlainChar c) := inferInstanceAs (Decidable (_ ∧ _))

/-- A text of plain characters. -/
def AllPlain (cs : List Char) : Prop := ∀ c ∈ cs, IsPlainChar c

instance (cs : List Char) : Decidable (AllPlain cs) := List.decidableBAll IsPlainChar cs

theorem IsPlainChar.stays {c : Char} (plain : IsPlainChar c) : Stays c := by
  obtain ⟨visible, -, noSlash, noBracket⟩ := plain
  have other : ∀ control : Char, control.toNat < 0x20 → (c == control) = false := by
    intro control low
    rw [beq_eq_false_iff_ne]
    rintro rfl
    omega
  refine ⟨?_, ?_, noSlash, noBracket⟩
  · simp only [isMovement, Bool.or_eq_false_iff]
    exact ⟨⟨⟨⟨other _ (by decide), other _ (by decide)⟩, other _ (by decide)⟩, other _ (by decide)⟩,
      other _ (by decide)⟩
  · exact beq_eq_false_iff_ne.mp (other '\t' (by decide))

theorem AllPlain.showsAsIs {cs : List Char} (plain : AllPlain cs) : ShowsAsIs cs :=
  fun c mem => (plain c mem).stays

theorem AllPlain.sublist {part cs : List Char} (plain : AllPlain cs) (sublist : part.Sublist cs) :
    AllPlain part :=
  fun c mem => plain c (sublist.subset mem)

theorem IsPlainChar.cellWidth_eq {c : Char} (plain : IsPlainChar c) : cellWidth c = 1 := by
  obtain ⟨visible, ascii, -⟩ := plain
  rw [cellWidth, if_neg]
  omega

theorem AllPlain.width_eq {cs : List Char} (plain : AllPlain cs) : width cs = cs.length := by
  induction cs with
  | nil => rfl
  | cons c rest ih =>
    obtain ⟨first, others⟩ := List.forall_mem_cons.mp plain
    rw [width, first.cellWidth_eq, ih others, List.length_cons, Nat.add_comm]

theorem trimEnd_sublist (cs : List Char) : (trimEnd cs).Sublist cs := by
  have kept := (List.dropWhile_sublist (l := cs.reverse) isBlank).reverse
  rwa [List.reverse_reverse] at kept

end Text

/-! ## Cells -/

namespace Table

theorem flatten_consRun (c : Char) (runs : List (List Char)) :
    (consRun c runs).flatten = c :: runs.flatten := by
  unfold consRun
  split
  · split <;> simp
  · simp

/-- The words of a text are all of it. -/
theorem flatten_words (cs : List Char) : (words cs).flatten = cs := by
  have runs : (cs.foldr consRun []).flatten = cs := by
    induction cs with
    | nil => rfl
    | cons c rest ih => rw [List.foldr_cons, flatten_consRun, ih]
  unfold words
  split
  next blanks word rest cut =>
    rw [cut] at runs
    split
    · rw [← runs]
      simp
    · exact runs
  next => exact runs

/-- Words that fit stay on their line. -/
theorem fill_of_fits {room : Nat} {line : List Char} {rest : List (List Char)} {taken : Nat}
    (plain : AllPlain rest.flatten) (fits : taken + rest.flatten.length ≤ room) :
    fill room taken line rest = [line ++ rest.flatten] := by
  induction rest generalizing line taken with
  | nil => simp [fill]
  | cons word rest ih =>
    rw [List.flatten_cons] at plain fits
    obtain ⟨first, others⟩ : AllPlain word ∧ AllPlain rest.flatten := List.forall_mem_append.mp plain
    rw [List.length_append] at fits
    have trimmed : width (trimEnd word) ≤ word.length := by
      rw [(first.sublist (trimEnd_sublist word)).width_eq]
      exact (trimEnd_sublist word).length_le
    rw [fill, if_pos (by omega), first.width_eq, ih others (by omega), List.flatten_cons,
      List.append_assoc]

/-- A plain text takes one line of its cell, if it fits. -/
theorem cellLines_of_fits {room : Nat} {cs : List Char} (plain : AllPlain cs) (fits : cs.length ≤ room) :
    cellLines room cs = [cs] := by
  have one : fill room 0 [] (words cs) = [cs] := by
    have whole := flatten_words cs
    rw [fill_of_fits (whole.symm ▸ plain) (by rw [whole]; omega), whole, List.nil_append]
  have hangs : withoutOverhang room cs = cs := by
    have inside : cs.length - room = 0 := by omega
    rw [withoutOverhang, inside, Nat.min_zero, Nat.sub_zero, List.take_length]
  rw [cellLines, plain.showsAsIs.expandTabs, one, List.map_singleton, hangs, cutOff, plain.width_eq, if_pos fits]

theorem cellText_of_plain {s : String} (plain : AllPlain s.toList) : cellText s = s.toList := by
  rw [cellText, plain.showsAsIs.unprotected, plain.showsAsIs.withoutMovements]

/-! ## Columns -/

theorem not_isLineEnd {c : Char} (plain : IsPlainChar c) : isLineEnd c = false := by
  obtain ⟨visible, ascii, -⟩ := plain
  simp only [isLineEnd, Bool.or_eq_false_iff, Bool.and_eq_false_iff, decide_eq_false_iff_not,
    beq_eq_false_iff_ne]
  omega

/-- Where each character makes the line longer by one, the widest line is the last one or was there. -/
theorem foldl_widest {step : Nat × Nat → Char → Nat × Nat} {cs : List Char}
    (each : ∀ c ∈ cs, ∀ line widest, step (line, widest) c = (line + 1, max widest (line + 1)))
    {line widest : Nat} (inside : line ≤ widest) :
    (cs.foldl step (line, widest)).2 = max widest (line + cs.length) := by
  induction cs generalizing line widest with
  | nil => exact (Nat.max_eq_left inside).symm
  | cons c rest ih =>
    obtain ⟨first, others⟩ := List.forall_mem_cons.mp each
    rw [List.foldl_cons, first, ih others (Nat.le_max_right _ _), List.length_cons]
    omega

/-- A plain text is as wide as it is long. -/
theorem naturalWidth_of_plain {cs : List Char} (plain : AllPlain cs) : naturalWidth cs = cs.length := by
  rw [naturalWidth, foldl_widest _ (Nat.le_refl 0), Nat.zero_add, Nat.zero_max]
  intro c mem line widest
  have stays := plain c mem
  simp only [not_isLineEnd stays, stays.cellWidth_eq, Bool.false_eq_true, if_false]

theorem le_foldl_max {α : Type} (measure : α → Nat) (items : List α) (start : Nat) :
    start ≤ items.foldl (fun most item => max most (measure item)) start ∧
      ∀ item ∈ items, measure item ≤ items.foldl (fun most item => max most (measure item)) start := by
  induction items generalizing start with
  | nil => exact ⟨Nat.le_refl start, List.forall_mem_nil _⟩
  | cons first rest ih =>
    obtain ⟨fromStart, each⟩ := ih (max start (measure first))
    refine ⟨Nat.le_trans (Nat.le_max_left _ _) fromStart, List.forall_mem_cons.mpr ⟨?_, each⟩⟩
    exact Nat.le_trans (Nat.le_max_right _ _) fromStart

/-- A column has room for each of its plain cells. -/
theorem length_le_widest {header cell : String} {cells : List String} (mem : cell ∈ cells)
    (plain : AllPlain cell.toList) : cell.toList.length ≤ widest header cells := by
  have room := (le_foldl_max (fun cell => naturalWidth (cellText cell)) cells header.length).2 cell mem
  rwa [cellText_of_plain plain, naturalWidth_of_plain plain] at room

theorem isPlainChar_of_isDigit {c : Char} (digit : c.isDigit = true) : IsPlainChar c := by
  obtain ⟨fromZero, toNine⟩ := Char.isDigit_iff_toNat.mp digit
  have bounds : '0'.toNat = 0x30 ∧ '9'.toNat = 0x39 := ⟨rfl, rfl⟩
  refine ⟨by omega, by omega, ?_, ?_⟩
  · rintro rfl
    exact absurd digit (by decide)
  · rintro rfl
    exact absurd digit (by decide)

theorem allPlain_toString (n : Nat) : AllPlain (toString n).toList := by
  intro c mem
  rw [Nat.toString_eq_repr, Nat.repr, String.toList_ofList] at mem
  exact isPlainChar_of_isDigit (Nat.isDigit_of_mem_toDigits (by decide) (by decide) mem)

/-! ## Rows -/

/-- The line of a row: the event and the detail with spaces behind them, the count with spaces in front
of it, between bars. -/
def rowLine (w : Widths) (event detail count : String) : String :=
  "│ " ++ event ++ String.ofList (spaces (w.event - event.toList.length)) ++ " │ " ++
    detail ++ String.ofList (spaces (w.detail - detail.toList.length)) ++ " │ " ++
    String.ofList (spaces (w.count - count.toList.length)) ++ count ++ " │\n"

theorem row_of_plain {w : Widths} {event detail count : String} (named : AllPlain event.toList)
    (plain : AllPlain detail.toList) (digits : AllPlain count.toList)
    (eventFits : event.toList.length ≤ w.event) (detailFits : detail.toList.length ≤ w.detail)
    (countFits : count.toList.length ≤ w.count) :
    row '│' w event detail count = rowLine w event detail count := by
  rw [row, cellText_of_plain named, cellText_of_plain plain, cellText_of_plain digits,
    cellLines_of_fits named eventFits, cellLines_of_fits plain detailFits,
    cellLines_of_fits digits countFits]
  apply String.toList_inj.mp
  simp [cellsLine, rowLine, padRight, padLeft, named.width_eq, plain.width_eq, digits.width_eq,
    String.toList_append]

/-- The frame of a table around the lines of its rows. -/
def framed (w : Widths) (lines : List String) : String :=
  titleLine w ++ topRule.draw w ++ row '┃' w headers.1 headers.2.1 headers.2.2 ++ headRule.draw w ++
    String.join lines ++ bottomRule.draw w

/-- **A table of plain cells** has one line for each of its rows, in their order. -/
theorem draw_of_plain {rows : List (String × String × Nat)}
    (plain : ∀ row ∈ rows, AllPlain row.1.toList ∧ AllPlain row.2.1.toList) :
    draw rows = framed (widths rows)
      (rows.map fun (event, detail, count) => rowLine (widths rows) event detail (toString count)) := by
  have each : ∀ entry ∈ rows, row '│' (widths rows) entry.1 entry.2.1 (toString entry.2.2) =
      rowLine (widths rows) entry.1 entry.2.1 (toString entry.2.2) := by
    intro entry mem
    obtain ⟨named, detailed⟩ := plain entry mem
    apply row_of_plain named detailed (allPlain_toString _)
    · exact length_le_widest (List.mem_map.mpr ⟨entry, mem, rfl⟩) named
    · exact length_le_widest (List.mem_map.mpr ⟨entry, mem, rfl⟩) detailed
    · exact length_le_widest (List.mem_map.mpr ⟨entry, mem, rfl⟩) (allPlain_toString _)
  rw [draw, framed, List.map_congr_left each]

end Table

end HostDecl
