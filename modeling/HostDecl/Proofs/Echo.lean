import HostDecl.Diagnostic.Log
import HostDecl.Proofs.Parts
import HostDecl.Text.Terminal
import Mathlib.Data.Set.List

/-!
# Texts that are written

A text is written if it is a string, and echoed without its escape sequences.

- What occurs in a string is a string (`OccursIn.isString`), so a name that stands in a text that is
  written can be written as well.
- Diagnostics whose details are strings are all written to a log, a line for each (`lines_of_isString`).
- A tab ends no escape sequence and stands in none, so a text and what is put behind a tab are echoed
  independently (`withoutEscapes_tab`).
-/

namespace HostDecl

namespace Text

/-! ## Strings -/

/-- A text without halves of surrogate pairs. -/
def IsString (t : Text) : Prop := ∃ s : String, t = s

theorem isString_iff {t : Text} : t.IsString ↔ ∀ p ∈ t.points, ∃ c, CodePoint.char c = p := by
  have listed : t.IsString ↔ t.points ∈ Set.range (List.map CodePoint.char) := by
    constructor
    · rintro ⟨s, rfl⟩
      exact ⟨s.toList, rfl⟩
    · rintro ⟨cs, points⟩
      refine ⟨String.ofList cs, ?_⟩
      rw [ofString, String.toList_ofList, ofChars, points]
  rw [listed, Set.range_list_map]
  rfl

theorem isString_append {a b : Text} : (a ++ b).IsString ↔ a.IsString ∧ b.IsString := by
  simp only [isString_iff, points_append, List.forall_mem_append]

/-- What occurs in a string is a string. -/
theorem OccursIn.isString {part whole : Text} (inside : part.OccursIn whole) (string : whole.IsString) :
    part.IsString :=
  isString_iff.mpr fun p mem => isString_iff.mp string p (inside.subset mem)

theorem string?_eq_none_iff {t : Text} : t.string? = none ↔ ¬t.IsString := by
  constructor
  · rintro absent ⟨s, rfl⟩
    rw [string?_ofString] at absent
    cases absent
  · intro broken
    cases whole : t.string? with
    | none => rfl
    | some s => exact absurd ⟨s, (ofString_of_string? whole).symm⟩ broken

theorem string?_eq_some_iff {t : Text} {s : String} : t.string? = some s ↔ t = s := by
  constructor
  · exact fun whole => (ofString_of_string? whole).symm
  · rintro rfl
    exact string?_ofString s

/-- Behind a text that is written, a string is written. -/
theorem string?_append_string (t : Text) (s : String) :
    (t ++ (s : Text)).string? = t.string?.map (· ++ s) := by
  cases whole : t.string? with
  | none =>
    rw [string?_eq_none_iff] at whole
    exact string?_eq_none_iff.mpr fun both => whole (isString_append.mp both).1
  | some first =>
    rw [string?_eq_some_iff] at whole
    rw [whole, Option.map_some, string?_eq_some_iff, ofString_append]

/-- Texts that are all strings are all written. -/
theorem map_writable {texts : List Text} (strings : ∀ t ∈ texts, t.IsString) :
    (writable texts).map ofString = texts := by
  induction texts with
  | nil => rfl
  | cons t rest ih =>
    obtain ⟨⟨s, rfl⟩, others⟩ := List.forall_mem_cons.mp strings
    rw [writable, string?_ofString, List.map_cons, ih others]

theorem writable_ofString (texts : List String) : writable (texts.map ofString) = texts := by
  induction texts with
  | nil => rfl
  | cons s rest ih => rw [List.map_cons, writable, string?_ofString, ih]

/-- Some text is not written exactly if one of them is no string. -/
theorem length_writable_lt_iff {texts : List Text} :
    (writable texts).length < texts.length ↔ ∃ t ∈ texts, ¬t.IsString := by
  induction texts with
  | nil => simp [writable]
  | cons t rest ih =>
    rw [writable, List.exists_mem_cons_iff, ← ih]
    cases whole : t.string? with
    | none => exact iff_of_true (Nat.zero_lt_succ _) (.inl (string?_eq_none_iff.mp whole))
    | some s =>
      have string : t.IsString := ⟨s, string?_eq_some_iff.mp whole⟩
      simp [string]

/-! ## Escape sequences -/

/-- A cleaned text in front of a text whose beginning belongs to no escape sequence. -/
def Cleaned.before (t : Cleaned) (rest : List Char) : Cleaned :=
  ⟨t.kept ++ rest, t.pastLetter.map (· ++ rest), t.pastBracket.map (· ++ rest)⟩

theorem Cleaned.cons_before (c : Char) (t : Cleaned) (rest : List Char) :
    (t.before rest).cons c = (t.cons c).before rest := by
  simp only [cons, before, Cleaned.mk.injEq]
  refine ⟨?_, ?_, ?_⟩
  · split
    next => cases t.pastBracket <;> rfl
    next => rfl
  · split
    next => rfl
    next => split <;> rfl
  · split <;> rfl

theorem foldr_before (cs rest : List Char) :
    cs.foldr Cleaned.cons (Cleaned.empty.before rest) =
      (cs.foldr Cleaned.cons .empty).before rest := by
  induction cs with
  | nil => rfl
  | cons c cs ih => rw [List.foldr_cons, List.foldr_cons, ih, Cleaned.cons_before]

/-- **A tab divides a text for the echo.** -/
theorem withoutEscapes_tab (front behind : List Char) :
    withoutEscapes (front ++ '\t' :: behind) =
      withoutEscapes front ++ '\t' :: withoutEscapes behind := by
  have divided : ('\t' :: behind).foldr Cleaned.cons .empty =
      Cleaned.empty.before ('\t' :: withoutEscapes behind) := rfl
  rw [withoutEscapes, List.foldr_append, divided, foldr_before]
  rfl

end Text

/-- Diagnostics whose details are strings are all written. -/
theorem lines_of_isString {entries : List Diagnostic}
    (strings : ∀ entry ∈ entries, entry.detail.IsString) :
    (linesOf entries).map Text.ofString = entries.map Diagnostic.line := by
  refine Text.map_writable (List.forall_mem_map.mpr fun entry mem => ?_)
  simp only [Diagnostic.line, Text.isString_append]
  exact ⟨⟨⟨⟨⟨⟨_, rfl⟩, ⟨_, rfl⟩⟩, ⟨_, rfl⟩⟩, ⟨_, rfl⟩⟩, strings entry mem⟩, ⟨_, rfl⟩⟩

theorem length_linesOf {entries : List Diagnostic}
    (strings : ∀ entry ∈ entries, entry.detail.IsString) :
    (linesOf entries).length = entries.length := by
  have lengths := congrArg List.length (lines_of_isString strings)
  rwa [List.length_map, List.length_map] at lengths

end HostDecl
