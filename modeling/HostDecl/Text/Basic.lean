/-!
# Texts

A text is a sequence of code points. A code point is a character or half of a surrogate pair: a
character beyond the first 65536 can be written as a pair of sixteen-bit units, and a text that is
read from such units may hold one of them without the other. A half is no character, so a text that
holds one can be looked at, cut and compared, but it cannot be written.

The texts without halves are the strings: every string is a text (`string?_ofString`), and a text that
has a string is that string (`ofString_of_string?`).
-/

namespace HostDecl

/-- A unit of a text. -/
inductive CodePoint where
  /-- A character. -/
  | char (c : Char)
  /-- Half of a surrogate pair, by its place among the halves. -/
  | half (place : Fin 2048)
  deriving DecidableEq, Repr

namespace CodePoint

/-- The number of the first half. -/
def firstHalf : Nat := 0xd800

/-- The code point of a sixteen-bit unit. -/
def ofUnit (unit : Nat) : CodePoint :=
  if bounds : firstHalf ≤ unit ∧ unit < firstHalf + 2048 then
    .half ⟨unit - firstHalf, by omega⟩
  else .char (Char.ofNat unit)

/-- A character, or a half as an escape. -/
def spelled : CodePoint → List Char
  | .char c => [c]
  | .half place => '\\' :: 'u' :: Nat.toDigits 16 (firstHalf + place)

/-- A character in front of the characters behind it; nothing in front of or behind a half. -/
def consChar? : CodePoint → Option (List Char) → Option (List Char)
  | .char c, some cs => some (c :: cs)
  | _, _ => none

end CodePoint

/-- A text. -/
structure Text where
  /-- The code points. -/
  points : List CodePoint
  deriving DecidableEq, Repr, Inhabited

namespace Text

/-- The text of characters. -/
def ofChars (cs : List Char) : Text := ⟨cs.map .char⟩

/-- A string as a text. -/
def ofString (s : String) : Text := ofChars s.toList

instance : Coe String Text := ⟨ofString⟩

instance : Append Text := ⟨fun a b => ⟨a.points ++ b.points⟩⟩

/-- Texts one after the other. -/
def join : List Text → Text
  | [] => ""
  | t :: rest => t ++ join rest

/-- Texts one after the other, with a separator between them. -/
def intercalate (separator : Text) : List Text → Text
  | [] => ""
  | [t] => t
  | t :: rest => t ++ separator ++ intercalate separator rest

/-- The characters of a text without halves. -/
def chars? (t : Text) : Option (List Char) := t.points.foldr CodePoint.consChar? (some [])

/-- The string that a text without halves is. -/
def string? (t : Text) : Option String := t.chars?.map String.ofList

/-- The text with each half as an escape. -/
def spelled (t : Text) : String := String.ofList (t.points.flatMap CodePoint.spelled)

/-- The strings that texts are, up to a text that has none. -/
def writable : List Text → List String
  | [] => []
  | t :: rest =>
    match t.string? with
    | none => []
    | some s => s :: writable rest

/-! ## Strings and texts -/

/-- Characters are the characters of their text. -/
theorem chars?_ofChars (cs : List Char) : (ofChars cs).chars? = some cs := by
  induction cs with
  | nil => rfl
  | cons c cs ih =>
    simp only [chars?, ofChars] at ih
    simp only [chars?, ofChars, List.map_cons, List.foldr_cons, ih, CodePoint.consChar?]

/-- A text that has characters is their text. -/
theorem ofChars_of_chars? {t : Text} {cs : List Char} (whole : t.chars? = some cs) :
    ofChars cs = t := by
  obtain ⟨points⟩ := t
  induction points generalizing cs with
  | nil =>
    simp only [chars?, List.foldr_nil, Option.some.injEq] at whole
    simp [ofChars, ← whole]
  | cons p points ih =>
    simp only [chars?, List.foldr_cons] at whole ih
    cases rest : points.foldr CodePoint.consChar? (some []) with
    | none => cases p <;> simp [CodePoint.consChar?, rest] at whole
    | some ds =>
      cases p with
      | half place => simp [CodePoint.consChar?] at whole
      | char c =>
        have behind := ih rest
        simp only [CodePoint.consChar?, rest, Option.some.injEq] at whole
        simp only [ofChars, Text.mk.injEq] at behind
        simp [ofChars, ← whole, behind]

/-- A string is the string of its text. -/
theorem string?_ofString (s : String) : (ofString s).string? = some s := by
  simp [string?, ofString, chars?_ofChars]

/-- Strings differ as texts where they differ. -/
@[simp] theorem ofString_inj {a b : String} : ofString a = ofString b ↔ a = b := by
  refine ⟨fun same => ?_, fun same => same ▸ rfl⟩
  have strings := congrArg string? same
  simpa [string?_ofString] using strings

/-- A text that has a string is that string. -/
theorem ofString_of_string? {t : Text} {s : String} (whole : t.string? = some s) :
    ofString s = t := by
  simp only [string?, Option.map_eq_some_iff] at whole
  obtain ⟨cs, chars, rfl⟩ := whole
  simpa [ofString] using ofChars_of_chars? chars

end Text

end HostDecl
