import HostDecl.Text.Basic

/-!
# Blank characters and trimming

One class of blank characters serves the whole library: the ASCII controls that separate, the space,
and the space separators beyond ASCII. Zero-width characters are not blank: a zero-width space or a
byte order mark at the end of a line stays.
-/

namespace HostDecl.Text

/-- A character that trimming removes. -/
def isBlank (c : Char) : Bool :=
  let n := c.toNat
  (0x09 ≤ n && n ≤ 0x0d) || (0x1c ≤ n && n ≤ 0x20) || n == 0x85 || n == 0xa0 || n == 0x1680 ||
  (0x2000 ≤ n && n ≤ 0x200a) || n == 0x2028 || n == 0x2029 || n == 0x202f || n == 0x205f ||
  n == 0x3000

/-- Removes from the end what `drops` says. -/
def stripEnd {α : Type} (drops : α → Bool) (list : List α) : List α :=
  (list.reverse.dropWhile drops).reverse

/-- Removes from both ends what `drops` says. -/
def strip {α : Type} (drops : α → Bool) (list : List α) : List α :=
  stripEnd drops (list.dropWhile drops)

/-- Removes the blanks at the end. -/
def trimEnd (cs : List Char) : List Char := stripEnd isBlank cs

/-- Removes the blanks at both ends. -/
def trim (cs : List Char) : List Char := strip isBlank cs

/-- A text of blanks only, the empty text included. -/
def allBlank (cs : List Char) : Bool := cs.all isBlank

/-- Whether trimming removes a code point. A half is not blank. -/
def isBlankPoint : CodePoint → Bool
  | .char c => isBlank c
  | .half _ => false

/-- The text without blanks at its end. -/
def trimmedEnd (t : Text) : Text := ⟨stripEnd isBlankPoint t.points⟩

/-- The text without blanks at its ends. -/
def trimmed (t : Text) : Text := ⟨strip isBlankPoint t.points⟩

/-- The ASCII letters in lower case, every other character as it is. Enough wherever the words
looked for are ASCII: no character outside ASCII has one of their letters as its lower case. -/
def asciiLower (s : String) : String := s.map Char.toLower

/-- A character without its case, where the words looked for are those that `asciiLower` serves: the
long s is an s too. -/
def foldChar (c : Char) : Char := if c = 'ſ' then 's' else c.toLower

/-- The text without its case. -/
def caseFolded (s : String) : String := s.map foldChar

/-! ## What stays -/

section

variable {α : Type} {drops : α → Bool}

/-- What is kept of the items behind one keeps that one. -/
theorem stripEnd_cons (item : α) (list : List α) :
    stripEnd drops (item :: list) =
      if stripEnd drops list = [] then (if drops item then [] else [item])
      else item :: stripEnd drops list := by
  simp only [stripEnd, List.reverse_cons, List.dropWhile_append, List.isEmpty_iff,
    List.reverse_eq_nil_iff]
  split
  next nothing => cases held : drops item <;> simp [held]
  next => simp

/-- Nothing is removed in front of an item that stays. -/
theorem stripEnd_append {item : α} (stays : drops item = false) (front behind : List α) :
    stripEnd drops (front ++ item :: behind) = front ++ item :: stripEnd drops behind := by
  induction front with
  | nil =>
    rw [List.nil_append, stripEnd_cons, stays]
    split
    next nothing => rw [nothing]; rfl
    next => rfl
  | cons first rest ih => rw [List.cons_append, stripEnd_cons, ih, if_neg (by simp)]; rfl

/-- What is left does not end in an item that is removed. -/
theorem getLast?_stripEnd_any (list : List α) : (stripEnd drops list).getLast?.any drops = false := by
  rw [stripEnd, List.getLast?_reverse]
  have first := List.head?_dropWhile_not drops list.reverse
  cases kept : (list.reverse.dropWhile drops).head? with
  | none => rfl
  | some item =>
    rw [kept] at first
    simpa using first

end

end HostDecl.Text
