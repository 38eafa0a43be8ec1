import HostDecl.Proofs.CommentEnd

/-!
# The lines of a comment

A comment has a line for each line of the text of a documentation, between a line that begins it and one
that ends it. Each of them is put together from the margin, a star and the line, and is trimmed as a
whole, but for an empty line.

**The law** (`lines_docComment`): the text can be read back from the comment, line by line, up to the
blanks at the ends of its lines. Trimming never reaches the star, so a line of blanks only is read back
as an empty line, and one space behind the star is no part of the text.

The margin may hold any code points but a line feed. One that ends like the beginning of a line of a
comment is no way around the law, because the margin is taken off as a whole.
-/

namespace HostDecl

namespace Text

/-! ## Lines -/

/-- A text without a line feed. -/
def IsLine (t : Text) : Prop := .char '\n' ∉ t.points

instance (t : Text) : Decidable t.IsLine := inferInstanceAs (Decidable (_ ∉ _))

/-- A text ends in a blank. -/
def EndsInBlank (t : Text) : Prop := t.points.getLast?.any isBlankPoint = true

instance (t : Text) : Decidable t.EndsInBlank := inferInstanceAs (Decidable (_ = true))

theorem isLine_append {a b : Text} : (a ++ b).IsLine ↔ a.IsLine ∧ b.IsLine := by
  simp only [IsLine, points_append, List.mem_append, not_or]

theorem isLine_of_mem_lines {t line : Text} (mem : line ∈ t.lines) : line.IsLine := by
  obtain ⟨piece, cut, rfl⟩ := List.mem_map.mp mem
  exact (piece_of_mem_splitOn cut).1

theorem IsLine.lines_eq {t : Text} (line : t.IsLine) : t.lines = [t] := by
  rw [lines, splitOn_eq_singleton line]
  rfl

theorem IsLine.lines_append {t : Text} (line : t.IsLine) (rest : Text) :
    (t ++ "\n" ++ rest).lines = t :: rest.lines := by
  have points : (t ++ "\n" ++ rest).points = t.points ++ .char '\n' :: rest.points :=
    List.append_assoc ..
  rw [lines, points, splitOn_append line]
  rfl

/-- Lines that are joined are the lines of the text they make. -/
theorem lines_intercalate {texts : List Text} (some_text : texts ≠ [])
    (each : ∀ t ∈ texts, t.IsLine) : (intercalate "\n" texts).lines = texts := by
  induction texts with
  | nil => exact absurd rfl some_text
  | cons t rest ih =>
    obtain ⟨line, others⟩ := List.forall_mem_cons.mp each
    cases rest with
    | nil => exact line.lines_eq
    | cons second more =>
      have some_rest := List.cons_ne_nil second more
      rw [intercalate_cons some_rest, line.lines_append, ih some_rest others]

/-! ## Blanks at the end -/

theorem not_endsInBlank_append {behind : Text} (some_point : behind.points ≠ [])
    (ended : ¬ behind.EndsInBlank) (front : Text) : ¬ (front ++ behind).EndsInBlank := by
  rwa [EndsInBlank, points_append, List.getLast?_append_of_ne_nil _ some_point]

theorem not_endsInBlank_trimmedEnd (t : Text) : ¬ t.trimmedEnd.EndsInBlank := by
  rw [EndsInBlank, trimmedEnd, getLast?_stripEnd_any]
  exact Bool.false_ne_true

theorem IsLine.trimmedEnd {t : Text} (line : t.IsLine) : t.trimmedEnd.IsLine := fun mem =>
  line (List.mem_reverse.mp ((List.dropWhile_sublist _).subset (List.mem_reverse.mp mem)))

/-- A text is trimmed behind its last star, if there is one. -/
theorem trimmedEnd_star (front behind : Text) :
    (front ++ "*" ++ behind).trimmedEnd = front ++ "*" ++ behind.trimmedEnd := by
  have points : (front ++ "*" ++ behind).points = front.points ++ .char '*' :: behind.points :=
    List.append_assoc ..
  have stays : isBlankPoint (.char '*') = false := by decide
  rw [Text.trimmedEnd, points, stripEnd_append stays, append_assoc]
  rfl

end Text

open Text

/-! ## A line of a comment -/

/-- Behind the star of a line stands the line of the text, behind a space and trimmed with it. -/
theorem docLine_eq (margin line : Text) :
    docLine margin line = margin ++ " *" ++ (" " ++ line).trimmedEnd := by
  have begun : margin ++ " *" = margin ++ " " ++ "*" := (append_assoc margin " " "*").symm
  rw [docLine]
  split
  next empty =>
    subst empty
    exact (append_empty _).symm
  next =>
    have star : margin ++ " * " ++ line = margin ++ " " ++ "*" ++ (" " ++ line) := by
      simp only [append_assoc]
      rfl
    rw [star, trimmedEnd_star, begun]

theorem not_endsInBlank_docLine (margin line : Text) : ¬ (docLine margin line).EndsInBlank := by
  have begun : margin ++ " *" = margin ++ " " ++ "*" := (append_assoc margin " " "*").symm
  rw [docLine_eq, begun, ← trimmedEnd_star]
  exact not_endsInBlank_trimmedEnd _

theorem isLine_docLine {margin line : Text} (oneLine : margin.IsLine) (part : line.IsLine) :
    (docLine margin line).IsLine := by
  have space : (" " : Text).IsLine := by decide
  have star : (" *" : Text).IsLine := by decide
  rw [docLine_eq]
  exact isLine_append.mpr ⟨isLine_append.mpr ⟨oneLine, star⟩,
    (isLine_append.mpr ⟨space, part⟩).trimmedEnd⟩

/-- What is behind a space, if there is one in front. -/
def behindSpace : List CodePoint → List CodePoint
  | .char ' ' :: rest => rest
  | points => points

/-- What a line of a comment says: what is behind the margin, a space and a star, and behind one more
space if there is one. Nothing for a line that does not begin like that. -/
def saidBy? (margin line : Text) : Option Text :=
  ((margin ++ " *").points.isPrefixOf? line.points).map fun rest => ⟨behindSpace rest⟩

/-- A space in front of a line that is trimmed is taken off again, or is gone with the blanks. -/
theorem behindSpace_trimmedEnd (line : Text) :
    behindSpace (" " ++ line).trimmedEnd.points = line.trimmedEnd.points := by
  have blank : isBlankPoint (.char ' ') = true := by decide
  change behindSpace (stripEnd isBlankPoint (.char ' ' :: line.points)) =
    stripEnd isBlankPoint line.points
  rw [stripEnd_cons, blank]
  split
  next nothing => exact nothing.symm
  next => rfl

/-- A line of a comment says the line of the text that it is made of. -/
theorem saidBy?_docLine (margin line : Text) :
    saidBy? margin (docLine margin line) = some line.trimmedEnd := by
  have taken : (margin ++ " *").points.isPrefixOf? (docLine margin line).points =
      some (" " ++ line).trimmedEnd.points := by
    rw [List.isPrefixOf?_eq_some_iff_append_eq, docLine_eq]
    rfl
  rw [saidBy?, taken, Option.map_some, behindSpace_trimmedEnd]

/-! ## The law -/

/-- **The lines of a comment say the lines of its text**, one for one and in order, between the line that
begins the comment and the one that ends it. -/
theorem lines_docComment {margin : Text} (oneLine : margin.IsLine) (parts : List DocPart) :
    let text := flatten parts
    ∃ (body : Text) (inner : List Text), docComment (some parts) margin = body ++ "\n" ∧
      body.lines = (margin ++ "/**") :: (inner ++ [margin ++ " */"]) ∧
      inner.length = text.lines.length ∧
      (∀ line ∈ body.lines, ¬ line.EndsInBlank) ∧
      inner.map (saidBy? margin) = text.lines.map fun line => some line.trimmedEnd := by
  intro text
  have opening : ("/**" : Text).IsLine := by decide
  have closing : (" */" : Text).IsLine := by decide
  have each : ∀ line ∈ docLines margin text, line.IsLine := by
    rw [docLines, List.forall_mem_cons, List.forall_mem_append, List.forall_mem_singleton,
      List.forall_mem_map]
    exact ⟨isLine_append.mpr ⟨oneLine, opening⟩,
      fun line mem => isLine_docLine oneLine (isLine_of_mem_lines mem),
      isLine_append.mpr ⟨oneLine, closing⟩⟩
  have body : (intercalate "\n" (docLines margin text)).lines = docLines margin text :=
    lines_intercalate (List.cons_ne_nil _ _) each
  refine ⟨intercalate "\n" (docLines margin text), text.lines.map (docLine margin), rfl, body, ?_, ?_, ?_⟩
  · exact List.length_map _
  · rw [body, docLines, List.forall_mem_cons, List.forall_mem_append, List.forall_mem_singleton,
      List.forall_mem_map]
    exact ⟨not_endsInBlank_append (by decide) (by decide) margin,
      fun line _ => not_endsInBlank_docLine margin line,
      not_endsInBlank_append (by decide) (by decide) margin⟩
  · rw [List.map_map]
    exact List.map_congr_left fun line _ => saidBy?_docLine margin line

/-- An indented line, a line of blanks and two empty ones come back from behind a margin that begins like
a line of a comment itself. -/
theorem lines_docComment_starredMargin :
    let parts : List DocPart := [.text "one \n\n \t\n  two: ", .link outsideLink, .text "\u2003\n"]
    (" * " : Text).IsLine ∧
      ∃ (body : Text) (inner : List Text), docComment (some parts) " * " = body ++ "\n" ∧
        body.lines.length = 7 ∧
        inner.map (saidBy? " * ") = (["one", "", "", "  two:", ""] : List Text).map some := by
  intro parts
  have oneLine : (" * " : Text).IsLine := by decide
  have said : ((flatten parts).lines.map fun line => some line.trimmedEnd) =
      (["one", "", "", "  two:", ""] : List Text).map some := by decide +kernel
  obtain ⟨body, inner, block, lines, length, -, back⟩ := lines_docComment oneLine parts
  have five : inner.length = 5 := length.trans (by decide +kernel)
  refine ⟨oneLine, body, inner, block, ?_, back.trans said⟩
  rw [lines, List.length_cons, List.length_append, five]
  rfl

end HostDecl
