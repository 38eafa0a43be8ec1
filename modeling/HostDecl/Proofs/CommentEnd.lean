import HostDecl.Doc.Block
import HostDecl.Proofs.Occurrences
import Mathlib.Algebra.GroupWithZero.Nat

/-!
# Where a comment ends

A comment ends at the first `*/` in it, whoever wrote it there. The comment of a documentation puts one
at its own end, and takes the text of the documentation over as it stands, line by line.

**The law** (`closers_docComment`): a comment holds the signs that end it once more than the text of the
documentation does. So the comment ends where it should exactly if its text is free of them, and that is
decided by the parts: they stand in a text, or in a name or label of a link, or a text ends in `*` and
the next one that is not empty begins with `/` (`occursIn_flatten_iff`). Links bring no half of them to a
seam, and a dropped link joins what stands around it.

**What it does not establish.** Nothing takes the signs out of a text: the comment of a documentation
that holds them ends early (`comment_ends_early`).
-/

namespace HostDecl

namespace Text

/-- The signs that end a comment. -/
def closer : Text := "*/"

/-- A text ends in the first half of the signs. -/
def EndsInStar (t : Text) : Prop := t.points.getLast? = some (.char '*')

/-- A text begins with the second half of the signs. -/
def BeginsWithSlash (t : Text) : Prop := t.points.head? = some (.char '/')

instance (t : Text) : Decidable t.EndsInStar := inferInstanceAs (Decidable (_ = _))

instance (t : Text) : Decidable t.BeginsWithSlash := inferInstanceAs (Decidable (_ = _))

/-- Spaces and tabs. -/
def IsIndent (t : Text) : Prop := ∀ p ∈ t.points, p = .char ' ' ∨ p = .char '\t'

instance (t : Text) : Decidable t.IsIndent := inferInstanceAs (Decidable (∀ p ∈ t.points, _))

/-- The ends of comments in a text. -/
def closers (t : Text) : Nat := closer.occurrences t

theorem closers_append (front behind : Text) :
    (front ++ behind).closers =
      front.closers + (if front.EndsInStar ∧ behind.BeginsWithSlash then 1 else 0) + behind.closers :=
  places_append front.points behind.points

/-- Where one half of the signs is missing at the seam, nothing is added. -/
theorem closers_append_of_not_star {front : Text} (noStar : ¬ front.EndsInStar) (behind : Text) :
    (front ++ behind).closers = front.closers + behind.closers := by
  rw [closers_append, if_neg fun seam => noStar seam.1, Nat.add_zero]

@[inherit_doc closers_append_of_not_star]
theorem closers_append_of_not_slash {behind : Text} (noSlash : ¬ behind.BeginsWithSlash)
    (front : Text) : (front ++ behind).closers = front.closers + behind.closers := by
  rw [closers_append, if_neg fun seam => noSlash seam.2, Nat.add_zero]

theorem endsInStar_append {front behind : Text} (some_point : behind.points ≠ []) :
    (front ++ behind).EndsInStar ↔ behind.EndsInStar := by
  rw [EndsInStar, EndsInStar, points_append, List.getLast?_append_of_ne_nil _ some_point]

theorem beginsWithSlash_append {front behind : Text} (some_point : front.points ≠ []) :
    (front ++ behind).BeginsWithSlash ↔ front.BeginsWithSlash := by
  rw [BeginsWithSlash, BeginsWithSlash, points_append, List.head?_append_of_ne_nil _ some_point]

/-! ## Lines -/

/-- A line end is no half of the signs. -/
theorem closers_append_newline (front behind : Text) :
    (front ++ "\n" ++ behind).closers = front.closers + behind.closers := by
  have noSlash : ¬ ("\n" : Text).BeginsWithSlash := by decide
  have noStar : ¬ (front ++ "\n").EndsInStar := by
    rw [endsInStar_append (by decide)]
    decide
  rw [closers_append_of_not_star noStar, closers_append_of_not_slash noSlash]
  rfl

theorem intercalate_cons {separator t : Text} {texts : List Text} (some_text : texts ≠ []) :
    intercalate separator (t :: texts) = t ++ separator ++ intercalate separator texts := by
  cases texts with
  | nil => exact absurd rfl some_text
  | cons second others => rfl

theorem intercalate_concat {separator last : Text} {texts : List Text} (some_text : texts ≠ []) :
    intercalate separator (texts ++ [last]) = intercalate separator texts ++ separator ++ last := by
  induction texts with
  | nil => exact absurd rfl some_text
  | cons t rest ih =>
    cases rest with
    | nil => rfl
    | cons second others =>
      have some_rest := List.cons_ne_nil second others
      rw [List.cons_append, intercalate_cons (List.append_ne_nil_of_left_ne_nil some_rest _),
        ih some_rest, intercalate_cons some_rest]
      simp only [append_assoc]

theorem closers_intercalate (texts : List Text) :
    (intercalate "\n" texts).closers = (texts.map closers).sum := by
  induction texts with
  | nil => rfl
  | cons t rest ih =>
    cases rest with
    | nil => rw [intercalate, List.map_singleton, List.sum_singleton]
    | cons second others =>
      rw [intercalate_cons (List.cons_ne_nil second others), closers_append_newline, ih]
      rfl

theorem points_intercalate_newline (pieces : List (List CodePoint)) :
    (intercalate "\n" (pieces.map Text.mk)).points = joinWith (.char '\n') pieces := by
  induction pieces with
  | nil => rfl
  | cons piece rest ih =>
    cases rest with
    | nil => rfl
    | cons second others =>
      rw [List.map_cons, intercalate_cons (by simp), points_append, points_append, ih,
        List.append_assoc]
      rfl

/-- The lines of a text make the text. -/
theorem intercalate_lines (t : Text) : intercalate "\n" t.lines = t := by
  have same : (intercalate "\n" t.lines).points = t.points := by
    rw [lines, points_intercalate_newline, joinWith_splitOn]
  exact congrArg Text.mk same

/-- The ends of comments in a text are those in its lines. -/
theorem sum_closers_lines (t : Text) : (t.lines.map closers).sum = t.closers := by
  rw [← closers_intercalate, intercalate_lines]

theorem closers_trimmedEnd (t : Text) : t.trimmedEnd.closers = t.closers :=
  places_stripEnd (by decide) (by decide) t.points

theorem closers_trimmed (t : Text) : (trimmed t).closers = t.closers :=
  places_strip (by decide) (by decide) t.points

/-- An indentation in front has no part in the end of a comment. -/
theorem IsIndent.closers_append {margin : Text} (indent : margin.IsIndent) (behind : Text) :
    (margin ++ behind).closers = behind.closers := by
  have absent : CodePoint.char '*' ∉ margin.points := fun mem => by
    rcases indent _ mem with same | same <;> cases same
  have none : margin.closers = 0 := places_of_notMem absent
  have noStar : ¬ margin.EndsInStar := fun star => absent (List.mem_of_getLast? star)
  rw [closers_append_of_not_star noStar, none, Nat.zero_add]

end Text

open Text

/-- A line of a comment holds what the line of the text does. -/
theorem closers_docLine {margin : Text} (indent : margin.IsIndent) (line : Text) :
    (docLine margin line).closers = line.closers := by
  rw [docLine]
  split
  next empty =>
    rw [indent.closers_append, empty]
    rfl
  next =>
    have noStar : ¬ (" * " : Text).EndsInStar := by decide
    rw [closers_trimmedEnd, Text.append_assoc, indent.closers_append,
      closers_append_of_not_star noStar]
    exact Nat.zero_add _

/-- What stands in a comment between the signs that begin it and those that end it. -/
def docInside (margin text : Text) : Text :=
  "\n" ++ (intercalate "\n" (text.lines.map (docLine margin)) ++ "\n" ++ (margin ++ " "))

theorem docBlock_eq (margin text : Text) :
    docBlock margin text = margin ++ "/**" ++ docInside margin text ++ closer ++ "\n" := by
  have some_line : text.lines.map (docLine margin) ≠ [] := by
    simpa [lines] using splitOn_ne_nil _ _
  rw [docBlock, docLines, intercalate_cons (by simp), intercalate_concat some_line]
  simp only [docInside, Text.append_assoc]
  rfl

theorem closers_docInside {margin : Text} (indent : margin.IsIndent) (text : Text) :
    (docInside margin text).closers = text.closers := by
  have noStar : ¬ ("\n" : Text).EndsInStar := by decide
  have sameLines : (text.lines.map (docLine margin)).map closers = text.lines.map closers := by
    rw [List.map_map]
    exact List.map_congr_left fun line _ => closers_docLine indent line
  rw [docInside, closers_append_of_not_star noStar, closers_append_newline, closers_intercalate,
    sameLines, sum_closers_lines, indent.closers_append]
  exact Nat.zero_add _

/-- The comment for a text ends a comment once more than the text does. -/
theorem closers_docBlock {margin : Text} (indent : margin.IsIndent) (text : Text) :
    (docBlock margin text).closers = text.closers + 1 := by
  have opening : (margin ++ "/**").closers = 0 := indent.closers_append _
  have inside : ¬ (docInside margin text).BeginsWithSlash := by
    rw [docInside, beginsWithSlash_append (by decide)]
    decide
  have ending : ¬ closer.BeginsWithSlash := by decide
  have newline : ¬ ("\n" : Text).BeginsWithSlash := by decide
  rw [docBlock_eq, closers_append_of_not_slash newline, closers_append_of_not_slash ending,
    closers_append_of_not_slash inside, opening, closers_docInside indent, Nat.zero_add]
  rfl

/-! ## Parts -/

namespace Text

theorem occursIn_closer_iff {t : Text} : closer.OccursIn t ↔ t.closers ≠ 0 :=
  (not_iff_comm.mp occurrences_eq_zero_iff.symm).symm

theorem occursIn_closer_append {front behind : Text} :
    closer.OccursIn (front ++ behind) ↔
      closer.OccursIn front ∨ (front.EndsInStar ∧ behind.BeginsWithSlash) ∨ closer.OccursIn behind := by
  simp only [occursIn_closer_iff, closers_append]
  split
  next seam => simp [seam]
  next whole => simp only [whole, false_or]; omega

/-- A text that keeps what stands in front of it apart from what stands behind it. -/
def Separates (t : Text) : Prop :=
  ¬ closer.OccursIn t ∧ t.points ≠ [] ∧ ¬ t.EndsInStar ∧ ¬ t.BeginsWithSlash

instance (part whole : Text) : Decidable (part.OccursIn whole) := inferInstanceAs (Decidable (_ <:+: _))

instance (t : Text) : Decidable t.Separates := inferInstanceAs (Decidable (_ ∧ _))

namespace Separates

variable {separator : Text} (separates : separator.Separates)

include separates

theorem occursIn_append (front : Text) :
    closer.OccursIn (front ++ separator) ↔ closer.OccursIn front := by
  obtain ⟨absent, -, -, noSlash⟩ := separates
  simp [occursIn_closer_append, absent, noSlash]

theorem occursIn_prepend (behind : Text) :
    closer.OccursIn (separator ++ behind) ↔ closer.OccursIn behind := by
  obtain ⟨absent, -, noStar, -⟩ := separates
  simp [occursIn_closer_append, absent, noStar]

theorem occursIn_between (front behind : Text) :
    closer.OccursIn (front ++ separator ++ behind) ↔
      closer.OccursIn front ∨ closer.OccursIn behind := by
  have noStar : ¬ (front ++ separator).EndsInStar := by
    rw [endsInStar_append separates.2.1]
    exact separates.2.2.1
  rw [occursIn_closer_append, separates.occursIn_append]
  simp [noStar]

end Separates

theorem occursIn_closer_trimmed {t : Text} : closer.OccursIn (trimmed t) ↔ closer.OccursIn t := by
  rw [occursIn_closer_iff, occursIn_closer_iff, closers_trimmed]

end Text

namespace LinkTag

/-- The names and the label that a link shows, if it is not dropped. The name of a method is shown
beside that of its type. -/
def shown (link : LinkTag) : List Text :=
  match link.form with
  | .page _ => [link.target.bareSimpleName, link.label]
  | .marker _ =>
    [link.target.bareSimpleName, link.label] ++
      if link.elementKind = .method then [link.elementName] else []
  | .dropped | .unsupported => []

/-- The pages that links lead to. -/
theorem file_of_form {link : LinkTag} {file : String} (page : link.form = .page file) :
    file = "dataobjects" ∨ file = "enums" := by
  unfold form at page
  split_ifs at page
  · cases page
    exact .inl rfl
  · cases page
    exact .inr rfl
  · split at page <;> cases page

/-- The targets that markers name. -/
theorem target_of_form {link : LinkTag} {target : Text} (marker : link.form = .marker target) :
    (link.elementKind ≠ .method ∧ target = link.target.bareSimpleName) ∨
      (link.elementKind = .method ∧ target = link.target.bareSimpleName ++ "#" ++ link.elementName) := by
  unfold form at marker
  split_ifs at marker
  split at marker <;> cases marker <;> simp [*]

theorem occursIn_page (file : String) (listed : file = "dataobjects" ∨ file = "enums")
    (name shown : Text) :
    closer.OccursIn ("<a href=\"../../" ++ file ++ ".html#" ++ name ++ "\">" ++ shown ++ "</a>") ↔
      closer.OccursIn name ∨ closer.OccursIn shown := by
  have address : (("<a href=\"../../" : Text) ++ file ++ ".html#").Separates := by
    rcases listed with rfl | rfl <;> decide
  have middle : ("\">" : Text).Separates := by decide
  have last : ("</a>" : Text).Separates := by decide
  rw [last.occursIn_append, middle.occursIn_between, address.occursIn_prepend]

theorem occursIn_marker (label target : Text) :
    closer.OccursIn ((if label = "" then "" else "[" ++ label ++ "] " : Text) ++ "\x7b@link " ++
      target ++ "\x7d") ↔ closer.OccursIn label ∨ closer.OccursIn target := by
  have middle : ("\x7b@link " : Text).Separates := by decide
  have last : ("\x7d" : Text).Separates := by decide
  rw [last.occursIn_append, middle.occursIn_between]
  split
  next empty => rw [empty]
  next =>
    have left : ("[" : Text).Separates := by decide
    have right : ("] " : Text).Separates := by decide
    rw [right.occursIn_append, left.occursIn_prepend]

/-- The signs stand in the text of a link exactly if they stand in a name or the label that it shows. -/
theorem occursIn_render {link : LinkTag} {t : Text} (rendered : link.render = some t) :
    closer.OccursIn t ↔ ∃ part ∈ link.shown, closer.OccursIn part := by
  unfold render at rendered
  rw [shown]
  cases form : link.form with
  | dropped | unsupported =>
    rw [form] at rendered
    cases rendered
  | page file =>
    rw [form] at rendered
    cases rendered
    rw [occursIn_page file (file_of_form form)]
    simp only [List.mem_cons, List.not_mem_nil, or_false, exists_eq_or_imp, exists_eq_left]
    split
    next empty =>
      have nothing : ¬ closer.OccursIn link.label := by
        rw [← occursIn_closer_trimmed, empty]
        decide
      simp [nothing]
    next => rw [occursIn_closer_trimmed]
  | marker target =>
    rw [form] at rendered
    cases rendered
    rw [occursIn_marker, occursIn_closer_trimmed]
    rcases target_of_form form with ⟨noMethod, rfl⟩ | ⟨method, rfl⟩
    · simp [noMethod, or_comm]
    · have between : ("#" : Text).Separates := by decide
      rw [between.occursIn_between]
      simp [method, or_left_comm]

/-- A dropped link shows nothing. -/
theorem shown_of_render_none {link : LinkTag} (dropped : link.render = none) : link.shown = [] := by
  unfold render at dropped
  rw [shown]
  cases form : link.form with
  | dropped | unsupported => rfl
  | page file | marker target =>
    rw [form] at dropped
    cases dropped

/-- The text of a link is at no seam half of the signs. -/
theorem render_apart {link : LinkTag} {t : Text} (rendered : link.render = some t) :
    ¬ t.EndsInStar ∧ ¬ t.BeginsWithSlash := by
  unfold render at rendered
  cases form : link.form with
  | dropped | unsupported =>
    rw [form] at rendered
    cases rendered
  | page file =>
    rw [form] at rendered
    cases rendered
    rw [endsInStar_append (by decide)]
    simp only [Text.append_assoc]
    rw [beginsWithSlash_append (by decide)]
    decide
  | marker target =>
    rw [form] at rendered
    cases rendered
    rw [endsInStar_append (by decide)]
    split
    next =>
      simp only [Text.append_assoc]
      change ¬ ("\x7d" : Text).EndsInStar ∧
        ¬ (("\x7b@link " : Text) ++ (target ++ "\x7d")).BeginsWithSlash
      rw [beginsWithSlash_append (by decide)]
      decide
    next =>
      simp only [Text.append_assoc]
      rw [beginsWithSlash_append (by decide)]
      decide

end LinkTag

namespace DocPart

/-- What a part takes over: its text, or what its link shows. -/
def shown : DocPart → List Text
  | .text value => [value]
  | .link target => target.shown

theorem occursIn_flat (part : DocPart) :
    closer.OccursIn part.flat ↔ ∃ t ∈ part.shown, closer.OccursIn t := by
  cases part with
  | text value => simp [flat, shown]
  | link target =>
    rw [flat, shown]
    cases rendered : target.render with
    | some t => exact target.occursIn_render rendered
    | none =>
      rw [target.shown_of_render_none rendered]
      constructor
      · intro inside
        exact absurd inside (by decide)
      · rintro ⟨_, mem, -⟩
        cases mem

/-- A part whose text is unlike that of a link, and unlike nothing, is a text. -/
theorem text_of_flat {P : Text → Prop}
    (unlike : ∀ (link : LinkTag) (t : Text), link.render = some t → ¬ P t) (nothing : ¬ P "")
    {part : DocPart} (holds : P part.flat) : ∃ value : Text, part = .text value ∧ P value := by
  cases part with
  | text value => exact ⟨value, rfl, holds⟩
  | link target =>
    rw [flat] at holds
    cases rendered : target.render with
    | some t =>
      rw [rendered] at holds
      exact absurd holds (unlike target t rendered)
    | none =>
      rw [rendered] at holds
      exact absurd holds nothing

end DocPart

/-! ## Seams -/

namespace Text

/-- Texts in a row begin with `/` where the first of them that is not empty does. -/
theorem beginsWithSlash_join {texts : List Text} :
    (join texts).BeginsWithSlash ↔ ∃ (empty : List Text) (rear : Text) (behind : List Text),
      texts = empty ++ rear :: behind ∧ (∀ t ∈ empty, t = "") ∧ rear.BeginsWithSlash := by
  induction texts with
  | nil => exact ⟨fun slash => absurd slash (by decide), fun ⟨_, _, _, split, _⟩ => by simp at split⟩
  | cons t rest ih =>
    rw [join]
    by_cases empty : t = ""
    · subst empty
      change (join rest).BeginsWithSlash ↔ _
      rw [ih]
      constructor
      · rintro ⟨empty, rear, behind, rfl, allEmpty, slash⟩
        exact ⟨"" :: empty, rear, behind, rfl, List.forall_mem_cons.mpr ⟨rfl, allEmpty⟩, slash⟩
      · rintro ⟨empty, rear, behind, split, allEmpty, slash⟩
        cases empty with
        | nil =>
          cases split
          exact absurd slash (by decide)
        | cons first others =>
          cases split
          exact ⟨others, rear, behind, rfl, (List.forall_mem_cons.mp allEmpty).2, slash⟩
    · have some_point : t.points ≠ [] := fun none => empty (congrArg Text.mk none)
      rw [beginsWithSlash_append some_point]
      constructor
      · exact fun slash => ⟨[], t, rest, rfl, List.forall_mem_nil _, slash⟩
      · rintro ⟨none, rear, behind, split, allEmpty, slash⟩
        cases none with
        | nil =>
          cases split
          exact slash
        | cons first others =>
          cases split
          exact absurd (List.forall_mem_cons.mp allEmpty).1 empty

/-- Two texts of a row meet, with nothing between them, in the signs that end a comment. -/
def Meet (texts : List Text) : Prop :=
  ∃ (before : List Text) (front : Text) (empty : List Text) (rear : Text) (behind : List Text),
    texts = before ++ front :: (empty ++ rear :: behind) ∧
      (∀ t ∈ empty, t = "") ∧ front.EndsInStar ∧ rear.BeginsWithSlash

theorem meet_cons {t : Text} {rest : List Text} :
    Meet (t :: rest) ↔ (t.EndsInStar ∧ (join rest).BeginsWithSlash) ∨ Meet rest := by
  constructor
  · rintro ⟨before, front, empty, rear, behind, split, allEmpty, star, slash⟩
    cases before with
    | nil =>
      cases split
      exact .inl ⟨star, beginsWithSlash_join.mpr ⟨empty, rear, behind, rfl, allEmpty, slash⟩⟩
    | cons first others =>
      cases split
      exact .inr ⟨others, front, empty, rear, behind, rfl, allEmpty, star, slash⟩
  · rintro (⟨star, begins⟩ | ⟨before, front, empty, rear, behind, rfl, allEmpty, star, slash⟩)
    · obtain ⟨empty, rear, behind, rfl, allEmpty, slash⟩ := beginsWithSlash_join.mp begins
      exact ⟨[], t, empty, rear, behind, rfl, allEmpty, star, slash⟩
    · exact ⟨t :: before, front, empty, rear, behind, rfl, allEmpty, star, slash⟩

theorem occursIn_join {texts : List Text} :
    closer.OccursIn (join texts) ↔ (∃ t ∈ texts, closer.OccursIn t) ∨ Meet texts := by
  induction texts with
  | nil =>
    refine ⟨fun inside => absurd inside (by decide), ?_⟩
    rintro (⟨_, mem, -⟩ | ⟨_, _, _, _, _, split, -⟩)
    · cases mem
    · simp at split
  | cons t rest ih =>
    rw [join, occursIn_closer_append, ih, meet_cons]
    simp only [List.mem_cons, exists_eq_or_imp, or_assoc, or_left_comm]

end Text

/-- A text, or a name or label of a link that is shown, holds the signs that end a comment. -/
def SpellWithin (parts : List DocPart) : Prop :=
  ∃ part ∈ parts, ∃ t ∈ part.shown, closer.OccursIn t

/-- A text ends in `*`, and the next text with anything in it begins with `/`. No link that is shown
stands between them. -/
def SpellAcross (parts : List DocPart) : Prop :=
  ∃ before front empty rear behind,
    parts = before ++ DocPart.text front :: (empty ++ DocPart.text rear :: behind) ∧
      (∀ part ∈ empty, part.flat = "") ∧ front.EndsInStar ∧ rear.BeginsWithSlash

theorem meet_map_flat {parts : List DocPart} :
    Meet (parts.map DocPart.flat) ↔ SpellAcross parts := by
  constructor
  · rintro ⟨before, front, empty, rear, behind, split, allEmpty, star, slash⟩
    obtain ⟨beforeParts, _, rfl, rfl, fromFront⟩ := List.map_eq_append_iff.mp split
    obtain ⟨frontPart, _, rfl, rfl, fromEmpty⟩ := List.map_eq_cons_iff.mp fromFront
    obtain ⟨emptyParts, _, rfl, rfl, fromRear⟩ := List.map_eq_append_iff.mp fromEmpty
    obtain ⟨rearPart, behindParts, rfl, rfl, rfl⟩ := List.map_eq_cons_iff.mp fromRear
    -- Links have no half of the signs at a seam, so both parts are texts.
    obtain ⟨front, rfl, frontStar⟩ :=
      DocPart.text_of_flat (fun link _ rendered => (link.render_apart rendered).1) (by decide) star
    obtain ⟨rear, rfl, rearSlash⟩ :=
      DocPart.text_of_flat (fun link _ rendered => (link.render_apart rendered).2) (by decide) slash
    exact ⟨beforeParts, front, emptyParts, rear, behindParts, rfl, List.forall_mem_map.mp allEmpty,
      frontStar, rearSlash⟩
  · rintro ⟨before, front, empty, rear, behind, rfl, allEmpty, star, slash⟩
    exact ⟨before.map DocPart.flat, front, empty.map DocPart.flat, rear, behind.map DocPart.flat,
      by simp [DocPart.flat], List.forall_mem_map.mpr allEmpty, star, slash⟩

/-- **Where the signs in the text of a documentation come from.** -/
theorem occursIn_flatten_iff {parts : List DocPart} :
    closer.OccursIn (flatten parts) ↔ SpellWithin parts ∨ SpellAcross parts := by
  rw [flatten, occursIn_join, meet_map_flat]
  simp only [List.mem_map, exists_exists_and_eq_and, DocPart.occursIn_flat, SpellWithin]

/-- **A comment holds the signs that end it once more than the text of the documentation does.** The
last of them stand at its own end, and they are the only ones exactly if the parts spell none. -/
theorem closers_docComment {margin : Text} (indent : margin.IsIndent) (parts : List DocPart) :
    (∃ inside, docComment (some parts) margin = margin ++ "/**" ++ inside ++ closer ++ "\n" ∧
      closer.occurrences inside = closer.occurrences (flatten parts)) ∧
    closer.occurrences (docComment (some parts) margin) =
      closer.occurrences (flatten parts) + 1 ∧
    (closer.occurrences (docComment (some parts) margin) = 1 ↔
      ¬ (SpellWithin parts ∨ SpellAcross parts)) := by
  have counted : closer.occurrences (docComment (some parts) margin) =
      closer.occurrences (flatten parts) + 1 := closers_docBlock indent (flatten parts)
  refine ⟨⟨docInside margin (flatten parts), docBlock_eq margin (flatten parts),
    closers_docInside indent (flatten parts)⟩, counted, ?_⟩
  rw [counted, Nat.add_eq_right, occurrences_eq_zero_iff, occursIn_flatten_iff]

/-- A link to a type outside of the modules, which is dropped. -/
def outsideLink : LinkTag :=
  ⟨⟨.api, "List", "java.util.List", none, none, [], false⟩, "a list", .classType, "", true⟩

/-- What stands around a dropped link is joined to the signs that end a comment. -/
theorem closers_docComment_outsideLink :
    let parts : List DocPart := [.text "all *", .link outsideLink, .text "/ or none"]
    ("  \t" : Text).IsIndent ∧ SpellAcross parts ∧
      closer.occurrences (docComment (some parts) "  \t") ≠ 1 := by
  intro parts
  have indent : ("  \t" : Text).IsIndent := by decide
  have across : SpellAcross parts :=
    ⟨[], "all *", [.link outsideLink], "/ or none", [], rfl, by simp [DocPart.flat]; decide, by decide,
      by decide⟩
  obtain ⟨-, -, once⟩ := closers_docComment indent parts
  exact ⟨indent, across, fun one => once.mp one (.inr across)⟩

/-- Two texts that spell the signs only together end the comment early. -/
theorem comment_ends_early :
    ¬ ∀ (margin : Text) (parts : List DocPart), margin.IsIndent →
      closer.occurrences (docComment (some parts) margin) = 1 := by
  intro once
  have one := once "" [.text "*", .text "/"] (by decide)
  exact absurd one (by decide)

end HostDecl
