import HostDecl.Diagnostic.Channel
import HostDecl.Proofs.CommentLines

/-!
# Documentation as one text

The parts of a documentation make one text, and the comment is that of this text. How the text is cut
into parts does not matter (`Regrouped`), and neither do blanks at the ends of its lines; everything else
does, so `docComment_eq_iff` says when two documentations have one comment.

Beside the comment there are reports. A link brings no text for one of two reasons: its target is outside of
the modules, or it is `Unsupported`. Only the second is reported, once for each such link and in the order
of the links (`docReports_eq`).
-/

namespace HostDecl

open Text

/-! ## Links without text -/

namespace LinkTag

/-- A link that points into a module, but has neither a page nor an element that a marker can name. -/
structure Unsupported (link : LinkTag) : Prop where
  inModule : link.target.moduleName ≠ none
  noDataObject : link.target.kind ≠ .dataObject
  noGeneratedEnum : ¬(link.target.kind = .enumeration ∧ link.isGeneratedEnum = true)
  noMarker : link.elementKind ∉ [Element.classType, .interface, .method]

theorem form_eq_unsupported_iff {link : LinkTag} : link.form = .unsupported ↔ link.Unsupported := by
  unfold form
  constructor
  · intro unsupported
    split_ifs at unsupported with outside data enumeration
    refine ⟨fun none => outside (by rw [none]; rfl), data, enumeration, ?_⟩
    intro marked
    split at unsupported <;> simp_all
  · rintro ⟨inModule, noDataObject, noGeneratedEnum, noMarker⟩
    rw [if_neg (by simpa using inModule), if_neg noDataObject, if_neg noGeneratedEnum]
    split <;> simp_all

theorem form_eq_dropped_iff {link : LinkTag} : link.form = .dropped ↔ link.target.moduleName = none := by
  unfold form
  split_ifs with outside
  · simpa using outside
  · simpa using outside
  · simpa using outside
  · have inModule : link.target.moduleName ≠ none := by simpa using outside
    split <;> simpa using inModule

instance (link : LinkTag) : Decidable link.Unsupported := decidable_of_iff _ form_eq_unsupported_iff

/-- A link brings no text if it points out of the modules, or is not supported. -/
theorem render_eq_none_iff {link : LinkTag} :
    link.render = none ↔ link.target.moduleName = none ∨ link.Unsupported := by
  rw [← form_eq_dropped_iff, ← form_eq_unsupported_iff, render]
  cases link.form <;> simp

/-- What is reported of an unsupported link. -/
def report (link : LinkTag) : Report :=
  ⟨Report.unhandledLinkKind, link.elementKind.text ++ " " ++ link.target.bareSimpleName⟩

theorem reports_eq (link : LinkTag) : link.reports = if link.Unsupported then [link.report] else [] := by
  rw [reports]
  split
  next unsupported => rw [if_pos (form_eq_unsupported_iff.mp unsupported), report]
  next other => rw [if_neg (mt form_eq_unsupported_iff.mpr other)]

end LinkTag

namespace DocPart

/-- What is written for a part, if anything is. -/
def written? : DocPart → Option Text
  | .text value => some value
  | .link target => target.render

/-- The link that a part is. -/
def link? : DocPart → Option LinkTag
  | .text _ => none
  | .link target => some target

end DocPart

/-- The links of a documentation, in their order. -/
def linksOf (parts : List DocPart) : List LinkTag := parts.filterMap DocPart.link?

theorem flatten_cons (part : DocPart) (rest : List DocPart) : flatten (part :: rest) = part.flat ++ flatten rest :=
  rfl

theorem flatten_append (front behind : List DocPart) :
    flatten (front ++ behind) = flatten front ++ flatten behind := by
  rw [flatten, List.map_append, Text.join_append]
  rfl

/-- What is written for the parts of a documentation, one behind the other. -/
def writtenText (parts : List DocPart) : Text := join (parts.filterMap DocPart.written?)

theorem flatten_eq (parts : List DocPart) : flatten parts = writtenText parts := by
  unfold writtenText
  induction parts with
  | nil => rfl
  | cons part rest ih =>
    rw [flatten_cons, ih]
    cases part with
    | text value => rfl
    | link target =>
      rw [DocPart.flat, List.filterMap_cons, DocPart.written?]
      cases target.render <;> rfl

/-- **The reports of a documentation** are those of its unsupported links. -/
theorem docReports_eq (parts : List DocPart) :
    docReports (some parts) = ((linksOf parts).filter (·.Unsupported)).map LinkTag.report := by
  rw [docReports, Option.getD_some]
  induction parts with
  | nil => rfl
  | cons part rest ih =>
    rw [List.flatMap_cons, ih]
    cases part with
    | text value => rfl
    | link target =>
      change target.reports ++ _ = ((target :: linksOf rest).filter (·.Unsupported)).map LinkTag.report
      rw [target.reports_eq, List.filter_cons]
      split <;> simp_all

/-! ## Cutting the text -/

/-- Two documentations differ in how their text is cut, and in empty texts. -/
inductive Regrouped : List DocPart → List DocPart → Prop
  | same (parts : List DocPart) : Regrouped parts parts
  | symm {parts others : List DocPart} : Regrouped parts others → Regrouped others parts
  | trans {parts others more : List DocPart} :
    Regrouped parts others → Regrouped others more → Regrouped parts more
  | cut (front : List DocPart) (a b : Text) (behind : List DocPart) :
    Regrouped (front ++ .text (a ++ b) :: behind) (front ++ .text a :: .text b :: behind)
  | empty (front behind : List DocPart) : Regrouped (front ++ behind) (front ++ .text "" :: behind)

namespace Regrouped

variable {parts others : List DocPart}

theorem flatten_eq (regrouped : Regrouped parts others) : flatten parts = flatten others := by
  induction regrouped with
  | same => rfl
  | symm _ ih => exact ih.symm
  | trans _ _ first second => exact first.trans second
  | cut front a b behind =>
    simp only [flatten_append, flatten_cons, DocPart.flat, Text.append_assoc]
  | empty front behind =>
    rw [flatten_append, flatten_append, flatten_cons]
    rfl

theorem linksOf_eq (regrouped : Regrouped parts others) : linksOf parts = linksOf others := by
  induction regrouped with
  | same => rfl
  | symm _ ih => exact ih.symm
  | trans _ _ first second => exact first.trans second
  | cut | empty =>
    rw [linksOf, linksOf, List.filterMap_append, List.filterMap_append]
    rfl

end Regrouped

/-! ## One comment -/

/-- What stands behind the star of a line. -/
def behindStar (line : Text) : Text := (" " ++ line).trimmedEnd

/-- The lines of a comment behind the one that begins it, from what stands behind their stars. -/
def starred (margin : Text) : List Text → Text
  | [] => margin ++ " *" ++ "/\n"
  | t :: rest => margin ++ " *" ++ (t ++ "\n" ++ starred margin rest)

theorem docBlock_eq_starred (margin text : Text) :
    docBlock margin text = margin ++ "/**" ++ "\n" ++ starred margin (text.lines.map behindStar) := by
  have lines : ∀ lines : List Text,
      intercalate "\n" (lines.map (docLine margin) ++ [margin ++ " */"]) ++ "\n" =
        starred margin (lines.map behindStar) := by
    intro lines
    induction lines with
    | nil =>
      rw [List.map_nil, List.map_nil, starred, Text.append_assoc]
      exact Text.append_assoc margin " */" "\n"
    | cons line rest ih =>
      rw [List.map_cons, List.cons_append, intercalate_cons (by simp), Text.append_assoc, ih, docLine_eq,
        List.map_cons, starred, behindStar]
      simp only [Text.append_assoc]
  rw [docBlock, docLines, intercalate_cons (by simp), Text.append_assoc, lines]

/-- The line that ends a comment is none of those in it. -/
theorem starred_nil_ne (margin : Text) {u : Text} (noSlash : ¬u.BeginsWithSlash) (us : List Text) :
    starred margin [] ≠ starred margin (u :: us) := by
  intro same
  rw [starred, starred] at same
  have begins : ("/\n" : Text).points = u.points ++ .char '\n' :: (starred margin us).points := by
    rw [append_left_cancel same]
    exact List.append_assoc ..
  cases first : u.points with
  | nil =>
    rw [first] at begins
    exact absurd (List.cons.inj begins).1 (by decide)
  | cons point rest =>
    rw [first] at begins
    apply noSlash
    rw [BeginsWithSlash, first]
    exact congrArg some (List.cons.inj begins).1.symm

theorem starred_injective (margin : Text) {ts us : List Text} (first : ∀ t ∈ ts, t.IsLine ∧ ¬t.BeginsWithSlash)
    (second : ∀ u ∈ us, u.IsLine ∧ ¬u.BeginsWithSlash) (same : starred margin ts = starred margin us) :
    ts = us := by
  induction ts generalizing us with
  | nil =>
    cases us with
    | nil => rfl
    | cons u us => exact absurd same (starred_nil_ne margin (second u List.mem_cons_self).2 us)
  | cons t ts ih =>
    cases us with
    | nil => exact absurd same.symm (starred_nil_ne margin (first t List.mem_cons_self).2 ts)
    | cons u us =>
      obtain ⟨⟨line, -⟩, others⟩ := List.forall_mem_cons.mp first
      obtain ⟨⟨line', -⟩, others'⟩ := List.forall_mem_cons.mp second
      rw [starred, starred] at same
      have begins := append_left_cancel same
      have cut := congrArg Text.lines begins
      rw [line.lines_append, line'.lines_append] at cut
      obtain ⟨rfl, -⟩ := List.cons.inj cut
      rw [ih others others' (append_left_cancel begins)]

theorem behindStar_eq_iff {a b : Text} : behindStar a = behindStar b ↔ a.trimmedEnd = b.trimmedEnd := by
  constructor
  · intro same
    have said := congrArg (fun t => Text.mk (behindSpace t.points)) same
    simpa only [behindStar, behindSpace_trimmedEnd] using said
  · intro same
    have points : stripEnd isBlankPoint a.points = stripEnd isBlankPoint b.points := congrArg Text.points same
    change Text.mk (stripEnd isBlankPoint (.char ' ' :: a.points)) =
      Text.mk (stripEnd isBlankPoint (.char ' ' :: b.points))
    rw [stripEnd_cons, stripEnd_cons, points]

theorem behindStar_fits {line : Text} (isLine : line.IsLine) :
    (behindStar line).IsLine ∧ ¬(behindStar line).BeginsWithSlash := by
  have space : (" " : Text).IsLine := by decide
  refine ⟨(isLine_append.mpr ⟨space, isLine⟩).trimmedEnd, ?_⟩
  change ¬(stripEnd isBlankPoint (.char ' ' :: line.points)).head? = some (.char '/')
  rw [stripEnd_cons]
  split
  · decide
  · exact fun slash => absurd (Option.some.inj slash) (by decide)

theorem map_behindStar_eq_iff {ts us : List Text} :
    ts.map behindStar = us.map behindStar ↔ ts.map trimmedEnd = us.map trimmedEnd := by
  induction ts generalizing us with
  | nil => cases us <;> simp
  | cons t ts ih =>
    cases us with
    | nil => simp
    | cons u us =>
      simp only [List.map_cons, List.cons.injEq]
      rw [behindStar_eq_iff, ih]

/-- **When two documentations have one comment**: the lines of their texts are the same but for blanks at
their ends. -/
theorem docComment_eq_iff (margin : Text) {parts others : List DocPart} :
    docComment (some parts) margin = docComment (some others) margin ↔
      (writtenText parts).lines.map trimmedEnd = (writtenText others).lines.map trimmedEnd := by
  have fits : ∀ text : Text, ∀ t ∈ text.lines.map behindStar, t.IsLine ∧ ¬t.BeginsWithSlash := by
    intro text
    rw [List.forall_mem_map]
    exact fun line mem => behindStar_fits (isLine_of_mem_lines mem)
  rw [docComment, docComment, docBlock_eq_starred, docBlock_eq_starred, ← map_behindStar_eq_iff,
    flatten_eq, flatten_eq]
  constructor
  · intro same
    exact starred_injective margin (fits _) (fits _) (append_left_cancel same)
  · intro same
    rw [same]

/-! ## The law -/

/-- **A documentation is its text**: the comment is that of the text which is written for its parts, however
the text is cut into parts. A link is left out of it if it points out of the modules or is not supported,
and a channel takes one report for each link that is not supported, in order, and none besides. -/
theorem docComment_of_written (parts : List DocPart) (margin : Text) (c : Channel)
    (clock : Nat → String) :
    docComment (some parts) margin = docComment (some [.text (writtenText parts)]) margin ∧
      (∀ others, docComment (some others) margin = docComment (some parts) margin ↔
        (writtenText others).lines.map trimmedEnd = (writtenText parts).lines.map trimmedEnd) ∧
      (∀ others, Regrouped parts others →
        docComment (some others) margin = docComment (some parts) margin ∧
          docReports (some others) = docReports (some parts)) ∧
      (∀ link : LinkTag, link.render = none ↔ link.target.moduleName = none ∨ link.Unsupported) ∧
      (c.reportAll clock (docReports (some parts))).2 =
        { c with
          entries := c.entries ++ ((linksOf parts).filter (·.Unsupported)).mapIdx fun reading link =>
            ⟨clock reading, "unhandled-link-kind",
              link.elementKind.text ++ " " ++ link.target.bareSimpleName⟩ } := by
  refine ⟨?_, fun others => docComment_eq_iff margin, ?_, fun link => LinkTag.render_eq_none_iff, ?_⟩
  · rw [docComment, docComment, flatten_eq, flatten_cons]
    exact congrArg (docBlock margin) (append_empty _).symm
  · intro others regrouped
    constructor
    · rw [docComment, docComment, regrouped.flatten_eq]
    · rw [docReports_eq, docReports_eq, regrouped.linksOf_eq]
  · rw [c.reportAll_channel, docReports_eq, Report.stamped_map]
    rfl

/-- A link to a field of a type in a module, which is not supported. -/
def fieldLink : LinkTag :=
  ⟨⟨.api, "Pair<A>", "a.Pair<A>", some "a", none, [], false⟩, "the first", .field, "first", true⟩

/-- Both kinds of links without text stand in a text that is cut in two ways; the one to a field is
reported. -/
theorem docComment_of_written_fieldLink :
    let parts : List DocPart := [.text "One\nof ", .link fieldLink, .link outsideLink, .text "two"]
    let others : List DocPart :=
      [.text "One\n", .text "of ", .link fieldLink, .text "", .link outsideLink, .text "two"]
    Regrouped parts others ∧ writtenText parts = "One\nof two" ∧
      docComment (some others) "  " = docComment (some [.text "One\nof two"]) "  " ∧
      ((Channel.new true).reportAll (fun _ => "12:00") (docReports (some others))).2.entries =
        [⟨"12:00", "unhandled-link-kind", "field Pair"⟩] := by
  intro parts others
  have cut : Regrouped parts
      [.text "One\n", .text "of ", .link fieldLink, .link outsideLink, .text "two"] := .cut [] "One\n" "of " _
  have regrouped : Regrouped parts others :=
    cut.trans (.empty [.text "One\n", .text "of ", .link fieldLink] _)
  obtain ⟨whole, -, same, -, reports⟩ := docComment_of_written parts "  " (.new true) fun _ => "12:00"
  have written : writtenText parts = "One\nof two" := by decide +kernel
  obtain ⟨comment, reported⟩ := same others regrouped
  refine ⟨regrouped, written, ?_, ?_⟩
  · rw [comment, whole, written]
  · rw [reported, reports]
    decide +kernel

end HostDecl
