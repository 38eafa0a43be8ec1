import HostDecl.TypeScript.TypeExpr
import Mathlib.Data.List.Basic

/-!
# The parts of a type

A type is built from its operands, and those from theirs. The recursions over types are restated by
operands, one equation each, so that an induction over types is an induction over operands.

**The law** (`PartOf.occursIn`): the text of a part stands in the text of the whole as it is.

**What it does not establish.** Nothing is said about what stands around the part; two parts may have
the same text, and the operand of a handler stands in its text twice.
-/

namespace HostDecl

/-! ## Texts in texts -/

namespace Text

/-- A text occurs in another one as it stands. -/
def OccursIn (part whole : Text) : Prop := part.points <:+: whole.points

/-- Texts joined are their code points joined. -/
@[simp] theorem points_append (a b : Text) : (a ++ b).points = a.points ++ b.points := rfl

/-- Strings joined are their texts joined. -/
theorem ofString_append (a b : String) : ofString (a ++ b) = ofString a ++ ofString b := by
  simp only [ofString, ofChars, String.toList_append, List.map_append]
  rfl

/-- Joining texts is associative. -/
theorem append_assoc (a b c : Text) : a ++ b ++ c = a ++ (b ++ c) := by
  simp only [HAppend.hAppend, Append.append, Text.mk.injEq]
  exact List.append_assoc a.points b.points c.points

theorem append_empty (t : Text) : t ++ "" = t := congrArg Text.mk (List.append_nil t.points)

theorem join_append (front behind : List Text) : join (front ++ behind) = join front ++ join behind := by
  induction front with
  | nil => rfl
  | cons t rest ih => rw [List.cons_append, join, join, ih, append_assoc]

theorem append_left_cancel {front a b : Text} (same : front ++ a = front ++ b) : a = b :=
  congrArg Text.mk (List.append_cancel_left (congrArg Text.points same))

theorem append_right_cancel {a b behind : Text} (same : a ++ behind = b ++ behind) : a = b :=
  congrArg Text.mk (List.append_cancel_right (congrArg Text.points same))

theorem OccursIn.refl (t : Text) : t.OccursIn t := List.infix_refl t.points

theorem OccursIn.trans {a b c : Text} (inner : a.OccursIn b) (outer : b.OccursIn c) : a.OccursIn c :=
  List.IsInfix.trans inner outer

/-- What occurs in a text occurs behind any other text too. -/
theorem OccursIn.behind {part whole : Text} (inside : part.OccursIn whole) (before : Text) :
    part.OccursIn (before ++ whole) :=
  inside.trans (List.suffix_append before.points whole.points).isInfix

/-- What occurs in a text occurs in front of any other text too. -/
theorem OccursIn.before {part whole : Text} (inside : part.OccursIn whole) (behind : Text) :
    part.OccursIn (whole ++ behind) :=
  inside.trans (List.prefix_append whole.points behind.points).isInfix

/-- A string with a character that another one lacks does not occur in it. -/
theorem not_occursIn_of_notMem {part whole : String} {c : Char} (mem : c ∈ part.toList)
    (absent : c ∉ whole.toList) : ¬ (part : Text).OccursIn whole := by
  intro inside
  have point : CodePoint.char c ∈ (whole : Text).points := inside.subset (List.mem_map_of_mem mem)
  obtain ⟨_, there, same⟩ := List.mem_map.mp point
  cases same
  exact absent there

/-- A number is written in digits. -/
theorem notMem_toString {c : Char} (other : c.isDigit = false) (n : Nat) :
    c ∉ (toString n).toList := by
  intro mem
  rw [Nat.toString_eq_repr, Nat.toList_repr] at mem
  have digit : c.isDigit = true := Nat.isDigit_of_mem_toDigits (by decide) (by decide) mem
  rw [other] at digit
  cases digit

/-- Each text of a list occurs in the list with separators. -/
theorem occursIn_intercalate {t separator : Text} {texts : List Text} (mem : t ∈ texts) :
    t.OccursIn (intercalate separator texts) := by
  induction texts with
  | nil => cases mem
  | cons first rest ih =>
    cases rest with
    | nil =>
      rw [List.mem_singleton.mp mem]
      exact .refl _
    | cons second others =>
      rcases List.mem_cons.mp mem with rfl | later
      · exact ((OccursIn.refl t).before separator).before _
      · exact (ih later).behind _

end Text

namespace TypeScript.TypeExpr

/-! ## Operands -/

/-- The types that a type is built from, from left to right. -/
def operands : TypeExpr → List TypeExpr
  | builtin _ | aliased _ | named _ | unmapped _ | unhandled _ _ => []
  | array element => [element]
  | dictionary key value => [key, value]
  | generic base arguments => base :: arguments
  | handler argument => [argument]
  | function argument result => [argument, result]
  | asyncResult value => [value]

mutual

/-- Induction over operands. -/
theorem induct {motive : TypeExpr → Prop}
    (step : ∀ type, (∀ operand ∈ type.operands, motive operand) → motive type) :
    ∀ type, motive type
  | builtin _ | aliased _ | named _ | unmapped _ | unhandled _ _ => step _ nofun
  | array element => step _ (by simp [operands, induct step element])
  | dictionary key value => step _ (by simp [operands, induct step key, induct step value])
  | generic base arguments =>
    step _ (List.forall_mem_cons.mpr ⟨induct step base, inductAll step arguments⟩)
  | handler argument => step _ (by simp [operands, induct step argument])
  | function argument result => step _ (by simp [operands, induct step argument, induct step result])
  | asyncResult value => step _ (by simp [operands, induct step value])

/-- Induction over operands, for every type of a list. -/
theorem inductAll {motive : TypeExpr → Prop}
    (step : ∀ type, (∀ operand ∈ type.operands, motive operand) → motive type) :
    ∀ types : List TypeExpr, ∀ type ∈ types, motive type
  | [] => nofun
  | first :: rest => List.forall_mem_cons.mpr ⟨induct step first, inductAll step rest⟩

end

/-- What a type reports without its operands. -/
def ownReports : TypeExpr → List Report
  | unmapped name => [⟨Report.unmappedType, name⟩]
  | unhandled name kind => [⟨Report.unhandledKind, name ++ " - " ++ kind⟩]
  | _ => []

/-- The texts of types are their texts one by one. -/
theorem renderAll_eq_map (types : List TypeExpr) : renderAll types = types.map render := by
  induction types with
  | nil => rfl
  | cons type rest ih => rw [renderAll, ih, List.map_cons]

/-- The reports of types are their reports one after the other. -/
theorem reportsAll_eq_flatMap (types : List TypeExpr) : reportsAll types = types.flatMap reports := by
  induction types with
  | nil => rfl
  | cons type rest ih => rw [reportsAll, ih, List.flatMap_cons]

/-- A type reports what it has to report itself, and then what its operands do. -/
theorem reports_eq (type : TypeExpr) :
    type.reports = type.ownReports ++ type.operands.flatMap reports := by
  cases type with
  | generic base arguments => simp [reports, ownReports, operands, reportsAll_eq_flatMap]
  | _ => simp [reports, ownReports, operands]

/-- The text of an operand stands in the text of its type. -/
theorem occursIn_of_operand {type operand : TypeExpr} (mem : operand ∈ type.operands) :
    operand.render.OccursIn type.render := by
  have here := Text.OccursIn.refl operand.render
  cases type with
  | builtin _ | aliased _ | named _ | unmapped _ | unhandled _ _ => cases mem
  | array element =>
    obtain rfl := List.mem_singleton.mp mem
    exact here.before _
  | dictionary key value =>
    rcases List.mem_pair.mp mem with rfl | rfl
    · exact (((here.behind _).before _).before _).before _
    · exact (here.behind _).before _
  | generic base arguments =>
    rcases List.mem_cons.mp mem with rfl | argument
    · exact ((here.before _).before _).before _
    · rw [render, renderAll_eq_map]
      exact ((Text.occursIn_intercalate (List.mem_map_of_mem argument)).behind _).before _
  | handler argument =>
    obtain rfl := List.mem_singleton.mp mem
    exact (here.behind _).before _
  | function argument result =>
    rcases List.mem_pair.mp mem with rfl | rfl
    · exact ((here.behind _).before _).before _
    · exact here.behind _
  | asyncResult value =>
    obtain rfl := List.mem_singleton.mp mem
    exact (here.behind _).before _

/-! ## Parts -/

/-- A type in a type, at any depth, the type itself included. -/
inductive PartOf (part : TypeExpr) : TypeExpr → Prop
  | self : PartOf part part
  | inside {type operand : TypeExpr} (mem : operand ∈ type.operands) (below : PartOf part operand) :
      PartOf part type

theorem PartOf.trans {a b c : TypeExpr} (inner : PartOf a b) (outer : PartOf b c) : PartOf a c := by
  induction outer with
  | self => exact inner
  | inside mem _ ih => exact .inside mem ih

/-- A part is the type itself or lies in an operand. -/
theorem partOf_iff {part type : TypeExpr} :
    PartOf part type ↔ part = type ∨ ∃ operand ∈ type.operands, PartOf part operand := by
  constructor
  · rintro (_ | ⟨mem, inside⟩)
    · exact .inl rfl
    · exact .inr ⟨_, mem, inside⟩
  · rintro (rfl | ⟨_, mem, inside⟩)
    · exact .self
    · exact .inside mem inside

/-- **The text of a part stands in the text of the whole.** -/
theorem PartOf.occursIn {part type : TypeExpr} (inside : PartOf part type) :
    part.render.OccursIn type.render := by
  induction inside with
  | self => exact .refl _
  | inside mem _ ih => exact ih.trans (occursIn_of_operand mem)

end TypeScript.TypeExpr

end HostDecl
