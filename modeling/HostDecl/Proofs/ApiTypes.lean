import HostDecl.Proofs.ArgumentLists
import Mathlib.Data.List.TakeWhile

/-!
# The text of a type of a generated module

A type of a generated module is written as a base with a list of arguments behind it. The arguments
are the texts of its type arguments, or `any` once for each parameter that it declares, if it is written
without arguments; with neither there is no list.

**The law** (`api_text`): every accepted type of a generated module is written so. The base is an alias
or a simple name. It is taken by the names without their type arguments, with one exception: a type that
declares parameters and is written without arguments is taken by its names as they are. Such a name holds
no arguments where it was put down as that of a type without arguments; but reading does not ask for
that, and a name that does hold arguments keeps them (`arguments_stacked`).
-/

namespace HostDecl

open TypeScript

namespace Text

/-- A text ends in a list in angle brackets. -/
def HoldsArguments (t : Text) : Prop := ∃ front inside : Text, t = front ++ "<" ++ inside ++ ">"

/-- A text with a list at its end begins the list somewhere and ends in a bracket. -/
theorem HoldsArguments.brackets {t : Text} (holds : t.HoldsArguments) :
    CodePoint.char '<' ∈ t.points ∧ t.points.getLast? = some (.char '>') := by
  obtain ⟨front, inside, rfl⟩ := holds
  constructor
  · have inList : CodePoint.char '<' ∈ ("<" : Text).points := by decide
    exact List.mem_append_left _ (List.mem_append_left _ (List.mem_append_right _ inList))
  · rw [points_append, List.getLast?_append_of_ne_nil _ (by decide)]
    decide

end Text

theorem notMem_eraseArguments (name : Text) : CodePoint.char '<' ∉ (eraseArguments name).points := by
  intro mem
  rw [eraseArguments] at mem
  exact absurd (List.mem_takeWhile_imp mem) (by decide)

/-- A name without type arguments is the whole name. -/
theorem eraseArguments_eq_self {name : Text} (plain : CodePoint.char '<' ∉ name.points) :
    eraseArguments name = name := by
  have all : ∀ p ∈ name.points, decide (p ≠ .char '<') = true := fun p mem =>
    decide_eq_true fun same => plain (same ▸ mem)
  exact congrArg Text.mk (List.takeWhile_eq_self_iff.mpr all)

theorem getLast?_of_mem_aliases :
    ∀ entry ∈ aliases, (entry.2 : Text).points.getLast? ≠ some (.char '>') := by
  decide +kernel

/-- No alias ends in a list in angle brackets. -/
theorem not_holdsArguments_of_alias? {name : Text} {text : String}
    (aliased : alias? name = some text) : ¬ (text : Text).HoldsArguments := by
  obtain ⟨key, -, listed⟩ := mem_aliases_of_alias? aliased
  exact fun holds => getLast?_of_mem_aliases _ listed holds.brackets.2

namespace Descriptor

/-! ## Arguments -/

/-- The texts that stand in the argument list: those of the type arguments, or `any` for each declared
parameter of a type that has no arguments. -/
inductive ArgumentTexts (d : Descriptor) : List Text → Prop
  | given {items : List Descriptor} {texts : List Text} (arguments : d.typeArguments = some items)
    (each : List.Forall₂ (fun a text => ∃ type, a.typeExpr = .ok type ∧ type.render = text) items texts) :
    ArgumentTexts d texts
  | declared (bare : d.typeArguments = none) : ArgumentTexts d (d.typeParameters.map fun _ => "any")

/-! ## Bases -/

/-- The alias of a name, or another name. -/
def baseText (name simpleName : Text) : Text :=
  match alias? name with
  | some text => text
  | none => simpleName

theorem render_aliasOr (name simpleName : Text) :
    (aliasOr name simpleName).render = baseText name simpleName := by
  unfold aliasOr baseText
  cases alias? name <;> rfl

/-- The type declares parameters, and the occurrence has no arguments for them. -/
def IsRawGeneric (d : Descriptor) : Prop := d.typeArguments = none ∧ d.typeParameters ≠ []

/-- The names by which the base is taken: the one that may have an alias, and the one that is written
otherwise. -/
inductive BaseNames (d : Descriptor) : Text → Text → Prop
  | erased (other : ¬ d.IsRawGeneric) : BaseNames d d.bareName d.bareSimpleName
  | whole (raw : d.IsRawGeneric) : BaseNames d d.name d.simpleName

theorem BaseNames.erased_of_plain {d : Descriptor} {name simpleName : Text}
    (names : d.BaseNames name simpleName) (plainName : CodePoint.char '<' ∉ d.name.points)
    (plainSimpleName : CodePoint.char '<' ∉ d.simpleName.points) :
    name = d.bareName ∧ simpleName = d.bareSimpleName := by
  cases names with
  | erased => exact ⟨rfl, rfl⟩
  | whole =>
    exact ⟨(eraseArguments_eq_self plainName).symm, (eraseArguments_eq_self plainSimpleName).symm⟩

/-- A base without alias mentions arguments only where it is taken by the names as they are. -/
theorem BaseNames.mem_baseText_iff {d : Descriptor} {name simpleName : Text}
    (names : d.BaseNames name simpleName) (unaliased : alias? name = none) :
    CodePoint.char '<' ∈ (baseText name simpleName).points ↔
      d.IsRawGeneric ∧ CodePoint.char '<' ∈ d.simpleName.points := by
  rw [baseText, unaliased]
  cases names with
  | erased other => simp [other, bareSimpleName, notMem_eraseArguments]
  | whole raw => simp [raw]

/-- Only names that are taken as they are bring a list of their own into a base. -/
theorem BaseNames.holdsArguments_iff {d : Descriptor} {name simpleName : Text}
    (names : d.BaseNames name simpleName) :
    (baseText name simpleName).HoldsArguments ↔
      d.IsRawGeneric ∧ alias? d.name = none ∧ d.simpleName.HoldsArguments := by
  unfold baseText
  cases names with
  | erased other =>
    refine iff_of_false ?_ fun stacked => other stacked.1
    split
    next aliased => exact not_holdsArguments_of_alias? aliased
    next => exact fun holds => notMem_eraseArguments _ holds.brackets.1
  | whole raw =>
    split
    next aliased => exact iff_of_false (not_holdsArguments_of_alias? aliased) (by simp [aliased])
    next unaliased => simp [raw, unaliased]

/-! ## The law -/

theorem parameterList_of_ne_nil {names : List Text} (some_name : names ≠ []) :
    parameterList names = "<" ++ Text.intercalate ", " names ++ ">" := by
  cases names with
  | nil => exact absurd rfl some_name
  | cons first rest => rfl

theorem render_generic_base (name simpleName : Text) {arguments : List TypeExpr}
    (some_argument : arguments ≠ []) :
    (TypeExpr.generic (aliasOr name simpleName) arguments).render =
      baseText name simpleName ++ parameterList (arguments.map TypeExpr.render) := by
  rw [parameterList_of_ne_nil (by simpa using some_argument), TypeExpr.render, render_aliasOr,
    TypeExpr.renderAll_eq_map]
  simp only [Text.append_assoc]

/-- The type of a type of a generated module is its base with its arguments. -/
theorem WellFormed.render_api {d : Descriptor} (wellFormed : d.WellFormed) (api : d.kind = .api) :
    ∃ type arguments name simpleName, d.typeExpr = .ok type ∧ d.ArgumentTexts arguments ∧
      d.BaseNames name simpleName ∧ type.render = baseText name simpleName ++ parameterList arguments ∧
      (d.IsRawGeneric → arguments ≠ []) := by
  obtain ⟨type, typed, -⟩ := wellFormed.reports_typeExpr
  cases given : d.typeArguments with
  | some items =>
    have notRaw : ¬ d.IsRawGeneric := fun raw => by
      cases given.symm.trans raw.1
    obtain ⟨types, rfl, each⟩ := exists_generic_of_api typed api given
    have some_type : types ≠ [] := by
      rintro rfl
      obtain ⟨-, counted, -⟩ := wellFormed
      obtain rfl := List.forall₂_nil_right_iff.mp each
      exact (argumentCountFault?_eq_none_iff.mp counted _ given).1 rfl
    refine ⟨_, types.map TypeExpr.render, _, _, typed, .given given ?_, .erased notRaw,
      render_generic_base _ _ some_type, fun raw => absurd raw notRaw⟩
    rw [List.forall₂_map_right_iff]
    exact each.imp fun a type typed => ⟨type, typed, rfl⟩
  | none =>
    obtain ⟨kind, simpleName, name, moduleName, typeArguments, typeParameters, isVariable⟩ := d
    cases api
    cases given
    cases typeParameters with
    | nil =>
      cases typed
      refine ⟨_, _, _, _, rfl, .declared rfl, .erased fun raw => raw.2 rfl, ?_, fun raw => absurd rfl raw.2⟩
      exact (render_aliasOr _ _).trans (Text.append_empty _).symm
    | cons parameter rest =>
      cases typed
      refine ⟨_, _, _, _, rfl, .declared rfl, .whole ⟨rfl, List.cons_ne_nil _ _⟩, ?_,
        fun _ => List.cons_ne_nil _ _⟩
      rw [List.isEmpty_cons, if_neg Bool.false_ne_true, render_generic_base _ _ (by simp), List.map_map]
      rfl

/-- **A type of a generated module is written as a base with a list of arguments.** The base is the one
without type arguments, but for a type that declares parameters and is written without arguments; and
only such a type, where its simple name holds arguments and its name has no alias, is written with two
lists in a row. -/
theorem api_text {value : Json} {d : Descriptor} (accepted : ofJson value = .valid d)
    (api : d.kind = .api) :
    ∃ type arguments name simpleName, d.typeExpr = .ok type ∧ d.ArgumentTexts arguments ∧
      d.BaseNames name simpleName ∧
      type.render = baseText name simpleName ++ parameterList arguments ∧
      (CodePoint.char '<' ∉ d.name.points → CodePoint.char '<' ∉ d.simpleName.points →
        name = d.bareName ∧ simpleName = d.bareSimpleName) ∧
      (alias? name = none → (CodePoint.char '<' ∈ (baseText name simpleName).points ↔
        d.IsRawGeneric ∧ CodePoint.char '<' ∈ d.simpleName.points)) ∧
      ((baseText name simpleName).HoldsArguments ∧ arguments ≠ [] ↔
        d.IsRawGeneric ∧ alias? d.name = none ∧ d.simpleName.HoldsArguments) := by
  obtain ⟨type, arguments, name, simpleName, typed, texts, names, rendered, some_argument⟩ :=
    (wellFormed_of_ofJson accepted).render_api api
  refine ⟨type, arguments, name, simpleName, typed, texts, names, rendered, names.erased_of_plain,
    names.mem_baseText_iff, ?_⟩
  rw [names.holdsArguments_iff, and_iff_left_of_imp fun stacked => some_argument stacked.1]

/-- A type with a parameter, without arguments, whose names mention the parameter. -/
def rawBox : Descriptor := ⟨.api, "Box<T>", "a.Box<T>", some "a", none, ["T"], false⟩

theorem accepted_rawBox : ofJson rawBox.toJson = .valid rawBox :=
  ofJson_toJson (.leaf (by decide) rfl)

/-- The parameter in the name comes before the argument. -/
theorem api_text_rawBox :
    ofJson rawBox.toJson = .valid rawBox ∧ rawBox.kind = .api ∧
      ∃ type arguments base, rawBox.typeExpr = .ok type ∧ rawBox.ArgumentTexts arguments ∧
        type.render = base ++ parameterList arguments ∧ base.HoldsArguments ∧ arguments ≠ [] := by
  obtain ⟨type, arguments, name, simpleName, typed, texts, -, rendered, -, -, stacked⟩ :=
    api_text accepted_rawBox rfl
  have unaliased : alias? rawBox.name = none := by decide +kernel
  obtain ⟨holds, some_argument⟩ := stacked.mpr
    ⟨⟨rfl, List.cons_ne_nil _ _⟩, unaliased, "Box", "T", by decide⟩
  exact ⟨accepted_rawBox, rfl, type, arguments, _, typed, texts, rendered, holds, some_argument⟩

/-- Taken by the names without their type arguments, the base would be another one, and there would be
one list of arguments instead of two. -/
theorem arguments_stacked :
    ¬ ∀ (value : Json) (d : Descriptor), ofJson value = .valid d → d.kind = .api →
      ∃ type arguments, d.typeExpr = .ok type ∧ d.ArgumentTexts arguments ∧
        type.render = baseText d.bareName d.bareSimpleName ++ parameterList arguments := by
  intro law
  obtain ⟨type, arguments, typed, texts, rendered⟩ := law _ _ accepted_rawBox rfl
  cases typed
  cases texts with
  | given arguments => cases arguments
  | declared =>
    have written : ("Box<T><any>" : Text) = "Box<any>" := rendered
    exact absurd written (by decide)

end Descriptor

end HostDecl
