import HostDecl.Proofs.Rendering
import HostDecl.Proofs.Reports

/-!
# What a suffix applies to

Brackets stand behind the text of an element, and arguments behind the text of the type that they are
applied to. Such a suffix binds tighter than the operator of a union or of a function type, so it
applies to the whole of what stands in front of it only if that text is not compound.

**The law** (`suffix_applies_iff`): all suffixes in a text apply to the whole of what stands in front of
them exactly if no collection has a callback or a function as its element, and no type whose alias is
a function type is an element or is applied to arguments. A callback keeps its function in brackets
in front of the `|`, but nothing puts the callback in brackets in front of a suffix: what is printed
for a list of callbacks is a union whose last part is a list.

The text of a type is compound or not by the shape of the type alone (`compound_render_iff`), and the
shape of a type is that of its descriptor (`isCompound_shape_iff`). Suffixes inside suffixes need no
case of their own: a list of lists of callbacks has one wrong suffix more than the list in it.
-/

namespace HostDecl

open TypeScript

namespace TypeScript

/-- The name whose alias is a function type. -/
def closeable : String := "io.vertx.core.Closeable"

/-- The parameters in the alias that is a function type. -/
def closeableParameters : String :=
  "(completionHandler: ((res: AsyncResult<void>) => void) | Handler<AsyncResult<void>>)"

/-- One alias is compound: it is a function type, and it is not in brackets. -/
theorem compound_alias_iff {name text : String} (listed : (name, text) ∈ aliases) :
    (text : Text).Compound ↔ name = closeable := by
  have others : ∀ entry ∈ aliases, entry.1 = closeable ∨
      (entry.2 : Text).Avoids Text.operatorSigns := by decide +kernel
  have function : ∀ entry ∈ aliases, entry.1 = closeable →
      entry.2 = closeableParameters ++ " => void" := by decide +kernel
  constructor
  · intro compound
    rcases others _ listed with same | plain
    · exact same
    · exact absurd compound (Text.not_compound_of_avoids plain)
  · intro same
    have parameters : (closeableParameters : Text).Balanced := by decide +kernel
    have split : text = closeableParameters ++ " => void" := function _ listed same
    rw [split, Text.ofString_append, Text.compound_append parameters]
    exact .inr (Text.compound_arrow "void")

namespace TypeExpr

/-- A type whose text is that of a union or a function type, or ends in a suffix behind such a
text. -/
inductive IsCompound : TypeExpr → Prop
  | aliased {text : String} (compound : (text : Text).Compound) : IsCompound (aliased text)
  | handler (argument : TypeExpr) : IsCompound (handler argument)
  | function (argument result : TypeExpr) : IsCompound (function argument result)
  | element {element : TypeExpr} (inner : IsCompound element) : IsCompound (array element)
  | base {base : TypeExpr} (inner : IsCompound base) (arguments : List TypeExpr) :
      IsCompound (generic base arguments)

theorem isCompound_array_iff {element : TypeExpr} :
    (array element).IsCompound ↔ element.IsCompound :=
  ⟨fun (.element inner) => inner, .element⟩

theorem isCompound_generic_iff {base : TypeExpr} {arguments : List TypeExpr} :
    (generic base arguments).IsCompound ↔ base.IsCompound :=
  ⟨fun (.base inner _) => inner, fun inner => .base inner _⟩

theorem not_compound_builtin (type : Builtin) : ¬ (type.text : Text).Compound := by
  refine Text.not_compound_of_avoids ?_
  cases type <;> decide +kernel

/-- The texts that are compound are those of such types, if the names in them are plain. -/
theorem compound_render_iff {type : TypeExpr} (listed : type.AliasesListed)
    (plain : ∀ name, type.Copies name → name.IsPlain) :
    type.render.Compound ↔ type.IsCompound := by
  induction type using induct with
  | step type ih =>
    have innerListed : ∀ operand ∈ type.operands, operand.AliasesListed :=
      fun operand mem => listed.of_partOf (.inside mem .self)
    have innerPlain : ∀ operand ∈ type.operands, ∀ name, operand.Copies name → name.IsPlain :=
      fun operand mem name copies => plain name (copies.of_partOf (.inside mem .self))
    have balanced : ∀ operand ∈ type.operands, operand.render.Balanced := fun operand mem =>
      balanced_render (innerListed operand mem) fun name copies => (innerPlain operand mem name copies).nesting
    have inner : ∀ operand ∈ type.operands, (operand.render.Compound ↔ operand.IsCompound) :=
      fun operand mem => ih operand mem (innerListed operand mem) (innerPlain operand mem)
    cases type with
    | builtin type => exact iff_of_false (not_compound_builtin type) nofun
    | aliased text => exact ⟨.aliased, fun (.aliased compound) => compound⟩
    | named name =>
      exact iff_of_false (Text.not_compound_of_avoids (plain name ⟨_, .self, rfl⟩).operators) nofun
    | unmapped name =>
      have avoids := plain name ⟨_, .self, rfl⟩
      exact iff_of_false (Text.not_compound_unmappedText avoids) nofun
    | unhandled name kind =>
      have avoids := plain name ⟨_, .self, rfl⟩
      exact iff_of_false (Text.not_compound_unmappedText avoids) nofun
    | array element =>
      rw [render_array, Text.compound_append (balanced element List.mem_cons_self),
        or_iff_left (Text.Balanced.not_compound_enclosed (by decide) _),
        inner element List.mem_cons_self, isCompound_array_iff]
    | dictionary key value =>
      have keyBalanced := balanced key List.mem_cons_self
      have valueBalanced := balanced value (List.mem_cons_of_mem _ List.mem_cons_self)
      rw [render_dictionary]
      exact iff_of_false
        ((balanced_dictionaryInside keyBalanced valueBalanced).not_compound_enclosed _) nofun
    | generic base arguments =>
      obtain ⟨baseBalanced, argumentsBalanced⟩ := List.forall_mem_cons.mp balanced
      have separated : (Text.intercalate ", " (arguments.map render)).Balanced :=
        Text.balanced_intercalate (by decide) (List.forall_mem_map.mpr argumentsBalanced)
      rw [render_generic, Text.compound_append baseBalanced,
        or_iff_left (separated.not_compound_enclosed _), inner base List.mem_cons_self,
        isCompound_generic_iff]
    | handler argument =>
      have callback := (balanced_callback (balanced argument List.mem_cons_self)).enclosed .round
      rw [render_handler, Text.compound_append callback]
      exact iff_of_true (.inr (Text.compound_bar _)) (.handler argument)
    | function argument result =>
      have parameter := balanced_parameter (balanced argument List.mem_cons_self)
      rw [render_function, Text.compound_append parameter]
      exact iff_of_true (.inr (Text.compound_arrow _)) (.function argument result)
    | asyncResult value =>
      have enclosed := (balanced value List.mem_cons_self).not_compound_enclosed .angle
      rw [render_asyncResult, Text.compound_append (by decide)]
      refine iff_of_false ?_ nofun
      rintro (name | arguments)
      · exact Text.not_compound_of_avoids (by decide) name
      · exact enclosed arguments

end TypeExpr

/-- A name with an alias is one of those listed, with that alias. -/
theorem mem_aliases_of_alias? {name : Text} {text : String} (aliased : alias? name = some text) :
    ∃ key : String, name = key ∧ (key, text) ∈ aliases := by
  obtain ⟨key, whole, found⟩ := Option.bind_eq_some_iff.mp aliased
  obtain ⟨before, after, split, -⟩ := List.lookup_eq_some_iff.mp found
  exact ⟨key, (Text.ofString_of_string? whole).symm, by rw [split]; simp⟩

theorem alias?_closeable : alias? closeable = some (closeableParameters ++ " => void") := by
  decide +kernel

/-- An alias is compound for one name only. -/
theorem compound_of_alias? {name : Text} {text : String} (aliased : alias? name = some text) :
    (text : Text).Compound ↔ name = closeable := by
  obtain ⟨key, rfl, listed⟩ := mem_aliases_of_alias? aliased
  rw [compound_alias_iff listed, Text.ofString_inj]

end TypeScript

namespace Descriptor

theorem isCompound_aliasOr {name simpleName : Text} :
    (aliasOr name simpleName).IsCompound ↔ name = closeable := by
  unfold aliasOr
  cases aliased : alias? name with
  | none =>
    refine iff_of_false nofun ?_
    rintro rfl
    rw [alias?_closeable] at aliased
    cases aliased
  | some text =>
    rw [← compound_of_alias? aliased]
    exact ⟨fun (.aliased compound) => compound, .aliased⟩

/-! ## Suffixes -/

/-- The name that an alias is looked up for, where the alias would be the whole text. -/
def aliasKey? (d : Descriptor) : Option Text :=
  match d.kind with
  | .other => some d.name
  | .api => if d.hasArguments || !d.typeParameters.isEmpty then none else some d.bareName
  | _ => none

/-- The name that an alias is looked up for, where the alias would stand in front of arguments. -/
def baseKey? (d : Descriptor) : Option Text :=
  match d.kind with
  | .api =>
    if d.hasArguments then some d.bareName
    else if d.typeParameters.isEmpty then none else some d.name
  | _ => none

/-- Where a suffix is put, and behind the text of which type: brackets behind an element, or arguments
behind the type that they are applied to. -/
inductive Suffixed (d : Descriptor) : TypeExpr → Text → Prop
  | element {a : Descriptor} {element : TypeExpr} (collection : d.kind = .list ∨ d.kind = .set)
      (argument : d.argument 0 = .ok a) (typed : a.typeExpr = .ok element) :
      Suffixed d element "[]"
  | anything (collection : d.kind = .list ∨ d.kind = .set) (raw : d.typeArguments = none) :
      Suffixed d (.builtin .any) "[]"
  | arguments {items : List Descriptor} {types : List TypeExpr} (api : d.kind = .api)
      (given : d.typeArguments = some items) (typed : typeExprs items = .ok types) :
      Suffixed d (aliasOr d.bareName d.bareSimpleName)
        ("<" ++ Text.intercalate ", " (types.map TypeExpr.render) ++ ">")
  | parameters (api : d.kind = .api) (raw : d.typeArguments = none)
      (declared : d.typeParameters ≠ []) :
      Suffixed d (aliasOr d.name d.simpleName)
        ("<" ++ Text.intercalate ", " (d.typeParameters.map fun _ => "any") ++ ">")

/-- A callback, a function, or a type whose alias is a function type. -/
def IsFunctionLike (d : Descriptor) : Prop :=
  d.kind = .handler ∨ d.kind = .function ∨ d.aliasKey? = some closeable

/-- A suffix is put behind a callback, a function or an alias that is a function type. It captures the
last part of that only. -/
def Captures (d : Descriptor) : Prop :=
  ((d.kind = .list ∨ d.kind = .set) ∧ ∃ a, d.argument 0 = .ok a ∧ a.IsFunctionLike) ∨
    d.baseKey? = some closeable

theorem argument_zero_eq_ok {d a : Descriptor} :
    d.argument 0 = .ok a ↔ ∃ rest, d.typeArguments = some (a :: rest) := by
  unfold argument
  cases d.typeArguments with
  | none => exact iff_of_false nofun nofun
  | some items =>
    cases items with
    | nil => exact iff_of_false nofun nofun
    | cons first rest =>
      constructor
      · rintro ⟨⟩
        exact ⟨rest, rfl⟩
      · rintro ⟨others, same⟩
        cases same
        rfl

/-- A suffix stands at the end of its descriptor's text, behind the text of an operand. -/
theorem Suffixed.typeExpr {d : Descriptor} {head : TypeExpr} {suffix : Text}
    (suffixed : d.Suffixed head suffix) :
    ∃ type, d.typeExpr = .ok type ∧ head ∈ type.operands ∧ type.render = head.render ++ suffix := by
  obtain ⟨kind, simpleName, name, moduleName, typeArguments, typeParameters, isVariable⟩ := d
  cases suffixed with
  | @element a _ collection argument typed =>
    obtain ⟨rest, given⟩ := argument_zero_eq_ok.mp argument
    cases given
    refine ⟨.array head, ?_, List.mem_cons_self, rfl⟩
    rcases collection with list | set
    · cases list
      simp only [Descriptor.typeExpr, typeExprAt, typed, Except.map]
    · cases set
      simp only [Descriptor.typeExpr, typeExprAt, typed, Except.map]
  | anything collection raw =>
    cases raw
    refine ⟨.array (.builtin .any), ?_, List.mem_cons_self, rfl⟩
    rcases collection with list | set
    · cases list
      rfl
    · cases set
      rfl
  | @arguments items types api given typed =>
    cases api
    cases given
    refine ⟨.generic _ types, ?_, List.mem_cons_self, ?_⟩
    · simp only [Descriptor.typeExpr, typed, Except.map]
      rfl
    · simp only [TypeExpr.render, TypeExpr.renderAll_eq_map, Text.append_assoc]
  | parameters api raw declared =>
    cases api
    cases raw
    refine ⟨.generic _ (typeParameters.map fun _ => .builtin .any), ?_, List.mem_cons_self, ?_⟩
    · have isEmpty : typeParameters.isEmpty = false := by simpa using declared
      simp only [Descriptor.typeExpr, isEmpty]
      rfl
    · simp only [TypeExpr.render, TypeExpr.renderAll_eq_map, List.map_map, Text.append_assoc]
      rfl

/-- When the type of a node is compound. -/
theorem isCompound_shape_iff {d : Descriptor} {types : List TypeExpr} :
    (d.shape types).IsCompound ↔
      d.IsFunctionLike ∨ d.baseKey? = some closeable ∨
        ((d.kind = .list ∨ d.kind = .set) ∧ (types.headD (.builtin .any)).IsCompound) := by
  obtain ⟨kind, simpleName, name, moduleName, typeArguments, typeParameters, isVariable⟩ := d
  cases kind with
  | list | set => simp [shape, IsFunctionLike, aliasKey?, baseKey?, TypeExpr.isCompound_array_iff]
  | handler => exact iff_of_true (.handler _) (.inl (.inl rfl))
  | function =>
    refine iff_of_true ?_ (.inl (.inr (.inl rfl)))
    simp only [shape]
    split <;> exact .function _ _
  | api =>
    cases typeArguments with
    | some items =>
      simp [shape, IsFunctionLike, aliasKey?, baseKey?, hasArguments, TypeExpr.isCompound_generic_iff,
        isCompound_aliasOr]
    | none =>
      cases typeParameters <;>
        simp [shape, IsFunctionLike, aliasKey?, baseKey?, hasArguments,
          TypeExpr.isCompound_generic_iff, isCompound_aliasOr]
  | other =>
    have whole : (shape ⟨.other, simpleName, name, moduleName, typeArguments, typeParameters,
        isVariable⟩ types).IsCompound ↔ (aliasOr name simpleName).IsCompound := by
      simp only [shape, aliasOr]
      cases alias? name with
      | none => constructor <;> (intro compound; cases compound)
      | some text => rfl
    rw [whole, isCompound_aliasOr]
    simp [IsFunctionLike, aliasKey?, baseKey?]
  | enumeration | object | map =>
    refine iff_of_false ?_ (by simp [IsFunctionLike, aliasKey?, baseKey?])
    simp only [shape]
    split <;> (intro compound; cases compound)
  | jsonArray =>
    refine iff_of_false (fun compound => ?_) (by simp [IsFunctionLike, aliasKey?, baseKey?])
    cases TypeExpr.isCompound_array_iff.mp compound
  | _ =>
    refine iff_of_false (fun compound => ?_) (by simp [IsFunctionLike, aliasKey?, baseKey?])
    cases compound

theorem lookedAt_of_collection {d : Descriptor} (collection : d.kind = .list ∨ d.kind = .set) :
    d.lookedAt = d.typeArguments.getD [] := by
  rcases collection with kind | kind <;> simp [lookedAt, kind, Kind.looksInside]

/-- The element of a collection is visited. -/
theorem mem_visited_of_argument_zero {d a : Descriptor} (collection : d.kind = .list ∨ d.kind = .set)
    (argument : d.argument 0 = .ok a) : a ∈ d.visited := by
  obtain ⟨rest, given⟩ := argument_zero_eq_ok.mp argument
  have looked : a ∈ d.lookedAt := by
    rw [lookedAt_of_collection collection, given]
    exact List.mem_cons_self
  exact mem_visited_of_lookedAt looked a.mem_visited_self

/-- A descriptor whose type is compound is function-like, or a suffix captures only the last part of
a text in it. -/
theorem WellFormed.isFunctionLike_or_captures {d : Descriptor} (wellFormed : WellFormed d) :
    ∃ type, d.typeExpr = .ok type ∧
      (type.IsCompound → d.IsFunctionLike ∨ ∃ n ∈ d.visited, n.Captures) := by
  refine wellFormed.typed (Q := fun d type =>
    type.IsCompound → d.IsFunctionLike ∨ ∃ n ∈ d.visited, n.Captures) ?_
  intro d types wellFormed _ related compound
  rcases isCompound_shape_iff.mp compound with functionLike | base | ⟨collection, element⟩
  · exact .inl functionLike
  · exact .inr ⟨d, d.mem_visited_self, .inr base⟩
  · rw [lookedAt_of_collection collection] at related
    cases given : d.typeArguments with
    | none =>
      rw [given] at related
      cases related
      cases element
    | some items =>
      rw [given] at related
      cases related with
      | nil => cases element
      | @cons a type others rest first related =>
        have argument := argument_zero_eq_ok.mpr ⟨others, given⟩
        rcases first element with functionLike | ⟨n, below, captures⟩
        · exact .inr ⟨d, d.mem_visited_self, .inl ⟨collection, a, argument, functionLike⟩⟩
        · have visited := mem_visited_of_argument_zero collection argument
          exact .inr ⟨n, mem_visited_trans visited below, captures⟩

theorem alias?_of_aliasOr {name simpleName : Text} {text : String}
    (aliased : .aliased text = aliasOr name simpleName) : alias? name = some text := by
  unfold aliasOr at aliased
  split at aliased
  next found =>
    cases aliased
    exact found
  next => cases aliased

/-- The alias that a node becomes is that of a name. -/
theorem alias?_of_shape {d : Descriptor} {types : List TypeExpr} {text : String}
    (aliased : .aliased text = d.shape types) : ∃ name, alias? name = some text := by
  obtain ⟨kind, simpleName, name, moduleName, typeArguments, typeParameters, isVariable⟩ := d
  cases kind with
  | api =>
    simp only [shape] at aliased
    split at aliased
    · cases aliased
    · split at aliased
      · exact ⟨_, alias?_of_aliasOr aliased⟩
      · cases aliased
  | other =>
    simp only [shape] at aliased
    split at aliased
    next found =>
      cases aliased
      exact ⟨name, found⟩
    next => cases aliased
  | enumeration | object | map | function =>
    simp only [shape] at aliased
    split at aliased <;> cases aliased
  | _ => cases aliased

theorem alias?_of_isOwnOperand {operand : TypeExpr} {text : String} (own : IsOwnOperand operand)
    (inside : TypeExpr.PartOf (.aliased text) operand) : ∃ name, alias? name = some text := by
  rcases own with rfl | ⟨name, simpleName, rfl⟩
  · rcases TypeExpr.partOf_iff.mp inside with same | ⟨_, mem, -⟩
    · cases same
    · cases mem
  · rcases TypeExpr.partOf_iff.mp inside with same | ⟨_, mem, -⟩
    · exact ⟨name, alias?_of_aliasOr same⟩
    · rw [operands_aliasOr] at mem
      cases mem

/-- The texts of aliased parts are those of the aliases, in the type of every descriptor. -/
theorem WellFormed.aliasesListed {d : Descriptor} (wellFormed : WellFormed d) :
    ∃ type, d.typeExpr = .ok type ∧ type.AliasesListed := by
  refine wellFormed.typed (Q := fun _ type => type.AliasesListed) ?_
  intro d types wellFormed _ related text inside
  have listed : (∃ name, alias? name = some text) → ∃ name, (name, text) ∈ aliases := by
    rintro ⟨name, found⟩
    obtain ⟨key, -, mem⟩ := mem_aliases_of_alias? found
    exact ⟨key, mem⟩
  obtain ⟨own, operands, brought⟩ := operands_shape wellFormed related.length_eq.symm
  rcases TypeExpr.partOf_iff.mp inside with same | ⟨operand, mem, below⟩
  · exact listed (alias?_of_shape same)
  · rw [operands] at mem
    rcases List.mem_append.mp mem with ownOperand | argument
    · exact listed (alias?_of_isOwnOperand (brought operand ownOperand) below)
    · obtain ⟨_, -, inArgument⟩ := exists_of_forall₂ related.flip argument
      exact inArgument text below

/-! ## The law -/

/-- A function-like descriptor has a compound type. -/
theorem WellFormed.isCompound_of_isFunctionLike {d : Descriptor} (wellFormed : WellFormed d) :
    ∃ type, d.typeExpr = .ok type ∧ (d.IsFunctionLike → type.IsCompound) := by
  refine wellFormed.typed (Q := fun d type => d.IsFunctionLike → type.IsCompound) ?_
  intro d types _ _ _ functionLike
  exact isCompound_shape_iff.mpr (.inl functionLike)

/-- A type applied to arguments has a suffix, and the name in front of it is the one that an alias is
looked up for. -/
theorem exists_suffixed_of_baseKey? {d : Descriptor} {type : TypeExpr} {key : Text}
    (typed : d.typeExpr = .ok type) (base : d.baseKey? = some key) :
    ∃ simpleName suffix, d.Suffixed (aliasOr key simpleName) suffix := by
  obtain ⟨kind, simpleName, name, moduleName, typeArguments, typeParameters, isVariable⟩ := d
  cases kind with
  | api =>
    cases typeArguments with
    | some items =>
      cases base
      cases each : typeExprs items with
      | error fault => simp [Descriptor.typeExpr, each, Except.map] at typed
      | ok types => exact ⟨_, _, .arguments rfl rfl each⟩
    | none =>
      cases typeParameters with
      | nil => cases base
      | cons parameter rest =>
        cases base
        exact ⟨_, _, .parameters rfl rfl (List.cons_ne_nil _ _)⟩
  | _ => cases base

section

variable {d n : Descriptor} {type head : TypeExpr} {suffix : Text}

/-- Where a suffix is put in a visited descriptor, it stands in the whole text, behind the text of a
part. -/
theorem Suffixed.partOf (wellFormed : WellFormed d) (typed : d.typeExpr = .ok type)
    (visited : n ∈ d.visited) (suffixed : n.Suffixed head suffix) :
    TypeExpr.PartOf head type ∧ (head.render ++ suffix).OccursIn type.render := by
  obtain ⟨part, partTyped, operand, text⟩ := suffixed.typeExpr
  obtain ⟨other, otherTyped, inside⟩ := of_typed wellFormed.partOf_typeExpr typed n visited
  cases otherTyped.symm.trans partTyped
  exact ⟨.trans (.inside operand .self) inside, text ▸ inside.occursIn⟩

/-- A descriptor that captures has a suffix behind a compound type. -/
theorem Captures.exists_suffixed (wellFormed : WellFormed n) (captures : n.Captures) :
    ∃ head suffix, n.Suffixed head suffix ∧ head.IsCompound := by
  rcases captures with ⟨collection, a, argument, functionLike⟩ | base
  · have visited := mem_visited_of_argument_zero collection argument
    obtain ⟨element, typed, compound⟩ := (wellFormed.of_visited visited).isCompound_of_isFunctionLike
    exact ⟨element, _, .element collection argument typed, compound functionLike⟩
  · obtain ⟨part, typed, -⟩ := wellFormed.partOf_typeExpr
    obtain ⟨simpleName, suffix, suffixed⟩ := exists_suffixed_of_baseKey? typed base
    exact ⟨_, suffix, suffixed, isCompound_aliasOr.mpr rfl⟩

/-- A suffix stands behind a compound type only where a visited descriptor captures: the one that puts
the suffix, or one in the element behind which it is put. -/
theorem Suffixed.exists_captures (wellFormed : WellFormed n) (suffixed : n.Suffixed head suffix)
    (compound : head.IsCompound) : ∃ m ∈ n.visited, m.Captures := by
  cases suffixed with
  | @element a _ collection argument typed =>
    have visited := mem_visited_of_argument_zero collection argument
    have inElement := of_typed (wellFormed.of_visited visited).isFunctionLike_or_captures typed
    rcases inElement compound with functionLike | ⟨m, below, captures⟩
    · exact ⟨n, n.mem_visited_self, .inl ⟨collection, a, argument, functionLike⟩⟩
    · exact ⟨m, mem_visited_trans visited below, captures⟩
  | anything => cases compound
  | arguments api given =>
    refine ⟨n, n.mem_visited_self, .inr ?_⟩
    simp [baseKey?, api, hasArguments, given, isCompound_aliasOr.mp compound]
  | parameters api raw declared =>
    refine ⟨n, n.mem_visited_self, .inr ?_⟩
    simp [baseKey?, api, hasArguments, raw, declared, isCompound_aliasOr.mp compound]

end

/-- **When suffixes apply to the whole of what stands in front of them.** In the text of an accepted
descriptor with plain names, what stands in front of a suffix is balanced. It is never compound
exactly if no visited descriptor captures. -/
theorem suffix_applies_iff {value : Json} {d : Descriptor} (accepted : ofJson value = .valid d) :
    ∃ type, d.typeExpr = .ok type ∧
      ((∀ name, type.Copies name → name.IsPlain) →
        (∀ n ∈ d.visited, ∀ head suffix, n.Suffixed head suffix →
          head.render.Balanced ∧ (head.render ++ suffix).OccursIn type.render) ∧
        ((∀ n ∈ d.visited, ∀ head suffix, n.Suffixed head suffix → ¬ head.render.Compound) ↔
          ∀ n ∈ d.visited, ¬ n.Captures)) := by
  have wellFormed := wellFormed_of_ofJson accepted
  obtain ⟨type, typed, listed⟩ := wellFormed.aliasesListed
  refine ⟨type, typed, fun plain => ?_⟩
  have compound_iff : ∀ {part}, TypeExpr.PartOf part type → (part.render.Compound ↔ part.IsCompound) :=
    fun inside => TypeExpr.compound_render_iff (listed.of_partOf inside)
      fun name copies => plain name (copies.of_partOf inside)
  refine ⟨fun n visited head suffix suffixed => ?_, fun whole n visited captures => ?_,
    fun free n visited head suffix suffixed compound => ?_⟩
  · obtain ⟨inside, occurs⟩ := suffixed.partOf wellFormed typed visited
    refine ⟨TypeExpr.balanced_render (listed.of_partOf inside) fun name copies => ?_, occurs⟩
    exact (plain name (copies.of_partOf inside)).nesting
  · obtain ⟨head, suffix, suffixed, compound⟩ :=
      captures.exists_suffixed (wellFormed.of_visited visited)
    obtain ⟨inside, -⟩ := suffixed.partOf wellFormed typed visited
    exact whole n visited head suffix suffixed ((compound_iff inside).mpr compound)
  · obtain ⟨inside, -⟩ := suffixed.partOf wellFormed typed visited
    obtain ⟨m, below, captures⟩ := suffixed.exists_captures (wellFormed.of_visited visited)
      ((compound_iff inside).mp compound)
    exact free m (mem_visited_trans visited below) captures

/-- A list of callbacks. -/
def callbackList : Descriptor :=
  ⟨.list, "List", "java.util.List<Handler<Foo>>", none, some [
    ⟨.handler, "Handler", "Handler<Foo>", none, some [
      ⟨.dataObject, "Foo", "a.Foo", none, none, [], false⟩], [], false⟩], [], false⟩

theorem wellFormed_callbackList : WellFormed callbackList := by
  refine .parameterized (by decide) rfl rfl (List.forall_mem_singleton.mpr ?_)
  refine .parameterized (by decide) rfl rfl (List.forall_mem_singleton.mpr ?_)
  exact .leaf (by decide) rfl

theorem isPlain_of_copies_callbackList {name : Text}
    (copies : (TypeExpr.array (.handler (.named "Foo"))).Copies name) : name.IsPlain := by
  obtain ⟨part, inside, own⟩ := copies
  -- The parts are the list, the callback and the name.
  rcases TypeExpr.partOf_iff.mp inside with rfl | ⟨_, mem, inside⟩
  · cases own
  cases List.mem_singleton.mp mem
  rcases TypeExpr.partOf_iff.mp inside with rfl | ⟨_, mem, inside⟩
  · cases own
  cases List.mem_singleton.mp mem
  rcases TypeExpr.partOf_iff.mp inside with rfl | ⟨_, mem, -⟩
  · cases own
    exact Text.isPlain_of_nameSigns (by decide)
  · cases mem

/-- The text of a list of callbacks is `((res: Foo) => void) | Handler<Foo>[]`, and its suffix belongs to
`Handler<Foo>` alone. -/
theorem suffix_applies_iff_callbackList :
    ofJson callbackList.toJson = .valid callbackList ∧
      callbackList.typeExpr = .ok (.array (.handler (.named "Foo"))) ∧
      (∀ name, (TypeExpr.array (.handler (.named "Foo"))).Copies name → name.IsPlain) ∧
      ¬ ∀ n ∈ callbackList.visited, ∀ head suffix, n.Suffixed head suffix → ¬ head.render.Compound := by
  have accepted := ofJson_toJson wellFormed_callbackList
  obtain ⟨type, typed, law⟩ := suffix_applies_iff accepted
  cases typed
  refine ⟨accepted, rfl, fun _ => isPlain_of_copies_callbackList, fun whole => ?_⟩
  have free := (law fun _ => isPlain_of_copies_callbackList).2.mp whole
  exact free callbackList (mem_visited_self _) (.inl ⟨.inl rfl, _, rfl, .inl rfl⟩)

end Descriptor

end HostDecl
