import HostDecl.Diagnostic.Channel
import HostDecl.Proofs.Typing

/-!
# What typing reports

The types of a descriptor that was read and accepted: there is one, and what it reports is the list of
the names without counterpart that the visit meets.

- `typed_of_accepted`: typing does not fail, every argument that it asks for is there, and every
  event is that of a type without counterpart.
- `reports_of_accepted`: the reports are the names of the visited types without counterpart and
  without alias, from left to right, once for each visit. The argument of a handler stands in the
  text twice and is visited once; the arguments of a class token are not visited at all. Each name
  reported stands in the text.

Both are read off one equation, `WellFormed.reports_typeExpr`, whose induction is that of
`WellFormed.typed`. Nothing is said here of descriptors that were built without being read.
-/

namespace HostDecl

open TypeScript

namespace TypeScript

/-- The names that have an alias. -/
def aliasNames : List Text := aliases.map fun entry => Text.ofString entry.1

/-- A name has no alias if it is none of the names that have one. -/
theorem alias?_eq_none_iff {name : Text} : alias? name = none ↔ name ∉ aliasNames := by
  unfold alias? aliasNames
  cases whole : name.string? with
  | none =>
    simp only [Option.bind_none, List.mem_map, not_exists, not_and, true_iff]
    rintro entry - rfl
    simp [Text.string?_ofString] at whole
  | some s =>
    obtain rfl := Text.ofString_of_string? whole
    simp only [Option.bind_some, List.lookup_eq_none_iff, List.mem_map, not_exists, not_and]
    constructor
    · intro absent entry mem same
      exact absurd (absent entry mem) (by simp [Text.ofString_inj.mp same])
    · intro absent entry mem
      simpa using fun same => absent entry mem (by rw [same])

end TypeScript

namespace Descriptor

/-- Whether a descriptor is of a type without counterpart: one of the other types, and its name is
not aliased. -/
def isUnmapped (d : Descriptor) : Bool := d.kind = .other ∧ d.name ∉ aliasNames

theorem reports_of_isOwnOperand {operand : TypeExpr} (own : IsOwnOperand operand) :
    operand.reports = [] := by
  rcases own with rfl | ⟨name, simpleName, rfl⟩
  · rfl
  · unfold aliasOr
    cases alias? name <;> rfl

/-- What a node reports itself: its name, if its type has no counterpart. -/
theorem ownReports_shape {d : Descriptor} (listed : d.kind ∈ Kind.all) (types : List TypeExpr) :
    (d.shape types).ownReports =
      if d.isUnmapped then [⟨Report.unmappedType, d.name⟩] else [] := by
  obtain ⟨kind, simpleName, name, moduleName, typeArguments, typeParameters, isVariable⟩ := d
  cases kind with
  | unlisted text => simp [Kind.all] at listed
  | other =>
    simp only [shape, isUnmapped, true_and]
    cases aliased : alias? name with
    | none => simp [TypeExpr.ownReports, alias?_eq_none_iff.mp aliased]
    | some text => simp [TypeExpr.ownReports, ← alias?_eq_none_iff, aliased]
  | api =>
    simp only [shape, aliasOr, isUnmapped]
    split
    · rfl
    · split
      · cases alias? (bareName _) <;> rfl
      · rfl
  | enumeration | object | map | function =>
    simp only [shape]
    split <;> rfl
  | _ => rfl

/-- The type of a node reports what the node does, and then what the types of its arguments do. -/
theorem reports_shape {d : Descriptor} {types : List TypeExpr} (wellFormed : WellFormed d)
    (matched : types.length = d.lookedAt.length) :
    (d.shape types).reports =
      (if d.isUnmapped then [⟨Report.unmappedType, d.name⟩] else []) ++
        types.flatMap TypeExpr.reports := by
  obtain ⟨own, operands, silent⟩ := operands_shape wellFormed matched
  have nothing : own.flatMap TypeExpr.reports = [] :=
    List.flatMap_eq_nil_iff.mpr fun operand mem => reports_of_isOwnOperand (silent operand mem)
  obtain ⟨listed, -, -⟩ := wellFormed
  rw [TypeExpr.reports_eq, ownReports_shape listed, operands, List.flatMap_append, nothing,
    List.nil_append]

theorem flatMap_eq_of_forall₂ {α β γ : Type} {f : α → List γ} {g : β → List γ} {as : List α}
    {bs : List β} (related : List.Forall₂ (fun a b => g b = f a) as bs) :
    bs.flatMap g = as.flatMap f := by
  induction related with
  | nil => rfl
  | cons same _ ih => rw [List.flatMap_cons, List.flatMap_cons, same, ih]

theorem exists_of_forall₂ {α β : Type} {R : α → β → Prop} {as : List α} {bs : List β}
    (related : List.Forall₂ R as bs) {a : α} (mem : a ∈ as) : ∃ b ∈ bs, R a b := by
  induction related with
  | nil => cases mem
  | cons head _ ih =>
    rcases List.mem_cons.mp mem with rfl | later
    · exact ⟨_, List.mem_cons_self, head⟩
    · obtain ⟨b, among, holds⟩ := ih later
      exact ⟨b, List.mem_cons_of_mem _ among, holds⟩

/-- The type of a well-formed descriptor reports the names without counterpart among the visited
descriptors, in the order of the visit. -/
theorem WellFormed.reports_typeExpr {d : Descriptor} (wellFormed : WellFormed d) :
    ∃ type, d.typeExpr = .ok type ∧ type.reports =
      (d.visited.filter isUnmapped).map fun n => ⟨Report.unmappedType, n.name⟩ := by
  refine wellFormed.typed (Q := fun d type => type.reports =
    (d.visited.filter isUnmapped).map fun n => ⟨Report.unmappedType, n.name⟩) ?_
  intro d types wellFormed _ related
  rw [reports_shape wellFormed related.length_eq.symm, flatMap_eq_of_forall₂ related, visited_eq,
    List.filter_cons, List.filter_flatMap]
  cases d.isUnmapped <;> simp [List.map_flatMap]

/-- The type of a visited descriptor is a part of the whole type. -/
theorem WellFormed.partOf_typeExpr {d : Descriptor} (wellFormed : WellFormed d) :
    ∃ type, d.typeExpr = .ok type ∧
      ∀ n ∈ d.visited, ∃ part, n.typeExpr = .ok part ∧ part.PartOf type := by
  refine wellFormed.typed (Q := fun d type =>
    ∀ n ∈ d.visited, ∃ part, n.typeExpr = .ok part ∧ part.PartOf type) ?_
  intro d types wellFormed typed related n mem
  rw [visited_eq] at mem
  rcases List.mem_cons.mp mem with rfl | below
  · exact ⟨_, typed, .self⟩
  · obtain ⟨a, looked, mem⟩ := List.mem_flatMap.mp below
    obtain ⟨type, among, parts⟩ := exists_of_forall₂ related looked
    obtain ⟨part, partTyped, inside⟩ := parts n mem
    obtain ⟨own, operands, -⟩ := operands_shape wellFormed related.length_eq.symm
    exact ⟨part, partTyped, .inside (operands ▸ List.mem_append_right own among) inside⟩

/-- Where typing asks for an argument there is one, and it is looked at. -/
theorem WellFormed.argument_eq_ok {d : Descriptor} (wellFormed : WellFormed d) {i : Nat}
    (asked : i ∈ d.askedIndices) :
    ∃ a ∈ d.lookedAt, d.argument i = .ok a ∧ typeExprAt (d.typeArguments.getD []) i = a.typeExpr := by
  obtain ⟨-, counted, -⟩ := wellFormed
  obtain ⟨kind, simpleName, name, moduleName, typeArguments, typeParameters, isVariable⟩ := d
  cases typeArguments with
  | none => simp [askedIndices, hasArguments] at asked
  | some items =>
    cases kind with
    | list | set | handler | asyncResult =>
      obtain ⟨a, rfl⟩ := arguments_of_count_one counted rfl rfl
      obtain rfl := List.mem_singleton.mp asked
      exact ⟨a, List.mem_singleton_self a, rfl, rfl⟩
    | map | function =>
      obtain ⟨a, b, rfl⟩ := arguments_of_count_two counted rfl rfl
      rcases List.mem_pair.mp asked with rfl | rfl
      · exact ⟨a, List.mem_cons_self, rfl, rfl⟩
      · exact ⟨b, List.mem_cons_of_mem _ List.mem_cons_self, rfl, rfl⟩
    | _ => cases asked

/-- A type without counterpart becomes `any`. -/
theorem typeExpr_of_isUnmapped {d : Descriptor} (unmapped : d.isUnmapped) :
    d.typeExpr = .ok (.unmapped d.name) := by
  obtain ⟨kind, simpleName, name, moduleName, typeArguments, typeParameters, isVariable⟩ := d
  simp only [isUnmapped, Bool.decide_and, Bool.and_eq_true, decide_eq_true_eq] at unmapped
  obtain ⟨rfl, foreign⟩ := unmapped
  simp [typeExpr, alias?_eq_none_iff.mpr foreign]

/-! ## The laws -/

/-- **Typing an accepted descriptor never fails, and reports nothing but names without
counterpart.** Wherever it asks for an argument, the argument is there. -/
theorem typed_of_accepted {value : Json} {d : Descriptor} (accepted : ofJson value = .valid d) :
    (∃ type, d.typeExpr = .ok type ∧
      ∀ (c : Channel) (clock : Nat → String), ∃ added,
        (c.reportAll clock type.reports).2.entries = c.entries ++ added ∧
          ∀ entry ∈ added, entry.event = Report.unmappedType) ∧
      ∀ n ∈ d.visited, ∀ i ∈ n.askedIndices, ∃ a ∈ d.visited, n.argument i = .ok a ∧
        typeExprAt (n.typeArguments.getD []) i = a.typeExpr := by
  have wellFormed := wellFormed_of_ofJson accepted
  constructor
  · obtain ⟨type, typed, reports⟩ := wellFormed.reports_typeExpr
    refine ⟨type, typed, fun c clock => ⟨_, congrArg Channel.entries (c.reportAll_channel _ _), ?_⟩⟩
    intro entry mem
    rw [reports] at mem
    obtain ⟨reading, inside, rfl⟩ := List.mem_mapIdx.mp mem
    rw [List.getElem_map]
    rfl
  · intro n visited i asked
    obtain ⟨a, looked, found, read⟩ := (wellFormed.of_visited visited).argument_eq_ok asked
    exact ⟨a, mem_visited_trans visited (mem_visited_of_lookedAt looked a.mem_visited_self), found,
      read⟩

/-- A map from callbacks to class tokens; the argument of the token is not looked at. -/
def callbackMap : Descriptor :=
  ⟨.map, "Map", "java.util.Map", none, some [
    ⟨.handler, "Handler", "Handler", none, some [⟨.other, "Foo", "a.Foo", none, none, [], false⟩], [],
      false⟩,
    ⟨.set, "Set", "Set", none, some [
      ⟨.classType, "Class", "Class", none, some [⟨.other, "Bar", "a.Bar", none, none, [], false⟩], [],
        false⟩], [], false⟩], [], false⟩

theorem wellFormed_callbackMap : WellFormed callbackMap := by
  have other : ∀ simpleName name, WellFormed ⟨.other, simpleName, name, none, none, [], false⟩ :=
    fun _ _ => .leaf (by simp [Kind.all]) rfl
  refine .parameterized (by decide) rfl rfl (List.forall_mem_cons.mpr ⟨?_, ?_⟩)
  · exact .parameterized (by decide) rfl rfl (List.forall_mem_singleton.mpr (other _ _))
  · refine List.forall_mem_singleton.mpr (.parameterized (by decide) rfl rfl ?_)
    refine List.forall_mem_singleton.mpr (.parameterized (by decide) rfl rfl ?_)
    exact List.forall_mem_singleton.mpr (other _ _)

theorem typed_of_accepted_callbackMap :
    ofJson callbackMap.toJson = .valid callbackMap ∧
      ∃ a ∈ callbackMap.visited, callbackMap.argument 1 = .ok a ∧
        typeExprAt (callbackMap.typeArguments.getD []) 1 = a.typeExpr := by
  have accepted := ofJson_toJson wellFormed_callbackMap
  exact ⟨accepted, (typed_of_accepted accepted).2 _ (mem_visited_self _) 1 (by decide)⟩

/-- **What typing reports, exactly.** Behind what a channel holds come the names without counterpart
and without alias among the visited descriptors, in the order of the visit, each once for each
visit; each at its own time; and each of them stands in the text, beside the `any` that it has become. -/
theorem reports_of_accepted {value : Json} {d : Descriptor} (accepted : ofJson value = .valid d) :
    ∃ type, d.typeExpr = .ok type ∧
      (∀ (c : Channel) (clock : Nat → String),
        (c.reportAll clock type.reports).2.entries =
          c.entries ++ (d.visited.filter isUnmapped).mapIdx fun reading n =>
            ⟨clock reading, Report.unmappedType, n.name⟩) ∧
      ∀ n ∈ d.visited, n.isUnmapped →
        ("any /* " ++ n.name ++ " */" : Text).OccursIn type.render := by
  have wellFormed := wellFormed_of_ofJson accepted
  obtain ⟨type, typed, reports⟩ := wellFormed.reports_typeExpr
  refine ⟨type, typed, fun c clock => ?_, fun n visited unmapped => ?_⟩
  · rw [c.reportAll_channel, reports, Report.stamped_map]
    rfl
  · obtain ⟨part, partTyped, inside⟩ := of_typed wellFormed.partOf_typeExpr typed n visited
    obtain rfl : .unmapped n.name = part := by
      rw [typeExpr_of_isUnmapped unmapped] at partTyped
      exact Except.ok.inj partTyped
    exact inside.occursIn

theorem reports_of_accepted_callbackMap :
    ofJson callbackMap.toJson = .valid callbackMap ∧
      ∃ type, callbackMap.typeExpr = .ok type ∧
        (∀ (c : Channel) (clock : Nat → String), (c.reportAll clock type.reports).2.entries =
          c.entries ++ [⟨clock 0, "unmapped-type", "a.Foo"⟩]) ∧
        ("any /* " ++ "a.Foo" ++ " */" : Text).OccursIn type.render := by
  have accepted := ofJson_toJson wellFormed_callbackMap
  obtain ⟨type, typed, reports, occurs⟩ := reports_of_accepted accepted
  have unmapped : callbackMap.visited.filter isUnmapped =
      [⟨.other, "Foo", "a.Foo", none, none, [], false⟩] := by
    simp [callbackMap, visited, visitedIn, visitedAll, Kind.looksInside, isUnmapped, aliasNames, aliases]
  obtain ⟨mem, alone⟩ := List.mem_filter.mp (unmapped ▸ List.mem_singleton_self _)
  refine ⟨accepted, type, typed, fun c clock => ?_, occurs _ mem alone⟩
  rw [reports, unmapped]
  rfl

end Descriptor

end HostDecl
