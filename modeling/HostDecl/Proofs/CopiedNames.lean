import HostDecl.Proofs.Suffixes

/-!
# The names that a type takes over

Most of the text of a type is the library's own; the rest are names of the host. Which name a
descriptor hands over, if any, is settled by its kind and by the aliases: an alias stands in the place
of a name.

**The law** (`WellFormed.copies_visited`): every name in the text of a well-formed descriptor is the one
that some visited descriptor hands over. A condition on the names in a text is thereby one on the
descriptors, each by itself.
-/

namespace HostDecl.Descriptor

open TypeScript

/-- A name, unless another one has an alias that stands in its place. -/
def unlessAliased (key name : Text) : Option Text := if (alias? key).isSome then none else some name

/-- The name that a descriptor hands over to its text, besides those of the arguments that typing looks
at. -/
def copiedName? (d : Descriptor) : Option Text :=
  match d.kind with
  | .enumeration => if d.moduleName.isSome then some d.simpleName else none
  | .object => if d.isVariable then some d.name else none
  | .dataObject => some d.bareSimpleName
  | .api =>
    if d.hasArguments || d.typeParameters.isEmpty then unlessAliased d.bareName d.bareSimpleName
    else unlessAliased d.name d.simpleName
  | .other => unlessAliased d.name d.name
  | .unlisted _ => some d.name
  | _ => none

theorem ownName?_aliasOr (key name : Text) : (aliasOr key name).ownName? = unlessAliased key name := by
  unfold aliasOr unlessAliased
  cases alias? key <;> rfl

/-- The name of a node itself is the one that its descriptor hands over. -/
theorem copiedName?_of_shape {d : Descriptor} {types : List TypeExpr} {name : Text}
    (own : (d.shape types).ownName? = some name) : d.copiedName? = some name := by
  obtain ⟨kind, simpleName, whole, moduleName, typeArguments, typeParameters, isVariable⟩ := d
  cases kind with
  | enumeration | object =>
    simp only [shape] at own
    split at own
    next given =>
      simp only [copiedName?, given, if_true]
      exact own
    next => cases own
  | api =>
    cases typeArguments with
    | some items => cases own
    | none =>
      cases typeParameters with
      | nil => exact (ownName?_aliasOr _ _).symm.trans own
      | cons parameter rest => cases own
  | other =>
    rw [copiedName?, ← own]
    simp only [shape, unlessAliased]
    cases alias? whole <;> rfl
  | dataObject | unlisted => exact own
  | map | function =>
    simp only [shape] at own
    split at own <;> cases own
  | _ => cases own

/-- A type that a node brings along itself has no name in it but the one that the descriptor hands
over. -/
def BringsAlong (d : Descriptor) (operand : TypeExpr) : Prop :=
  operand = .builtin .any ∨
    ∃ key name, operand = aliasOr key name ∧ d.copiedName? = unlessAliased key name

theorem BringsAlong.copiedName? {d : Descriptor} {operand : TypeExpr} {name : Text}
    (brought : d.BringsAlong operand) (copies : operand.Copies name) : d.copiedName? = some name := by
  obtain ⟨part, inside, own⟩ := copies
  rcases brought with rfl | ⟨key, shown, rfl, handsOver⟩
  · rcases TypeExpr.partOf_iff.mp inside with rfl | ⟨_, mem, -⟩
    · cases own
    · cases mem
  · rcases TypeExpr.partOf_iff.mp inside with rfl | ⟨_, mem, -⟩
    · rw [handsOver, ← ownName?_aliasOr, own]
    · rw [operands_aliasOr] at mem
      cases mem

/-- A node's operand is the type of an argument, or the node brings it along. -/
theorem operand_of_shape {d : Descriptor} {types : List TypeExpr} {operand : TypeExpr}
    (mem : operand ∈ (d.shape types).operands) : operand ∈ types ∨ d.BringsAlong operand := by
  obtain ⟨kind, simpleName, whole, moduleName, typeArguments, typeParameters, isVariable⟩ := d
  cases kind with
  | list | set | handler | asyncResult =>
    cases types with
    | nil => exact .inr (.inl (List.mem_singleton.mp mem))
    | cons first rest => exact .inl (List.mem_singleton.mp mem ▸ List.mem_cons_self)
  | map =>
    simp only [shape] at mem
    split at mem
    next => exact .inl mem
    next => cases mem
  | function =>
    simp only [shape] at mem
    split at mem
    next => exact .inl mem
    next =>
      rcases List.mem_pair.mp mem with rfl | rfl
      · exact .inr (.inl rfl)
      · exact .inr (.inl rfl)
  | jsonArray => exact .inr (.inl (List.mem_singleton.mp mem))
  | api =>
    cases typeArguments with
    | some items =>
      rcases List.mem_cons.mp mem with rfl | argument
      · exact .inr (.inr ⟨_, _, rfl, rfl⟩)
      · exact .inl argument
    | none =>
      cases typeParameters with
      | nil =>
        have alone : operand ∈ (aliasOr (eraseArguments whole) (eraseArguments simpleName)).operands := mem
        rw [operands_aliasOr] at alone
        cases alone
      | cons parameter rest =>
        rcases List.mem_cons.mp mem with rfl | argument
        · exact .inr (.inr ⟨_, _, rfl, rfl⟩)
        · obtain ⟨_, -, same⟩ := List.mem_map.mp argument
          exact .inr (.inl same.symm)
  | enumeration | object | other =>
    simp only [shape] at mem
    split at mem <;> cases mem
  | _ => cases mem

/-- **Every name in the text of a well-formed descriptor is handed over by a visited one.** -/
theorem WellFormed.copies_visited {d : Descriptor} (wellFormed : WellFormed d) :
    ∃ type, d.typeExpr = .ok type ∧
      ∀ name, type.Copies name → ∃ n ∈ d.visited, n.copiedName? = some name := by
  refine wellFormed.typed (Q := fun d type =>
    ∀ name, type.Copies name → ∃ n ∈ d.visited, n.copiedName? = some name) ?_
  intro d types wellFormed typed related name copies
  obtain ⟨part, inside, own⟩ := copies
  rcases TypeExpr.partOf_iff.mp inside with rfl | ⟨operand, mem, below⟩
  · exact ⟨d, d.mem_visited_self, copiedName?_of_shape own⟩
  · rcases operand_of_shape mem with argument | brought
    · obtain ⟨a, looked, names⟩ := exists_of_forall₂ related.flip argument
      obtain ⟨n, visited, copied⟩ := names name ⟨part, below, own⟩
      exact ⟨n, mem_visited_of_lookedAt looked visited, copied⟩
    · exact ⟨d, d.mem_visited_self, brought.copiedName? ⟨part, below, own⟩⟩

end HostDecl.Descriptor
