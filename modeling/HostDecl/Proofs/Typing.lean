import HostDecl.Descriptor.TypeExpr
import HostDecl.Proofs.Accepted
import HostDecl.Proofs.Parts
import Mathlib.Data.List.Forall2

/-!
# The node rule of typing

The type of a descriptor depends on its own fields and on the types of the arguments that its kind
looks at. `shape` is that dependence, one node at a time and without recursion, and
`typeExpr_eq_shape` says that typing is `shape` applied from the leaves up, wherever the number of
arguments is right.

**The induction** (`WellFormed.typed`): a relation between descriptors and types that `shape` carries
from the arguments of a node to the node holds between a well-formed descriptor and its type, which
it has. Every law of typing is an instance of it: what is to be shown is about one node.
-/

namespace HostDecl

open TypeScript

/-- Whether typing looks at the arguments of a kind. -/
def Kind.looksInside : Kind → Bool
  | .list | .set | .map | .api | .handler | .function | .asyncResult => true
  | _ => false

/-- The indices of the arguments that typing asks a parameterized occurrence of a kind for. A type of
a generated module has its arguments gone through one by one, without an index. -/
def Kind.indices : Kind → List Nat
  | .list | .set | .handler | .asyncResult => [0]
  | .map | .function => [0, 1]
  | _ => []

namespace Descriptor

/-- The arguments that typing looks at. -/
def lookedAt (d : Descriptor) : List Descriptor :=
  if d.kind.looksInside then d.typeArguments.getD [] else []

/-- The indices at which typing asks for an argument. -/
def askedIndices (d : Descriptor) : List Nat := if d.hasArguments then d.kind.indices else []

mutual

/-- The descriptors that typing visits: the descriptor itself and then, from left to right, those in
the arguments that it looks at. -/
def visited : Descriptor → List Descriptor
  | ⟨kind, simpleName, name, moduleName, typeArguments, typeParameters, isVariable⟩ =>
    ⟨kind, simpleName, name, moduleName, typeArguments, typeParameters, isVariable⟩ ::
      if kind.looksInside then visitedIn typeArguments else []

/-- The descriptors visited in arguments that may be absent. -/
def visitedIn : Option (List Descriptor) → List Descriptor
  | none => []
  | some items => visitedAll items

/-- The descriptors visited in a list. -/
def visitedAll : List Descriptor → List Descriptor
  | [] => []
  | d :: rest => d.visited ++ visitedAll rest

end

/-- The descriptors visited in a list, one after the other. -/
theorem visitedAll_eq_flatMap (items : List Descriptor) : visitedAll items = items.flatMap visited := by
  induction items with
  | nil => rfl
  | cons d rest ih => rw [visitedAll, ih, List.flatMap_cons]

/-- A descriptor is visited before what is visited in the arguments that it looks at. -/
theorem visited_eq (d : Descriptor) : d.visited = d :: d.lookedAt.flatMap visited := by
  obtain ⟨kind, _, _, _, typeArguments, _, _⟩ := d
  cases inside : kind.looksInside with
  | false => simp [visited, lookedAt, inside]
  | true => cases typeArguments <;> simp [visited, visitedIn, lookedAt, inside, visitedAll_eq_flatMap]

/-- A descriptor is visited itself. -/
theorem mem_visited_self (d : Descriptor) : d ∈ d.visited := by
  rw [visited_eq]
  exact List.mem_cons_self

/-- What is visited in an argument looked at is visited. -/
theorem mem_visited_of_lookedAt {d a n : Descriptor} (looked : a ∈ d.lookedAt)
    (mem : n ∈ a.visited) : n ∈ d.visited := by
  rw [visited_eq]
  exact List.mem_cons_of_mem _ (List.mem_flatMap.mpr ⟨a, looked, mem⟩)

/-- An argument looked at is an argument. -/
theorem exists_of_mem_lookedAt {d a : Descriptor} (looked : a ∈ d.lookedAt) :
    ∃ items, d.typeArguments = some items ∧ a ∈ items := by
  unfold lookedAt at looked
  split at looked
  · cases given : d.typeArguments with
    | none => simp [given] at looked
    | some items => exact ⟨items, rfl, by simpa [given] using looked⟩
  · cases looked

mutual

/-- Induction over arguments. -/
theorem induct {motive : Descriptor → Prop}
    (step : ∀ d, (∀ items, d.typeArguments = some items → ∀ a ∈ items, motive a) → motive d) :
    ∀ d, motive d
  | ⟨_, _, _, _, typeArguments, _, _⟩ => step _ (inductIn step typeArguments)

/-- Induction over arguments, for arguments that may be absent. -/
theorem inductIn {motive : Descriptor → Prop}
    (step : ∀ d, (∀ items, d.typeArguments = some items → ∀ a ∈ items, motive a) → motive d) :
    ∀ (arguments : Option (List Descriptor)) (items : List Descriptor), arguments = some items →
      ∀ a ∈ items, motive a
  | none => nofun
  | some given => by
    rintro _ ⟨⟩
    exact inductAll step given

/-- Induction over arguments, for every descriptor of a list. -/
theorem inductAll {motive : Descriptor → Prop}
    (step : ∀ d, (∀ items, d.typeArguments = some items → ∀ a ∈ items, motive a) → motive d) :
    ∀ items : List Descriptor, ∀ a ∈ items, motive a
  | [] => nofun
  | first :: rest => List.forall_mem_cons.mpr ⟨induct step first, inductAll step rest⟩

end

/-- What is visited from a visited descriptor is visited. -/
theorem mem_visited_trans {d n m : Descriptor} (outer : n ∈ d.visited) (inner : m ∈ n.visited) :
    m ∈ d.visited := by
  induction d using induct with
  | step d ih =>
    rw [visited_eq] at outer
    rcases List.mem_cons.mp outer with rfl | below
    · exact inner
    · obtain ⟨a, looked, mem⟩ := List.mem_flatMap.mp below
      obtain ⟨items, given, among⟩ := exists_of_mem_lookedAt looked
      exact mem_visited_of_lookedAt looked (ih items given a among mem)

/-- What is visited in a well-formed descriptor is well-formed. -/
theorem WellFormed.of_visited {d n : Descriptor} (wellFormed : WellFormed d) (mem : n ∈ d.visited) :
    WellFormed n := by
  induction wellFormed with
  | @node d listed counted arguments ih =>
    rw [visited_eq] at mem
    rcases List.mem_cons.mp mem with rfl | below
    · exact .node listed counted arguments
    · obtain ⟨a, looked, mem⟩ := List.mem_flatMap.mp below
      obtain ⟨items, given, among⟩ := exists_of_mem_lookedAt looked
      exact ih items given a among mem

/-! ## One node -/

/-- The type of a descriptor, given the types of the arguments that it looks at. -/
def shape (d : Descriptor) (types : List TypeExpr) : TypeExpr :=
  match d.kind with
  | .string => .builtin .string
  | .primitive | .boxedPrimitive => .builtin (primitiveType d.simpleName)
  | .enumeration => if d.moduleName.isSome then .named d.simpleName else .builtin .any
  | .object => if d.isVariable then .named d.name else .builtin .any
  | .jsonObject => .builtin .anyMap
  | .jsonArray => .array (.builtin .any)
  | .throwable => .builtin .error
  | .void => .builtin .void
  | .list | .set => .array (types.headD (.builtin .any))
  | .map =>
    match types with
    | [key, value] => .dictionary key value
    | _ => .builtin .anyMap
  | .api =>
    if d.hasArguments then .generic (aliasOr d.bareName d.bareSimpleName) types
    else if d.typeParameters.isEmpty then aliasOr d.bareName d.bareSimpleName
    else .generic (aliasOr d.name d.simpleName) (d.typeParameters.map fun _ => .builtin .any)
  | .dataObject => .named d.bareSimpleName
  | .handler => .handler (types.headD (.builtin .any))
  | .function =>
    match types with
    | [argument, result] => .function argument result
    | _ => .function (.builtin .any) (.builtin .any)
  | .asyncResult => .asyncResult (types.headD (.builtin .any))
  | .classType => .builtin .classToken
  | .other =>
    match alias? d.name with
    | some text => .aliased text
    | none => .unmapped d.name
  | .unlisted text => .unhandled d.name text

/-- Where the number of arguments is right, the type of a descriptor is its shape over the types of
the arguments that it looks at. -/
theorem typeExpr_eq_shape {d : Descriptor} (counted : d.argumentCountFault? = none) :
    d.typeExpr = (typeExprs d.lookedAt).map d.shape := by
  obtain ⟨kind, simpleName, name, moduleName, typeArguments, typeParameters, isVariable⟩ := d
  cases typeArguments with
  | none => cases kind <;> rfl
  | some items =>
    cases kind with
    | list | set | handler | asyncResult =>
      obtain ⟨a, rfl⟩ := arguments_of_count_one counted rfl rfl
      change (typeExprAt [a] 0).map _ = (typeExprs [a]).map _
      simp only [typeExprAt, typeExprs]
      cases a.typeExpr <;> rfl
    | map | function =>
      obtain ⟨a, b, rfl⟩ := arguments_of_count_two counted rfl rfl
      change _ = (typeExprs [a, b]).map _
      simp only [typeExpr, typeExprAt, typeExprs]
      cases a.typeExpr with
      | error fault => rfl
      | ok first => cases b.typeExpr <;> rfl
    | _ => rfl

/-- A type that a node brings along itself, besides the types of its arguments. -/
def IsOwnOperand (operand : TypeExpr) : Prop :=
  operand = .builtin .any ∨ ∃ name simpleName, operand = aliasOr name simpleName

theorem operands_aliasOr (name simpleName : Text) : (aliasOr name simpleName).operands = [] := by
  unfold aliasOr
  cases alias? name <;> rfl

theorem isOwnOperand_of_shape_nil {d : Descriptor} {operand : TypeExpr}
    (mem : operand ∈ (d.shape []).operands) : IsOwnOperand operand := by
  have anything : ∀ {operands : List TypeExpr}, (∀ o ∈ operands, o = .builtin .any) →
      operand ∈ operands → IsOwnOperand operand := fun all mem => .inl (all _ mem)
  obtain ⟨kind, simpleName, name, moduleName, typeArguments, typeParameters, isVariable⟩ := d
  cases kind with
  | api =>
    cases typeArguments with
    | some items => exact .inr ⟨_, _, List.mem_singleton.mp mem⟩
    | none =>
      cases typeParameters with
      | nil => simp [shape, hasArguments, operands_aliasOr] at mem
      | cons parameter rest =>
        rcases List.mem_cons.mp mem with base | argument
        · exact .inr ⟨_, _, base⟩
        · obtain ⟨_, _, rfl⟩ := List.mem_map.mp argument
          exact .inl rfl
  | enumeration | object | other =>
    simp only [shape] at mem
    split at mem <;> cases mem
  | _ => exact anything (by simp [shape, TypeExpr.operands]) mem

/-- The operands of a node's type are some of its own and then the types of the arguments that it
looks at, each once and in their order. -/
theorem operands_shape {d : Descriptor} {types : List TypeExpr} (wellFormed : WellFormed d)
    (matched : types.length = d.lookedAt.length) :
    ∃ own, (d.shape types).operands = own ++ types ∧ ∀ operand ∈ own, IsOwnOperand operand := by
  obtain ⟨-, counted, -⟩ := wellFormed
  -- a node that looks at no argument has its own operands only
  by_cases alone : d.lookedAt = []
  · obtain rfl : types = [] := List.length_eq_zero_iff.mp (by rw [matched, alone]; rfl)
    exact ⟨_, (List.append_nil _).symm, fun _ => isOwnOperand_of_shape_nil⟩
  obtain ⟨kind, simpleName, name, moduleName, typeArguments, typeParameters, isVariable⟩ := d
  cases typeArguments with
  | none => cases kind <;> exact absurd rfl alone
  | some items =>
    cases kind with
    | list | set | handler | asyncResult =>
      obtain ⟨a, rfl⟩ := arguments_of_count_one counted rfl rfl
      obtain ⟨type, rfl⟩ := List.length_eq_one_iff.mp matched
      exact ⟨[], rfl, List.forall_mem_nil _⟩
    | map | function =>
      obtain ⟨a, b, rfl⟩ := arguments_of_count_two counted rfl rfl
      obtain ⟨first, second, rfl⟩ := List.length_eq_two.mp matched
      exact ⟨[], rfl, List.forall_mem_nil _⟩
    | api => exact ⟨[_], rfl, by simpa using .inr ⟨_, _, rfl⟩⟩
    | _ => exact absurd rfl alone

/-! ## The whole tree -/

/-- Items that each have a type have their types together. -/
theorem typeExprs_typed {Q : Descriptor → TypeExpr → Prop} {items : List Descriptor}
    (each : ∀ a ∈ items, ∃ type, a.typeExpr = .ok type ∧ Q a type) :
    ∃ types, typeExprs items = .ok types ∧ List.Forall₂ Q items types := by
  induction items with
  | nil => exact ⟨[], rfl, .nil⟩
  | cons d rest ih =>
    obtain ⟨type, typed, holds⟩ := each d List.mem_cons_self
    obtain ⟨types, restTyped, allHold⟩ := ih fun a mem => each a (List.mem_cons_of_mem _ mem)
    refine ⟨type :: types, ?_, .cons holds allHold⟩
    simp only [typeExprs, typed, restTyped]
    rfl

/-- **A relation that `shape` carries up one node holds between a well-formed descriptor and its
type.** In particular the descriptor has a type. -/
theorem WellFormed.typed {Q : Descriptor → TypeExpr → Prop} {d : Descriptor}
    (wellFormed : WellFormed d)
    (node : ∀ d types, WellFormed d → d.typeExpr = .ok (d.shape types) →
      List.Forall₂ Q d.lookedAt types → Q d (d.shape types)) :
    ∃ type, d.typeExpr = .ok type ∧ Q d type := by
  induction wellFormed with
  | @node d listed counted arguments ih =>
    have each : ∀ a ∈ d.lookedAt, ∃ type, a.typeExpr = .ok type ∧ Q a type := by
      intro a looked
      obtain ⟨items, given, mem⟩ := exists_of_mem_lookedAt looked
      exact ih items given a mem
    obtain ⟨types, typed, related⟩ := typeExprs_typed each
    have shaped : d.typeExpr = .ok (d.shape types) := by
      rw [typeExpr_eq_shape counted, typed]
      rfl
    exact ⟨d.shape types, shaped, node d types (.node listed counted arguments) shaped related⟩

/-- What some type of a descriptor has, its type has. -/
theorem of_typed {P : TypeExpr → Prop} {d : Descriptor} {type : TypeExpr}
    (some_type : ∃ type, d.typeExpr = .ok type ∧ P type) (typed : d.typeExpr = .ok type) : P type := by
  obtain ⟨other, otherTyped, holds⟩ := some_type
  cases otherTyped.symm.trans typed
  exact holds

end Descriptor

end HostDecl
