import HostDecl.Descriptor.Basic
import HostDecl.Proofs.Checked
import Mathlib.Data.List.Basic

/-!
# Accepted descriptors

What reading guarantees of the descriptors that it accepts: at every node the kind is a listed one and
the number of type arguments is the one that the kind asks for. The guarantee is about the whole
tree, because the arguments of an accepted descriptor were read as descriptors themselves.

`WellFormed` says it by one rule, and its induction is the induction over accepted descriptors that
the laws of typing rest on.
-/

namespace HostDecl.Descriptor

/-- At every node the kind is listed and the number of arguments is right. -/
inductive WellFormed : Descriptor → Prop
  | node {d : Descriptor} (listed : d.kind ∈ Kind.all) (counted : d.argumentCountFault? = none)
      (arguments : ∀ items, d.typeArguments = some items → ∀ a ∈ items, WellFormed a) : WellFormed d

/-! ## The number of arguments -/

/-- A number of arguments is right if there are no arguments at all, or some, and as many as the kind
asks for. -/
theorem argumentCountFault?_eq_none_iff {d : Descriptor} :
    d.argumentCountFault? = none ↔ ∀ items, d.typeArguments = some items →
      items ≠ [] ∧ ∀ n, d.kind.argumentCount? = some n → items.length = n := by
  unfold argumentCountFault?
  cases d.typeArguments with
  | none => simp
  | some items =>
    cases items with
    | nil => simp
    | cons item rest =>
      cases d.kind.argumentCount? with
      | none => simp
      | some expected => simp

/-- The arguments of a kind that asks for one. -/
theorem arguments_of_count_one {d : Descriptor} (counted : d.argumentCountFault? = none)
    (one : d.kind.argumentCount? = some 1) {items : List Descriptor}
    (given : d.typeArguments = some items) : ∃ a, items = [a] :=
  List.length_eq_one_iff.mp ((argumentCountFault?_eq_none_iff.mp counted items given).2 1 one)

/-- The arguments of a kind that asks for two. -/
theorem arguments_of_count_two {d : Descriptor} (counted : d.argumentCountFault? = none)
    (two : d.kind.argumentCount? = some 2) {items : List Descriptor}
    (given : d.typeArguments = some items) : ∃ a b, items = [a, b] :=
  List.length_eq_two.mp ((argumentCountFault?_eq_none_iff.mp counted items given).2 2 two)

/-- A descriptor without arguments is well-formed if its kind is listed. -/
theorem WellFormed.leaf {d : Descriptor} (listed : d.kind ∈ Kind.all)
    (bare : d.typeArguments = none) : WellFormed d := by
  refine .node listed ?_ fun items given => ?_
  · simp [argumentCountFault?, bare]
  · rw [bare] at given
    cases given

/-- A descriptor with arguments is well-formed if they are and their number is right. -/
theorem WellFormed.parameterized {d : Descriptor} {items : List Descriptor}
    (listed : d.kind ∈ Kind.all) (given : d.typeArguments = some items)
    (counted : d.argumentCountFault? = none) (each : ∀ a ∈ items, WellFormed a) :
    WellFormed d := by
  refine .node listed counted fun others same => ?_
  rw [given] at same
  cases same
  exact each

/-! ## Reading -/

/-- An accepted kind is listed. -/
theorem mem_all_of_ofJson {value : Json} {kind : Kind} (accepted : Kind.ofJson value = .valid kind) :
    kind ∈ Kind.all := by
  cases value with
  | str t =>
    unfold Kind.ofJson at accepted
    cases found : Kind.ofText? t with
    | none => simp [found, Checked.refuse] at accepted
    | some listed =>
      simp only [found, Checked.valid.injEq] at accepted
      subst accepted
      exact List.mem_of_find?_eq_some found
  | _ => cases accepted

/-- The fields of an object, before the number of arguments is looked at. -/
def readFields (members : List (Text × Json)) : Checked Descriptor :=
  (((((((Json.required "kind" Kind.ofJson members).map mk).ap
    (Json.required "simple_name" Json.readText members)).ap
    (Json.required "name" Json.readText members)).ap
    (Json.optional "module_name" none (Json.readOptional Json.readText) members)).ap
    (argumentsField members)).ap
    (Json.optional "type_parameters" [] (Json.readList Json.readText) members)).ap
    (Json.optional "is_variable" false Json.readBool members)

/-- An object is read field by field and then held against the rule about the number of arguments. -/
theorem ofJson_obj (members : List (Text × Json)) :
    ofJson (.obj members) = (readFields members).also argumentCountRule := by
  rw [ofJson, readFields]

/-- The fields are accepted together where each of them is. -/
theorem readFields_eq_valid {members : List (Text × Json)} {d : Descriptor} :
    readFields members = .valid d ↔
      Json.required "kind" Kind.ofJson members = .valid d.kind ∧
      Json.required "simple_name" Json.readText members = .valid d.simpleName ∧
      Json.required "name" Json.readText members = .valid d.name ∧
      Json.optional "module_name" none (Json.readOptional Json.readText) members =
        .valid d.moduleName ∧
      argumentsField members = .valid d.typeArguments ∧
      Json.optional "type_parameters" [] (Json.readList Json.readText) members =
        .valid d.typeParameters ∧
      Json.optional "is_variable" false Json.readBool members = .valid d.isVariable := by
  simp only [readFields, Checked.ap_eq_valid, Checked.map_eq_valid]
  constructor
  · rintro ⟨_, _, ⟨_, _, ⟨_, _, ⟨_, _, ⟨_, _, ⟨_, _, ⟨_, kind, rfl⟩, simpleName, rfl⟩, name, rfl⟩,
      moduleName, rfl⟩, typeArguments, rfl⟩, typeParameters, rfl⟩, isVariable, rfl⟩
    exact ⟨kind, simpleName, name, moduleName, typeArguments, typeParameters, isVariable⟩
  · obtain ⟨_, _, _, _, _, _, _⟩ := d
    rintro ⟨kind, simpleName, name, moduleName, typeArguments, typeParameters, isVariable⟩
    exact ⟨_, _, ⟨_, _, ⟨_, _, ⟨_, _, ⟨_, _, ⟨_, _, ⟨_, kind, rfl⟩, simpleName, rfl⟩, name, rfl⟩,
      moduleName, rfl⟩, typeArguments, rfl⟩, typeParameters, rfl⟩, isVariable, rfl⟩

/-- An object is accepted as a descriptor where each field is and the number of arguments is right. -/
theorem ofJson_obj_eq_valid {members : List (Text × Json)} {d : Descriptor} :
    ofJson (.obj members) = .valid d ↔
      Json.required "kind" Kind.ofJson members = .valid d.kind ∧
      Json.required "simple_name" Json.readText members = .valid d.simpleName ∧
      Json.required "name" Json.readText members = .valid d.name ∧
      Json.optional "module_name" none (Json.readOptional Json.readText) members =
        .valid d.moduleName ∧
      argumentsField members = .valid d.typeArguments ∧
      Json.optional "type_parameters" [] (Json.readList Json.readText) members =
        .valid d.typeParameters ∧
      Json.optional "is_variable" false Json.readBool members = .valid d.isVariable ∧
      d.argumentCountFault? = none := by
  rw [ofJson_obj, Checked.also_eq_valid, readFields_eq_valid, argumentCountRule, Option.map_eq_none_iff]
  simp only [and_assoc]

mutual

/-- An accepted descriptor is well-formed. -/
theorem wellFormed_of_ofJson : ∀ {value : Json} {d : Descriptor},
    ofJson value = .valid d → WellFormed d
  | .obj members, d, accepted => by
    obtain ⟨kind, -, -, -, typeArguments, -, -, counted⟩ := ofJson_obj_eq_valid.mp accepted
    obtain ⟨_, _, read⟩ := Checked.required_eq_valid.mp kind
    exact .node (mem_all_of_ofJson read) counted (wellFormed_of_argumentsField typeArguments)
  | .null, _, accepted | .bool _, _, accepted | .int _, _, accepted | .float _, _, accepted
  | .str _, _, accepted | .arr _, _, accepted => by
    simp [ofJson, Checked.refuse] at accepted

/-- The arguments of an accepted field are well-formed. -/
theorem wellFormed_of_argumentsField : ∀ {members : List (Text × Json)}
    {arguments : Option (List Descriptor)}, argumentsField members = .valid arguments →
    ∀ items, arguments = some items → ∀ a ∈ items, WellFormed a
  | [], _, accepted => by
    simp only [argumentsField, Checked.valid.injEq] at accepted
    subst accepted
    rintro items ⟨⟩
  | (key, value) :: rest, _, accepted => by
    simp only [argumentsField] at accepted
    split at accepted
    · exact wellFormed_of_readArguments (Checked.under_eq_valid.mp accepted)
    · exact wellFormed_of_argumentsField accepted

/-- Accepted arguments are well-formed. -/
theorem wellFormed_of_readArguments : ∀ {value : Json} {arguments : Option (List Descriptor)},
    readArguments value = .valid arguments →
    ∀ items, arguments = some items → ∀ a ∈ items, WellFormed a
  | .null, _, accepted => by
    simp only [readArguments, Checked.valid.injEq] at accepted
    subst accepted
    rintro items ⟨⟩
  | .arr values, _, accepted => by
    simp only [readArguments] at accepted
    obtain ⟨items, read, rfl⟩ := Checked.map_eq_valid.mp accepted
    rintro _ ⟨⟩
    exact wellFormed_of_argumentsFrom read
  | .bool _, _, accepted | .int _, _, accepted | .float _, _, accepted | .str _, _, accepted
  | .obj _, _, accepted => by
    simp [readArguments, Checked.refuse] at accepted

/-- Accepted items are well-formed. -/
theorem wellFormed_of_argumentsFrom : ∀ {i : Nat} {values : List Json} {items : List Descriptor},
    argumentsFrom i values = .valid items → ∀ a ∈ items, WellFormed a
  | _, [], _, accepted => by
    simp only [argumentsFrom, Checked.valid.injEq] at accepted
    subst accepted
    simp
  | i, value :: values, _, accepted => by
    simp only [argumentsFrom] at accepted
    obtain ⟨d, rest, read, behind, rfl⟩ := Checked.cons_eq_valid.mp accepted
    intro a mem
    rcases List.mem_cons.mp mem with rfl | later
    · exact wellFormed_of_ofJson read
    · exact wellFormed_of_argumentsFrom behind a later

end

/-! ## Writing -/

/-- A listed kind is read back from its text. -/
theorem kind_ofJson_text {kind : Kind} (listed : kind ∈ Kind.all) :
    Kind.ofJson (.str kind.text) = .valid kind := by
  simp [Kind.ofJson, Kind.ofText?_text listed]

/-- The fields of a written descriptor are read back, if its arguments are. -/
theorem ofJson_toJson_of_arguments {d : Descriptor} (listed : d.kind ∈ Kind.all)
    (counted : d.argumentCountFault? = none)
    (arguments : readArguments (argumentsToJson d.typeArguments) = .valid d.typeArguments) :
    ofJson d.toJson = .valid d := by
  obtain ⟨kind, simpleName, name, moduleName, typeArguments, typeParameters, isVariable⟩ := d
  rw [toJson, ofJson_obj_eq_valid]
  refine ⟨?_, ?_, ?_, ?_, ?_, ?_, ?_, counted⟩
  · exact Checked.required_eq_valid.mpr ⟨_, by simp [Json.member?], kind_ofJson_text listed⟩
  · exact Checked.required_eq_valid.mpr ⟨_, by simp [Json.member?]; rfl, rfl⟩
  · exact Checked.required_eq_valid.mpr ⟨_, by simp [Json.member?]; rfl, rfl⟩
  · refine Checked.optional_eq_valid.mpr (.inr ⟨_, by simp [Json.member?]; rfl, ?_⟩)
    cases moduleName <;> rfl
  · simpa [argumentsField, Checked.under_eq_valid] using arguments
  · refine Checked.optional_eq_valid.mpr (.inr ⟨_, by simp [Json.member?]; rfl, ?_⟩)
    exact Checked.readItems_map_str 0 typeParameters
  · exact Checked.optional_eq_valid.mpr (.inr ⟨_, by simp [Json.member?]; rfl, rfl⟩)

/-- Items that are read back one by one are read back together, whatever their indices. -/
theorem argumentsFrom_itemsToJson {items : List Descriptor}
    (each : ∀ a ∈ items, ofJson a.toJson = .valid a) (i : Nat) :
    argumentsFrom i (itemsToJson items) = .valid items := by
  induction items generalizing i with
  | nil => rfl
  | cons a rest ih =>
    obtain ⟨first, others⟩ := List.forall_mem_cons.mp each
    exact Checked.cons_eq_valid.mpr ⟨a, rest, first, ih others (i + 1), rfl⟩

/-- A well-formed descriptor is read back from what is written of it. -/
theorem ofJson_toJson {d : Descriptor} (wellFormed : WellFormed d) : ofJson d.toJson = .valid d := by
  induction wellFormed with
  | @node d listed counted arguments ih =>
    refine ofJson_toJson_of_arguments listed counted ?_
    cases given : d.typeArguments with
    | none => rfl
    | some items =>
      exact Checked.map_eq_valid.mpr
        ⟨items, argumentsFrom_itemsToJson (ih items given) 0, rfl⟩

end HostDecl.Descriptor
