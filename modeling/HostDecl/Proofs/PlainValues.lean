import HostDecl.ImportLedger
import HostDecl.Proofs.DescriptorValues
import HostDecl.Proofs.Reports

/-!
# The plain value of a type

Many values are accepted as one descriptor: a field that has a default may be left out, other keys may
stand beside the fields, and a truth value may be written as a number or a word. A value is `Plain` if none
of this freedom is used, in it or in its type arguments.

**Each accepted descriptor has one plain value** (`accepted_as_written`). It is what is written of the
descriptor, and it is accepted as the descriptor again. So a value that is read and written once is not
changed by reading and writing it again, and whatever depends on the descriptor alone is the same before and
after.
-/

namespace HostDecl

namespace Json

/-- There is a value under the keys of an object and no others. -/
theorem exists_member?_iff {key : Text} {members : List (Text × Json)} :
    (∃ value, member? key members = some value) ↔ key ∈ members.map Prod.fst := by
  induction members with
  | nil => simp [member?]
  | cons entry rest ih =>
    obtain ⟨k, v⟩ := entry
    rw [member?, List.map_cons, List.mem_cons, ← ih]
    by_cases here : k = key
    · rw [if_pos here]
      exact ⟨fun _ => .inl here.symm, fun _ => ⟨v, rfl⟩⟩
    · rw [if_neg here]
      exact ⟨.inr, fun found => found.resolve_left fun same => here same.symm⟩

/-- Members with different keys are told by their keys and what is found under them. -/
theorem members_ext {members others : List (Text × Json)}
    (keys : members.map Prod.fst = others.map Prod.fst) (different : (members.map Prod.fst).Nodup)
    (same : ∀ key ∈ members.map Prod.fst, member? key members = member? key others) : members = others := by
  induction members generalizing others with
  | nil => exact (List.map_eq_nil_iff.mp keys.symm).symm
  | cons entry rest ih =>
    obtain ⟨k, v⟩ := entry
    cases others with
    | nil => cases keys
    | cons other others =>
      obtain ⟨l, w⟩ := other
      rw [List.map_cons, List.map_cons, List.cons.injEq] at keys
      obtain ⟨rfl, keys⟩ := keys
      rw [List.map_cons, List.nodup_cons] at different
      obtain ⟨fresh, different⟩ := different
      obtain ⟨here, behind⟩ := List.forall_mem_cons.mp same
      have value : v = w := by simpa [member?] using here
      rw [value, ih keys different fun key mem => ?_]
      have other : k ≠ key := fun same => fresh (same ▸ mem)
      simpa only [member?, if_neg other] using behind key mem

end Json

namespace Descriptor

/-- A value that has each field of a descriptor once and in order, and nothing else, with a truth value for a
truth value; and so have its type arguments. -/
inductive Plain : Json → Prop
  | object {members : List (Text × Json)} (keys : members.map Prod.fst = fieldKeys)
    (truth : ∃ b, Json.member? "is_variable" members = some (.bool b))
    (arguments : ∀ items, Json.member? "type_arguments" members = some (.arr items) →
      ∀ item ∈ items, Plain item) : Plain (.obj members)

theorem itemsToJson_eq_map (items : List Descriptor) : itemsToJson items = items.map toJson := by
  induction items with
  | nil => rfl
  | cons d rest ih => rw [itemsToJson, ih, List.map_cons]

/-- What is written of a descriptor is plain. -/
theorem plain_toJson (d : Descriptor) : Plain d.toJson := by
  induction d using induct with
  | step d ih =>
    obtain ⟨kind, simpleName, name, moduleName, typeArguments, typeParameters, isVariable⟩ := d
    rw [toJson]
    refine .object rfl ⟨isVariable, by simp [Json.member?]⟩ fun items found item mem => ?_
    have written : argumentsToJson typeArguments = .arr items := by
      simpa [Json.member?] using found
    cases typeArguments with
    | none => cases written
    | some arguments =>
      rw [argumentsToJson, itemsToJson_eq_map, Json.arr.injEq] at written
      rw [← written] at mem
      obtain ⟨a, among, rfl⟩ := List.mem_map.mp mem
      exact ih arguments rfl a among

theorem eq_map_toJson {items : List Json} {ds : List Descriptor}
    (each : List.Forall₂ (fun item d => ofJson item = .valid d) items ds)
    (written : ∀ item ∈ items, ∀ {d : Descriptor}, ofJson item = .valid d → item = d.toJson) :
    items = ds.map toJson := by
  induction each with
  | nil => rfl
  | cons accepted _ ih =>
    obtain ⟨first, others⟩ := List.forall_mem_cons.mp written
    rw [List.map_cons, ← first accepted, ← ih others]

/-- A plain value that is accepted is what is written of the descriptor. -/
theorem eq_toJson_of_plain {value : Json} (plain : Plain value) :
    ∀ {d : Descriptor}, ofJson value = .valid d → value = d.toJson := by
  induction plain with
  | @object members keys truth _ ih =>
    intro d accepted
    have given : ∀ key ∈ fieldKeys, ∃ value, Json.member? key members = some value :=
      fun key mem => Json.exists_member?_iff.mpr (keys ▸ mem)
    obtain ⟨moduleValue, moduleGiven⟩ := given "module_name" (by decide)
    obtain ⟨argumentsValue, argumentsGiven⟩ := given "type_arguments" (by decide)
    obtain ⟨parametersValue, parametersGiven⟩ := given "type_parameters" (by decide)
    obtain ⟨b, truthGiven⟩ := truth
    obtain ⟨kind, simpleName, name, module, arguments, parameters, isVariable, -⟩ :=
      ofJson_obj_eq_valid.mp accepted
    obtain ⟨kindValue, kindGiven, kindRead⟩ := Checked.required_eq_valid.mp kind
    obtain ⟨rfl, -⟩ := kind_ofJson_eq_valid.mp kindRead
    rw [requiredText_eq_valid] at simpleName name
    rw [Checked.optional_eq_valid_iff moduleGiven, readModule_eq_valid] at module
    rw [argumentsField_eq, Checked.optional_eq_valid_iff argumentsGiven] at arguments
    rw [Checked.optional_eq_valid_iff parametersGiven, readParameters_eq_valid] at parameters
    rw [Checked.optional_eq_valid_iff truthGiven, Json.readBool, Checked.valid.injEq] at isVariable
    have argumentsWritten : argumentsValue = argumentsToJson d.typeArguments := by
      rcases readArguments_eq_valid.mp arguments with ⟨rfl, bare⟩ | ⟨items, ds, rfl, parameterized, each⟩
      · rw [bare]
        rfl
      · rw [parameterized, argumentsToJson, itemsToJson_eq_map, ← eq_map_toJson each (ih items argumentsGiven)]
    obtain ⟨_, _, _, _, _, _, _⟩ := d
    rw [toJson, Json.obj.injEq]
    apply Json.members_ext keys
    · rw [keys]
      decide
    · rw [keys]
      simp only [fieldKeys, List.forall_mem_cons]
      simp [Json.member?, kindGiven, simpleName, name, moduleGiven, module, argumentsGiven,
        argumentsWritten, parametersGiven, parameters, truthGiven, isVariable]

/-- A plain value is accepted as a descriptor exactly if it is what is written of it. -/
theorem plain_iff_of_accepted {value : Json} {d : Descriptor} (accepted : ofJson value = .valid d) :
    Plain value ↔ value = d.toJson := by
  constructor
  · intro plain
    exact eq_toJson_of_plain plain accepted
  · rintro rfl
    exact plain_toJson d

/-! ## The law -/

/-- **Reading and writing come to rest after one turn.** What is written of an accepted descriptor is
accepted as that descriptor, at every node of it, and is the one plain value that is. So the type of the
descriptor, what it reports and its import key are the same if it is written and read again, and the accepted
descriptors are those that are read back from what is written of them. -/
theorem accepted_as_written {value : Json} {d : Descriptor} (accepted : ofJson value = .valid d) :
    ofJson d.toJson = .valid d ∧
    (∀ n, d.HasNode n → ofJson n.toJson = .valid n) ∧
    Plain d.toJson ∧
    (∀ other, ofJson other = .valid d → (Plain other ↔ other = d.toJson)) ∧
    (∀ e, ofJson d.toJson = .valid e → e.importKey = d.importKey ∧
      ∃ type, d.typeExpr = .ok type ∧ e.typeExpr = .ok type) ∧
    ∀ e, (∃ other, ofJson other = .valid e) ↔ ofJson e.toJson = .valid e := by
  have wellFormed := wellFormed_of_ofJson accepted
  have again := ofJson_toJson wellFormed
  refine ⟨again, ?nodes, plain_toJson d, fun other => plain_iff_of_accepted, ?same, ?fixed⟩
  case nodes =>
    intro n node
    exact ofJson_toJson (wellFormed.of_hasNode node)
  case same =>
    intro e read
    obtain rfl : d = e := Checked.valid.inj (again.symm.trans read)
    obtain ⟨type, typed, -⟩ := wellFormed.reports_typeExpr
    exact ⟨rfl, type, typed, typed⟩
  case fixed =>
    intro e
    constructor
    · rintro ⟨other, read⟩
      exact ofJson_toJson (wellFormed_of_ofJson read)
    · intro read
      exact ⟨e.toJson, read⟩

/-- The list of texts again, with a number for a truth value and without three of its fields: it is accepted,
is not plain, and is written with all of them. -/
theorem accepted_as_written_listOfTexts :
    ofJson (.obj (listMembers [textValue])) = .valid listOfTexts ∧
      ¬ Plain (.obj (listMembers [textValue])) ∧
      ofJson listOfTexts.toJson = .valid listOfTexts ∧
      ∃ members, listOfTexts.toJson = .obj members ∧
        Json.member? "module_name" members = some .null ∧
        Json.member? "is_variable" members = some (.bool false) := by
  have accepted : ofJson (.obj (listMembers [textValue])) = .valid listOfTexts := by
    rfl
  refine ⟨accepted, ?_, (accepted_as_written accepted).1, _, rfl, rfl, rfl⟩
  rintro ⟨keys, -⟩
  exact absurd keys (by decide)

end Descriptor

end HostDecl
