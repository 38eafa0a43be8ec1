import HostDecl.Proofs.Accepted

/-!
# The values that describe types

`Describes` says what a JSON value has to look like to describe a type: which fields are there, what
stands in them, and how many type arguments a kind has. It knows of no order of checks, and nothing of
issues.

**Reading accepts the values that describe a type** (`accepted_iff_describes`), at any depth, and no
others. A refused value comes with an issue. An accepted descriptor has the right number of arguments at
every node, also below arguments that its TypeScript type does not mention; and nothing else in an
object than its seven fields has a part in how it is read.

What a value can be read as does not make it one: the number `1` is read as a truth value, and no number
is read as a text.
-/

namespace HostDecl

/-! ## Truth values -/

namespace Json

/-- A value that is read as a truth value. -/
inductive IsTruthValue : Json → Prop
  | bool (value : Bool) : IsTruthValue (.bool value)
  | int {n : Int} (unit : n = 0 ∨ n = 1) : IsTruthValue (.int n)
  | float {x : Binary64} {n : Int} (whole : x.toInt? = some n) (unit : n = 0 ∨ n = 1) :
    IsTruthValue (.float x)
  | word {text : Text} {word : String} (whole : text.string? = some word)
    (listed : Text.asciiLower word ∈ truthWords ++ falsityWords) : IsTruthValue (.str text)

theorem readTruthNumber_accepted_iff {n : Int} :
    (∃ b, readTruthNumber n = .valid b) ↔ n = 0 ∨ n = 1 := by
  rw [readTruthNumber]
  split
  next zero => exact ⟨fun _ => .inl zero, fun _ => ⟨false, rfl⟩⟩
  next nonzero =>
    split
    next one => exact ⟨fun _ => .inr one, fun _ => ⟨true, rfl⟩⟩
    next other => simp [Checked.refuse, nonzero, other]

theorem readBool_accepted_iff {value : Json} :
    (∃ b, readBool value = .valid b) ↔ value.IsTruthValue := by
  -- the bounds of 64 bits leave the numbers 0 and 1 alone
  have bounded : ∀ {n : Int}, n = 0 ∨ n = 1 → -wordBound < n ∧ n < wordBound := by
    rintro n (rfl | rfl) <;> decide
  constructor
  · rintro ⟨b, accepted⟩
    cases value with
    | bool value => exact .bool value
    | int n =>
      rw [readBool] at accepted
      split at accepted
      next => exact .int (readTruthNumber_accepted_iff.mp ⟨b, accepted⟩)
      next => cases accepted
    | float x =>
      simp only [readBool] at accepted
      split at accepted
      next n whole =>
        split at accepted
        next => exact .float whole (readTruthNumber_accepted_iff.mp ⟨b, accepted⟩)
        next => cases accepted
      next => cases accepted
    | str text =>
      simp only [readBool] at accepted
      split at accepted
      next => cases accepted
      next word whole =>
        refine .word whole (List.mem_append.mpr ?_)
        split at accepted
        next true_word => exact .inl true_word
        next =>
          split at accepted
          next false_word => exact .inr false_word
          next => cases accepted
    | null | arr _ | obj _ => cases accepted
  · intro truth
    cases truth with
    | bool value => exact ⟨value, rfl⟩
    | int unit =>
      rw [readBool, if_pos ⟨Int.le_of_lt (bounded unit).1, (bounded unit).2⟩]
      exact readTruthNumber_accepted_iff.mpr unit
    | float whole unit =>
      simp only [readBool, whole, if_pos (bounded unit)]
      exact readTruthNumber_accepted_iff.mpr unit
    | @word text word whole listed =>
      simp only [readBool, whole]
      rcases List.mem_append.mp listed with true_word | false_word
      · exact ⟨true, if_pos true_word⟩
      · split
        next => exact ⟨true, rfl⟩
        next => exact ⟨false, rfl⟩

end Json

/-! ## Descriptions -/

/-- Occurrences of a kind have this number of type arguments if they have any. -/
def Kind.Takes (kind : Kind) (count : Nat) : Prop :=
  (kind ∈ [.list, .set, .handler, .asyncResult] → count = 1) ∧ (kind ∈ [.map, .function] → count = 2)

/-- The members of an object are those of an occurrence of a kind. -/
structure DescribesFields (kind : Kind) (members : List (Text × Json)) : Prop where
  listed : kind ∈ Kind.all
  named : Json.member? "kind" members = some (.str kind.text)
  simpleName : ∃ text, Json.member? "simple_name" members = some (.str text)
  name : ∃ text, Json.member? "name" members = some (.str text)
  moduleName : ∀ value, Json.member? "module_name" members = some value →
    value = .null ∨ ∃ text, value = .str text
  typeParameters : ∀ value, Json.member? "type_parameters" members = some value →
    ∃ names : List Text, value = .arr (names.map .str)
  isVariable : ∀ value, Json.member? "is_variable" members = some value → value.IsTruthValue
  typeArguments : ∀ value, Json.member? "type_arguments" members = some value →
    value = .null ∨ ∃ items, value = .arr items ∧ items ≠ [] ∧ kind.Takes items.length

/-- The values that describe types: objects with these members, whose type arguments describe types. -/
inductive Describes : Json → Prop
  | object {kind : Kind} {members : List (Text × Json)} (fields : DescribesFields kind members)
    (arguments : ∀ items, Json.member? "type_arguments" members = some (.arr items) →
      ∀ item ∈ items, Describes item) : Describes (.obj members)

namespace Descriptor

/-! ## Fields -/

theorem kind_ofJson_eq_valid {value : Json} {kind : Kind} :
    Kind.ofJson value = .valid kind ↔ value = .str kind.text ∧ kind ∈ Kind.all := by
  constructor
  · intro accepted
    refine ⟨?_, mem_all_of_ofJson accepted⟩
    cases value with
    | str t =>
      rw [Kind.ofJson] at accepted
      split at accepted
      next listed found =>
        cases accepted
        have same := List.find?_some found
        rw [of_decide_eq_true same]
      next => cases accepted
    | _ => cases accepted
  · rintro ⟨rfl, listed⟩
    exact kind_ofJson_text listed

theorem readText_eq_valid {value : Json} {text : Text} :
    Json.readText value = .valid text ↔ value = .str text := by
  cases value <;> simp [Json.readText, Checked.refuse]

theorem requiredText_eq_valid {key : Text} {members : List (Text × Json)} {text : Text} :
    Json.required key Json.readText members = .valid text ↔
      Json.member? key members = some (.str text) := by
  simp only [Checked.required_eq_valid, readText_eq_valid, exists_eq_right]

theorem readModule_eq_valid {value : Json} {module : Option Text} :
    Json.readOptional Json.readText value = .valid module ↔ value = (module.map Json.str).getD .null := by
  cases value <;> cases module <;> simp [Json.readOptional, Json.readText, Checked.map, Checked.refuse]

theorem exists_readModule_iff {value : Json} :
    (∃ module, Json.readOptional Json.readText value = .valid module) ↔
      value = .null ∨ ∃ text, value = .str text := by
  simp [readModule_eq_valid, Option.exists]

theorem readParameters_eq_valid {value : Json} {names : List Text} :
    Json.readList Json.readText value = .valid names ↔ value = .arr (names.map .str) := by
  cases value with
  | arr items =>
    simp only [Json.readList, Checked.readItems_eq_valid, readText_eq_valid, Json.arr.injEq]
    rw [← List.forall₂_map_right_iff (R := Eq), List.forall₂_eq_eq_eq]
  | _ => simp [Json.readList, Checked.refuse]

theorem exists_readParameters_iff {value : Json} :
    (∃ names, Json.readList Json.readText value = .valid names) ↔
      ∃ names : List Text, value = .arr (names.map .str) := by
  simp only [readParameters_eq_valid]

theorem argumentsFrom_eq (i : Nat) (items : List Json) :
    argumentsFrom i items = Json.readItems ofJson i items := by
  induction items generalizing i with
  | nil => rfl
  | cons item rest ih => rw [argumentsFrom, Json.readItems, ih]

theorem argumentsField_eq (members : List (Text × Json)) :
    argumentsField members = Json.optional "type_arguments" none readArguments members := by
  induction members with
  | nil => rfl
  | cons entry rest ih =>
    obtain ⟨key, value⟩ := entry
    rw [argumentsField, ih, Json.optional, Json.optional, Json.member?]
    split
    next same => rw [same]
    next => rfl

/-- Type arguments are read one by one. -/
theorem readArguments_eq_valid {value : Json} {arguments : Option (List Descriptor)} :
    readArguments value = .valid arguments ↔ (value = .null ∧ arguments = none) ∨
      ∃ items ds, value = .arr items ∧ arguments = some ds ∧
        List.Forall₂ (fun item d => ofJson item = .valid d) items ds := by
  cases value with
  | null => simp [readArguments, eq_comm]
  | arr items =>
    rw [readArguments, Checked.map_eq_valid, argumentsFrom_eq]
    simp only [Checked.readItems_eq_valid, reduceCtorEq, false_and, false_or, Json.arr.injEq]
    constructor
    · rintro ⟨ds, each, rfl⟩
      exact ⟨items, ds, rfl, rfl, each⟩
    · rintro ⟨_, ds, rfl, rfl, each⟩
      exact ⟨ds, each, rfl⟩
  | _ => simp [readArguments, Checked.refuse]

theorem takes_iff {kind : Kind} {count : Nat} :
    kind.Takes count ↔ ∀ n, kind.argumentCount? = some n → count = n := by
  have asked : kind.argumentCount? =
      if kind ∈ [.list, .set, .handler, .asyncResult] then some 1
      else if kind ∈ [.map, .function] then some 2 else none := by
    cases kind <;> rfl
  have apart : kind ∈ [.list, .set, .handler, .asyncResult] → kind ∉ [.map, .function] := by
    cases kind <;> simp
  rw [asked, Kind.Takes]
  split
  next one => simp [one, apart one]
  next others =>
    split
    next two => simp [others, two]
    next neither => simp [others, neither]

/-! ## Induction -/

theorem sizeOf_member? {key : Text} {members : List (Text × Json)} {value : Json}
    (found : Json.member? key members = some value) : sizeOf value < sizeOf members := by
  induction members with
  | nil => cases found
  | cons entry rest ih =>
    obtain ⟨k, v⟩ := entry
    rw [Json.member?] at found
    rw [List.cons.sizeOf_spec, Prod.mk.sizeOf_spec]
    split at found
    next =>
      cases found
      omega
    next =>
      have inside := ih found
      omega

/-- Induction over the type arguments in a value. -/
theorem inductArguments {motive : Json → Prop}
    (node : ∀ value, (∀ members items, value = .obj members →
      Json.member? "type_arguments" members = some (.arr items) → ∀ item ∈ items, motive item) →
      motive value) (value : Json) : motive value := by
  induction size : sizeOf value using Nat.strongRecOn generalizing value with
  | ind bound ih =>
    refine node value fun members items is found item mem => ih (sizeOf item) ?_ item rfl
    have inside := sizeOf_member? found
    have among := List.sizeOf_lt_of_mem mem
    rw [Json.arr.sizeOf_spec] at inside
    rw [← size, is, Json.obj.sizeOf_spec]
    omega

/-! ## Accepted values -/

/-- The type arguments of an accepted object. -/
theorem typeArguments_of_ofJson {members : List (Text × Json)} {d : Descriptor}
    (accepted : ofJson (.obj members) = .valid d) {items : List Json}
    (found : Json.member? "type_arguments" members = some (.arr items)) :
    ∃ ds, d.typeArguments = some ds ∧
      List.Forall₂ (fun item d => ofJson item = .valid d) items ds := by
  obtain ⟨-, -, -, -, arguments, -⟩ := ofJson_obj_eq_valid.mp accepted
  rw [argumentsField_eq, Checked.optional_eq_valid, found] at arguments
  obtain ⟨absent, -⟩ | ⟨value, same, read⟩ := arguments
  · cases absent
  · cases same
    obtain ⟨null, -⟩ | ⟨_, ds, same, given, each⟩ := readArguments_eq_valid.mp read
    · cases null
    · cases same
      exact ⟨ds, given, each⟩

theorem describes_of_ofJson (value : Json) : ∀ d, ofJson value = .valid d → Describes value := by
  induction value using inductArguments with
  | node value ih =>
    intro d accepted
    cases value with
    | obj members =>
      obtain ⟨kind, simpleName, name, module, arguments, parameters, isVariable, counted⟩ :=
        ofJson_obj_eq_valid.mp accepted
      obtain ⟨word, named, read⟩ := Checked.required_eq_valid.mp kind
      obtain ⟨rfl, listed⟩ := kind_ofJson_eq_valid.mp read
      rw [argumentsField_eq] at arguments
      have fields : DescribesFields d.kind members := by
        refine ⟨listed, named, ⟨_, requiredText_eq_valid.mp simpleName⟩,
          ⟨_, requiredText_eq_valid.mp name⟩, fun value found => ?_, fun value found => ?_,
          fun value found => ?_, fun value found => ?_⟩
        · exact exists_readModule_iff.mp
            ((Checked.exists_optional_eq_valid _).mp ⟨_, module⟩ value found)
        · exact exists_readParameters_iff.mp
            ((Checked.exists_optional_eq_valid _).mp ⟨_, parameters⟩ value found)
        · exact Json.readBool_accepted_iff.mp
            ((Checked.exists_optional_eq_valid _).mp ⟨_, isVariable⟩ value found)
        · obtain ⟨read, accepts⟩ :=
            (Checked.exists_optional_eq_valid _).mp ⟨_, arguments⟩ value found
          obtain ⟨null, -⟩ | ⟨items, _, rfl, -⟩ := readArguments_eq_valid.mp accepts
          · exact .inl null
          · obtain ⟨ds, given, each⟩ := typeArguments_of_ofJson accepted found
            obtain ⟨some_argument, number⟩ := argumentCountFault?_eq_none_iff.mp counted ds given
            refine .inr ⟨items, rfl, ?_, takes_iff.mpr ?_⟩
            · rintro rfl
              exact some_argument (List.forall₂_nil_left_iff.mp each)
            · rw [each.length_eq]
              exact number
      refine .object fields fun items found item mem => ?_
      obtain ⟨ds, -, each⟩ := typeArguments_of_ofJson accepted found
      have accepts := Checked.exists_readItems_eq_valid (i := 0).mp
        ⟨ds, Checked.readItems_eq_valid.mpr each⟩
      obtain ⟨argument, read⟩ := accepts item mem
      exact ih members items rfl found item mem argument read
    | _ => cases accepted

/-- The type arguments that a description has room for. -/
theorem argumentsField_of_describes {kind : Kind} {members : List (Text × Json)}
    (fields : DescribesFields kind members)
    (each : ∀ items, Json.member? "type_arguments" members = some (.arr items) →
      ∀ item ∈ items, ∃ d, ofJson item = .valid d) :
    ∃ arguments, argumentsField members = .valid arguments ∧
      ∀ ds, arguments = some ds → ds ≠ [] ∧ kind.Takes ds.length := by
  simp only [argumentsField_eq, Checked.optional_eq_valid]
  cases found : Json.member? "type_arguments" members with
  | none => exact ⟨none, .inl ⟨rfl, rfl⟩, nofun⟩
  | some value =>
    rcases fields.typeArguments value found with rfl | ⟨items, rfl, some_item, takes⟩
    · exact ⟨none, .inr ⟨.null, rfl, rfl⟩, nofun⟩
    · obtain ⟨ds, read⟩ := Checked.exists_readItems_eq_valid (i := 0).mpr (each items found)
      have pairs := Checked.readItems_eq_valid.mp read
      refine ⟨some ds, .inr ⟨.arr items, rfl, readArguments_eq_valid.mpr ?_⟩, ?_⟩
      · exact .inr ⟨items, ds, rfl, rfl, pairs⟩
      · rintro _ ⟨⟩
        refine ⟨?_, pairs.length_eq ▸ takes⟩
        rintro rfl
        exact some_item (List.forall₂_nil_right_iff.mp pairs)

theorem ofJson_of_describes {value : Json} (describes : Describes value) :
    ∃ d, ofJson value = .valid d := by
  induction describes with
  | @object kind members fields _ ih =>
    obtain ⟨simpleName, simpleNamed⟩ := fields.simpleName
    obtain ⟨name, named⟩ := fields.name
    obtain ⟨module, moduleRead⟩ := (Checked.exists_optional_eq_valid none).mpr
      fun value found => exists_readModule_iff.mpr (fields.moduleName value found)
    obtain ⟨parameters, parametersRead⟩ := (Checked.exists_optional_eq_valid []).mpr
      fun value found => exists_readParameters_iff.mpr (fields.typeParameters value found)
    obtain ⟨isVariable, variableRead⟩ := (Checked.exists_optional_eq_valid false).mpr
      fun value found => Json.readBool_accepted_iff.mpr (fields.isVariable value found)
    obtain ⟨arguments, argumentsRead, counted⟩ := argumentsField_of_describes fields ih
    refine ⟨⟨kind, simpleName, name, module, arguments, parameters, isVariable⟩,
      ofJson_obj_eq_valid.mpr ⟨?_, ?_, ?_, moduleRead, argumentsRead, parametersRead, variableRead, ?_⟩⟩
    · exact Checked.required_eq_valid.mpr ⟨_, fields.named, kind_ofJson_text fields.listed⟩
    · exact requiredText_eq_valid.mpr simpleNamed
    · exact requiredText_eq_valid.mpr named
    · refine argumentCountFault?_eq_none_iff.mpr fun ds given => ?_
      obtain ⟨some_argument, takes⟩ := counted ds given
      exact ⟨some_argument, takes_iff.mp takes⟩

/-! ## Refused values -/

theorem readText_ne_invalid_nil (value : Json) : Json.readText value ≠ .invalid [] := by
  cases value with
  | str text => exact Checked.valid_ne_invalid_nil text
  | _ => exact Checked.refuse_ne_invalid_nil _

/-- The problems of a value that is read as a truth value. -/
def truthProblems : List Problem := [.unreadableBoolean, .notBoolean, .brokenText]

theorem readTruthNumber_cases (n : Int) :
    (∃ b, Json.readTruthNumber n = .valid b) ∨
      Json.readTruthNumber n = .refuse .unreadableBoolean := by
  rw [Json.readTruthNumber]
  split_ifs
  · exact .inl ⟨false, rfl⟩
  · exact .inl ⟨true, rfl⟩
  · exact .inr rfl

/-- A value is a truth value, or refused as a whole. -/
theorem readBool_cases (value : Json) :
    (∃ b, Json.readBool value = .valid b) ∨
      ∃ problem ∈ truthProblems, Json.readBool value = .refuse problem := by
  have unreadable : Problem.unreadableBoolean ∈ truthProblems := by decide
  have unlike : Problem.notBoolean ∈ truthProblems := by decide
  have broken : Problem.brokenText ∈ truthProblems := by decide
  have number : ∀ n, (∃ b, Json.readTruthNumber n = .valid b) ∨
      ∃ problem ∈ truthProblems, Json.readTruthNumber n = .refuse problem := fun n =>
    (readTruthNumber_cases n).imp_right fun refused => ⟨_, unreadable, refused⟩
  cases value with
  | bool value => exact .inl ⟨value, rfl⟩
  | int n =>
    rw [Json.readBool]
    split_ifs
    · exact number n
    · exact .inr ⟨_, unlike, rfl⟩
  | float x =>
    rw [Json.readBool]
    split
    next n _ =>
      split_ifs
      · exact number n
      · exact .inr ⟨_, unlike, rfl⟩
    next => exact .inr ⟨_, unlike, rfl⟩
  | str text =>
    rw [Json.readBool]
    split
    next => exact .inr ⟨_, broken, rfl⟩
    next =>
      split_ifs
      · exact .inl ⟨true, rfl⟩
      · exact .inl ⟨false, rfl⟩
      · exact .inr ⟨_, unreadable, rfl⟩
  | _ => exact .inr ⟨_, unlike, rfl⟩

theorem readBool_ne_invalid_nil (value : Json) : Json.readBool value ≠ .invalid [] := by
  rcases readBool_cases value with ⟨b, accepted⟩ | ⟨problem, -, refused⟩
  · rw [accepted]
    exact Checked.valid_ne_invalid_nil b
  · rw [refused]
    exact Checked.refuse_ne_invalid_nil problem

theorem kind_ofJson_ne_invalid_nil (value : Json) : Kind.ofJson value ≠ .invalid [] := by
  cases value with
  | str t =>
    rw [Kind.ofJson]
    split
    next kind _ => exact Checked.valid_ne_invalid_nil kind
    next => exact Checked.refuse_ne_invalid_nil _
  | _ => exact Checked.refuse_ne_invalid_nil _

/-- A refused value comes with an issue. -/
theorem ofJson_ne_invalid_nil (value : Json) : ofJson value ≠ .invalid [] := by
  induction value using inductArguments with
  | node value ih =>
    cases value with
    | obj members =>
      have text : ∀ key, Json.required key Json.readText members ≠ .invalid [] :=
        fun _ => Checked.required_ne_invalid_nil readText_ne_invalid_nil members
      have arguments : argumentsField members ≠ .invalid [] := by
        rw [argumentsField_eq]
        refine Checked.optional_ne_invalid_nil fun value found => ?_
        cases value with
        | arr items =>
          rw [readArguments, argumentsFrom_eq]
          refine mt Checked.map_eq_invalid_nil.mp (Checked.readItems_ne_invalid_nil ?_ 0)
          exact ih members items rfl found
        | null => exact Checked.valid_ne_invalid_nil none
        | _ => exact Checked.refuse_ne_invalid_nil _
      rw [ofJson]
      refine Checked.also_ne_invalid_nil ?_
      refine Checked.ap_ne_invalid_nil (Checked.ap_ne_invalid_nil (Checked.ap_ne_invalid_nil
        (Checked.ap_ne_invalid_nil (Checked.ap_ne_invalid_nil (Checked.ap_ne_invalid_nil
          (mt Checked.map_eq_invalid_nil.mp ?_) ?_) ?_) ?_) arguments) ?_) ?_
      · exact Checked.required_ne_invalid_nil kind_ofJson_ne_invalid_nil members
      · exact text _
      · exact text _
      · exact Checked.optional_ne_invalid_nil fun value _ =>
          Checked.readOptional_ne_invalid_nil readText_ne_invalid_nil value
      · exact Checked.optional_ne_invalid_nil fun value _ =>
          Checked.readList_ne_invalid_nil readText_ne_invalid_nil value
      · exact Checked.optional_ne_invalid_nil fun value _ => readBool_ne_invalid_nil value
    | _ => exact Checked.refuse_ne_invalid_nil _

/-! ## Descriptions and reading -/

/-- The keys of the fields of a descriptor. -/
def fieldKeys : List Text :=
  ["kind", "simple_name", "name", "module_name", "type_arguments", "type_parameters", "is_variable"]

/-- Objects with the same fields are read alike, whatever else is in them. -/
theorem ofJson_congr {members others : List (Text × Json)}
    (same : ∀ key ∈ fieldKeys, Json.member? key others = Json.member? key members) :
    ofJson (.obj others) = ofJson (.obj members) := by
  simp only [fieldKeys, List.forall_mem_cons] at same
  obtain ⟨kind, simpleName, name, module, arguments, parameters, isVariable, -⟩ := same
  simp only [ofJson, argumentsField_eq, Json.required, Json.optional, kind, simpleName, name, module,
    arguments, parameters, isVariable]

/-- A node of a descriptor, at any depth. -/
inductive HasNode : Descriptor → Descriptor → Prop
  | self (d : Descriptor) : HasNode d d
  | inner {d a n : Descriptor} {items : List Descriptor} (given : d.typeArguments = some items)
    (mem : a ∈ items) (inside : HasNode a n) : HasNode d n

theorem WellFormed.of_hasNode {d n : Descriptor} (node : d.HasNode n) (wellFormed : WellFormed d) :
    WellFormed n := by
  induction node with
  | self => exact wellFormed
  | inner given mem _ ih =>
    obtain ⟨-, -, arguments⟩ := wellFormed
    exact ih (arguments _ given _ mem)

/-- **Reading accepts the values that describe a type.** In an accepted descriptor, nodes have type
arguments only in the number that their kinds take. A refused value comes with an issue. What an object
has besides its fields is not looked at. -/
theorem accepted_iff_describes (value : Json) :
    ((∃ d, ofJson value = .valid d) ↔ Describes value) ∧
    (∀ d, ofJson value = .valid d → ∀ n, d.HasNode n → ∀ items, n.typeArguments = some items →
      items ≠ [] ∧ n.kind.Takes items.length) ∧
    (∀ issues, ofJson value = .invalid issues → issues ≠ []) ∧
    ∀ members others, value = .obj members →
      (∀ key ∈ fieldKeys, Json.member? key others = Json.member? key members) →
      ofJson (.obj others) = ofJson value := by
  refine ⟨⟨fun ⟨d, accepted⟩ => describes_of_ofJson value d accepted, ofJson_of_describes⟩,
    fun d accepted n node items given => ?_, fun issues refused => ?_, fun members others is same => ?_⟩
  · obtain ⟨-, counted, -⟩ := (wellFormed_of_ofJson accepted).of_hasNode node
    obtain ⟨some_argument, number⟩ := argumentCountFault?_eq_none_iff.mp counted items given
    exact ⟨some_argument, takes_iff.mpr number⟩
  · rintro rfl
    exact ofJson_ne_invalid_nil value refused
  · rw [is]
    exact ofJson_congr same

/-- The value of a text type. -/
def textValue : Json :=
  .obj [("kind", .str "string"), ("simple_name", .str "String"), ("name", .str "java.lang.String")]

/-- The members of a list, with a number for a truth value. -/
def listMembers (arguments : List Json) : List (Text × Json) :=
  [("kind", .str "list"), ("simple_name", .str "List"), ("name", .str "java.util.List"),
    ("is_variable", .int 0), ("type_arguments", .arr arguments)]

/-- A list of texts. -/
def listOfTexts : Descriptor :=
  ⟨.list, "List", "java.util.List", none,
    some [⟨.string, "String", "java.lang.String", none, none, [], false⟩], [], false⟩

/-- A list has one argument and not two; a note beside its fields does not matter. -/
theorem accepted_iff_describes_lists :
    Describes (.obj (listMembers [textValue])) ∧
      ofJson (.obj (listMembers [textValue])) = .valid listOfTexts ∧
      listOfTexts.kind.Takes 1 ∧
      ofJson (.obj (("note", .null) :: listMembers [textValue])) =
        ofJson (.obj (listMembers [textValue])) ∧
      ¬Describes (.obj (listMembers [textValue, textValue])) ∧
      ∃ issue issues, ofJson (.obj (listMembers [textValue, textValue])) =
        .invalid (issue :: issues) := by
  have accepted : ofJson (.obj (listMembers [textValue])) = .valid listOfTexts := by
    rfl
  obtain ⟨⟨describes, -⟩, counted, -, noted⟩ := accepted_iff_describes (.obj (listMembers [textValue]))
  obtain ⟨⟨-, describedAccepted⟩, -, some_issue, -⟩ :=
    accepted_iff_describes (.obj (listMembers [textValue, textValue]))
  refine ⟨describes ⟨_, accepted⟩, accepted, ?_, ?_, ?_, ?_⟩
  · exact (counted _ accepted _ (.self _) _ rfl).2
  · exact noted _ _ rfl (by simp [fieldKeys, Json.member?])
  · intro described
    obtain ⟨d, read⟩ := describedAccepted described
    cases read
  · cases refused : ofJson (.obj (listMembers [textValue, textValue])) with
    | valid d => cases refused
    | invalid issues =>
      obtain ⟨issue, rest, rfl⟩ := List.exists_cons_of_ne_nil (some_issue issues refused)
      exact ⟨issue, rest, rfl⟩

end Descriptor

end HostDecl
