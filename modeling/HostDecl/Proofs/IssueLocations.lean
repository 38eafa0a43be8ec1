import HostDecl.Proofs.DescriptorValues
import Mathlib.Data.List.Nodup
import Mathlib.Data.List.Pairwise

/-!
# Where issues are found

The location of an issue is a way into the value that was refused, key by key and index by index.

**The law** (`Descriptor.issues_of_refused`). Every issue of a refused descriptor is found where it says
(`Issue.FoundIn`): its location leads to a value that has the problem or, for a missing field, to the
object that lacks it. The issues come in the order of the fields, and below a field in the order of the
items (`Precedes`). No issue stands at or below the place of another one, so an issue about the number of
arguments is the only one of its descriptor: one refused argument, at any depth, hides the numbers of all
the descriptors around it.

That order is what the proof carries through the nesting. Two locations, one of which precedes the other,
part ways at some step, so neither of them leads on from the other (`Precedes.apart`).
-/

namespace HostDecl

/-! ## Locations -/

/-- The value that a location leads to. -/
def Json.at? : List Step → Json → Option Json
  | [], value => some value
  | .key key :: rest, .obj members => (member? key members).bind (at? rest)
  | .index i :: rest, .arr items => items[i]?.bind (at? rest)
  | _, _ => none

/-- Where two locations part ways, the first one goes to an earlier field or to an earlier item. -/
inductive Precedes : List Step → List Step → Prop
  | field {key other : Text} (earlier : [key, other].Sublist Descriptor.fieldKeys)
    (rest others : List Step) : Precedes (.key key :: rest) (.key other :: others)
  | item {i j : Nat} (earlier : i < j) (rest others : List Step) :
    Precedes (.index i :: rest) (.index j :: others)
  | inside (step : Step) {rest others : List Step} (precedes : Precedes rest others) :
    Precedes (step :: rest) (step :: others)

/-- Neither of two locations leads on from the other. -/
def Apart (location other : List Step) : Prop := ¬ location <+: other ∧ ¬ other <+: location

theorem Apart.symm {location other : List Step} (apart : Apart location other) : Apart other location :=
  And.symm apart

/-- Locations that begin with different steps. -/
theorem apart_of_ne {step other : Step} (different : step ≠ other) (rest others : List Step) :
    Apart (step :: rest) (other :: others) := by
  constructor
  · intro leads
    exact different (List.cons_prefix_cons.mp leads).1
  · intro leads
    exact different (List.cons_prefix_cons.mp leads).1.symm

theorem nodup_fieldKeys : Descriptor.fieldKeys.Nodup := by
  decide

theorem Precedes.apart {location other : List Step} (precedes : Precedes location other) :
    Apart location other := by
  induction precedes with
  | field earlier rest others =>
    apply apart_of_ne
    intro same
    cases same
    exact List.nodup_iff_sublist.mp nodup_fieldKeys _ earlier
  | item earlier rest others =>
    apply apart_of_ne
    intro same
    cases same
    exact Nat.lt_irrefl _ earlier
  | inside step _ ih =>
    constructor
    · intro leads
      exact ih.1 (List.cons_prefix_cons.mp leads).2
    · intro leads
      exact ih.2 (List.cons_prefix_cons.mp leads).2

/-! ## What an issue says -/

/-- An object has type arguments, and their number is wrong for its kind. -/
def Descriptor.Miscounted (members : List (Text × Json)) : Prop :=
  ∃ kind ∈ Kind.all, ∃ items, Json.member? "kind" members = some (.str kind.text) ∧
    Json.member? "type_arguments" members = some (.arr items) ∧
    ¬ (items ≠ [] ∧ kind.Takes items.length)

/-- A value has a problem. A missing field is no problem of a value that is there. -/
def Problem.Concerns (value : Json) : Problem → Prop
  | .missing => False
  | .notText => ∀ text, value ≠ .str text
  | .notList => ∀ items, value ≠ .arr items
  | .notObject model => model = Descriptor.model ∧ ∀ members, value ≠ .obj members
  | .notListed texts => texts = Kind.all.map Kind.text ∧ ∀ kind ∈ Kind.all, value ≠ .str kind.text
  | .unreadableBoolean | .notBoolean | .brokenText => ¬ value.IsTruthValue
  | .broken _ => ∃ members, value = .obj members ∧ Descriptor.Miscounted members

/-- An issue is found in a value: its location leads to a value that has the problem or, without its last
key, to an object that lacks that key. -/
inductive Issue.FoundIn (value : Json) : Issue → Prop
  | wrong {location : List Step} {problem : Problem} {place : Json}
    (leads : value.at? location = some place) (concerns : problem.Concerns place) :
    FoundIn value ⟨location, problem⟩
  | missing {location : List Step} {key : Text} {members : List (Text × Json)}
    (leads : value.at? location = some (.obj members)) (absent : Json.member? key members = none) :
    FoundIn value ⟨location ++ [.key key], .missing⟩

/-- The same issue, seen from one step further out. -/
theorem Issue.FoundIn.under {value inner : Json} {step : Step} {issue : Issue}
    (way : ∀ location, value.at? (step :: location) = inner.at? location) (found : issue.FoundIn inner) :
    FoundIn value ⟨step :: issue.location, issue.problem⟩ := by
  cases found with
  | wrong leads concerns => exact .wrong ((way _).trans leads) concerns
  | @missing location key members leads absent =>
    exact @missing value (step :: location) key members ((way _).trans leads) absent

/-! ## Issues in order -/

/-- The issues of what was read from a value are found in it, one before the other. -/
structure Checked.Located {α : Type} (value : Json) (c : Checked α) : Prop where
  found : ∀ issue ∈ c.issues, issue.FoundIn value
  ordered : c.issues.Pairwise fun a b => Precedes a.location b.location

namespace Checked

variable {α β : Type} {value : Json}

theorem located_valid (value : Json) (a : α) : (valid a).Located value :=
  ⟨fun _ mem => absurd mem List.not_mem_nil, .nil⟩

/-- One issue about the value itself. -/
theorem located_refuse {problem : Problem} (concerns : problem.Concerns value) :
    (refuse problem : Checked α).Located value := by
  refine ⟨?_, List.pairwise_singleton _ _⟩
  intro issue mem
  obtain rfl := List.mem_singleton.mp mem
  exact .wrong rfl concerns

theorem Located.map {c : Checked α} (located : c.Located value) (f : α → β) :
    (c.map f).Located value := by
  obtain ⟨found, ordered⟩ := located
  constructor <;> rw [issues_map]
  · exact found
  · exact ordered

theorem Located.under {inner : Json} {step : Step} {c : Checked α}
    (way : ∀ location, value.at? (step :: location) = inner.at? location) (located : c.Located inner) :
    (c.under step).Located value := by
  obtain ⟨found, ordered⟩ := located
  constructor <;> rw [issues_under]
  · intro issue mem
    obtain ⟨below, among, rfl⟩ := List.mem_map.mp mem
    exact (found below among).under way
  · exact List.pairwise_map.mpr (ordered.imp (.inside step))

/-- What is under a step begins with it. -/
theorem exists_location_of_mem_under {step : Step} {c : Checked α} {issue : Issue}
    (mem : issue ∈ (c.under step).issues) : ∃ rest, issue.location = step :: rest := by
  rw [issues_under] at mem
  obtain ⟨below, -, rfl⟩ := List.mem_map.mp mem
  exact ⟨below.location, rfl⟩

section Fields

variable {members : List (Text × Json)} {key : Text} {read : Json → Checked α}

theorem at?_key {place : Json} (there : Json.member? key members = some place) (location : List Step) :
    (Json.obj members).at? (.key key :: location) = place.at? location := by
  rw [Json.at?, there, Option.bind_some]

theorem located_required
    (each : ∀ place, Json.member? key members = some place → (read place).Located place) :
    (Json.required key read members).Located (.obj members) := by
  rw [Json.required]
  split
  next place there => exact (each place there).under (at?_key there)
  next absent =>
    refine ⟨?_, List.pairwise_singleton _ _⟩
    intro issue mem
    obtain rfl := List.mem_singleton.mp mem
    exact @Issue.FoundIn.missing (.obj members) [] key members rfl absent

theorem located_optional {default : α}
    (each : ∀ place, Json.member? key members = some place → (read place).Located place) :
    (Json.optional key default read members).Located (.obj members) := by
  rw [Json.optional]
  split
  next place there => exact (each place there).under (at?_key there)
  next => exact located_valid _ default

theorem exists_location_of_mem_required {issue : Issue}
    (mem : issue ∈ (Json.required key read members).issues) :
    ∃ rest, issue.location = .key key :: rest := by
  rw [Json.required] at mem
  split at mem
  next => exact exists_location_of_mem_under mem
  next =>
    obtain rfl := List.mem_singleton.mp mem
    exact ⟨[], rfl⟩

theorem exists_location_of_mem_optional {default : α} {issue : Issue}
    (mem : issue ∈ (Json.optional key default read members).issues) :
    ∃ rest, issue.location = .key key :: rest := by
  rw [Json.optional] at mem
  split at mem
  next => exact exists_location_of_mem_under mem
  next => cases mem

end Fields

/-- The issues of items, those of earlier items first. -/
theorem located_readItems {read : Json → Checked α} {items : List Json}
    (each : ∀ item ∈ items, (read item).Located item) :
    (Json.readItems read 0 items).Located (.arr items) := by
  have under : ∀ entry ∈ items.zipIdx,
      ((read entry.1).under (.index entry.2)).Located (.arr items) := by
    intro entry mem
    have there := List.mem_zipIdx_iff_getElem?.mp mem
    refine (each entry.1 (List.mem_of_getElem? there)).under fun location => ?_
    rw [Json.at?, there, Option.bind_some]
  have indices : items.zipIdx.Pairwise fun a b => a.2 < b.2 := by
    rw [← List.pairwise_map, List.zipIdx_map_snd]
    exact List.pairwise_lt_range' 1
  constructor <;> rw [issues_readItems]
  · intro issue mem
    obtain ⟨entry, among, inside⟩ := List.mem_flatMap.mp mem
    exact (under entry among).found issue inside
  · refine List.pairwise_flatMap.mpr ⟨fun entry among => (under entry among).ordered, ?_⟩
    refine indices.imp fun earlier first behindFirst second behindSecond => ?_
    obtain ⟨rest, begins⟩ := exists_location_of_mem_under behindFirst
    obtain ⟨others, goesOn⟩ := exists_location_of_mem_under behindSecond
    rw [begins, goesOn]
    exact .item earlier rest others

theorem located_readList {read : Json → Checked α}
    (each : ∀ items, value = .arr items → ∀ item ∈ items, (read item).Located item) :
    (Json.readList read value).Located value := by
  cases value with
  | arr items => exact located_readItems (each items rfl)
  | _ => exact located_refuse fun items same => by cases same

theorem located_readOptional {read : Json → Checked α} (located : (read value).Located value) :
    (Json.readOptional read value).Located value := by
  cases value with
  | null => exact located_valid _ none
  | _ => exact located.map some

end Checked

namespace Descriptor

open Checked

/-! ## The fields of a descriptor -/

theorem located_readText (value : Json) : (Json.readText value).Located value := by
  cases value with
  | str text => exact located_valid _ text
  | _ => exact located_refuse fun text same => by cases same

theorem located_kind (value : Json) : (Kind.ofJson value).Located value := by
  cases accepted : Kind.ofJson value with
  | valid kind => exact located_valid _ kind
  | invalid issues =>
    have unlike : ∀ kind ∈ Kind.all, value ≠ .str kind.text := by
      rintro kind listed rfl
      rw [kind_ofJson_text listed] at accepted
      cases accepted
    have refused : Kind.ofJson value = .refuse (.notListed (Kind.all.map Kind.text)) := by
      cases value with
      | str text =>
        rw [Kind.ofJson] at accepted ⊢
        split at accepted
        next => cases accepted
        next => rfl
      | _ => rfl
    rw [← accepted, refused]
    exact located_refuse ⟨rfl, unlike⟩

theorem located_readBool (value : Json) : (Json.readBool value).Located value := by
  rcases readBool_cases value with ⟨b, accepted⟩ | ⟨problem, among, refused⟩
  · rw [accepted]
    exact located_valid _ b
  · have unlike : ¬ value.IsTruthValue := by
      intro truth
      obtain ⟨b, accepted⟩ := Json.readBool_accepted_iff.mpr truth
      rw [refused] at accepted
      cases accepted
    rw [refused]
    apply located_refuse
    simp only [truthProblems, List.mem_cons, List.not_mem_nil, or_false] at among
    rcases among with rfl | rfl | rfl <;> exact unlike

theorem located_readArguments {value : Json}
    (each : ∀ items, value = .arr items → ∀ item ∈ items, (ofJson item).Located item) :
    (readArguments value).Located value := by
  cases value with
  | null => exact located_valid _ none
  | arr items =>
    rw [readArguments, argumentsFrom_eq]
    exact (located_readItems (each items rfl)).map some
  | _ => exact located_refuse fun items same => by cases same

/-- The issues of each field. -/
def fieldIssues (members : List (Text × Json)) : List (Text × List Issue) :=
  [("kind", (Json.required "kind" Kind.ofJson members).issues),
    ("simple_name", (Json.required "simple_name" Json.readText members).issues),
    ("name", (Json.required "name" Json.readText members).issues),
    ("module_name",
      (Json.optional "module_name" none (Json.readOptional Json.readText) members).issues),
    ("type_arguments", (Json.optional "type_arguments" none readArguments members).issues),
    ("type_parameters",
      (Json.optional "type_parameters" [] (Json.readList Json.readText) members).issues),
    ("is_variable", (Json.optional "is_variable" false Json.readBool members).issues)]

theorem issues_readFields (members : List (Text × Json)) :
    (readFields members).issues = (fieldIssues members).flatMap Prod.snd := by
  simp [readFields, fieldIssues, issues_ap, issues_map, argumentsField_eq]

theorem exists_location_of_fieldIssues {members : List (Text × Json)} :
    ∀ entry ∈ fieldIssues members, ∀ issue ∈ entry.2, ∃ rest, issue.location = .key entry.1 :: rest := by
  simp only [fieldIssues, List.forall_mem_cons]
  exact ⟨fun _ => exists_location_of_mem_required, fun _ => exists_location_of_mem_required,
    fun _ => exists_location_of_mem_required, fun _ => exists_location_of_mem_optional,
    fun _ => exists_location_of_mem_optional, fun _ => exists_location_of_mem_optional,
    fun _ => exists_location_of_mem_optional, List.forall_mem_nil _⟩

/-- The issues of the fields, in the order of the fields. -/
theorem located_readFields {members : List (Text × Json)}
    (arguments : ∀ items, Json.member? "type_arguments" members = some (.arr items) →
      ∀ item ∈ items, (ofJson item).Located item) : (readFields members).Located (.obj members) := by
  have text : ∀ key, (Json.required key Json.readText members).Located (.obj members) :=
    fun _ => located_required fun place _ => located_readText place
  have kind : (Json.required "kind" Kind.ofJson members).Located (.obj members) :=
    located_required fun place _ => located_kind place
  have module : (Json.optional "module_name" none (Json.readOptional Json.readText) members).Located
      (.obj members) := located_optional fun place _ => located_readOptional (located_readText place)
  have given : (Json.optional "type_arguments" none readArguments members).Located (.obj members) :=
    located_optional fun place there =>
      located_readArguments fun items same => arguments items (same ▸ there)
  have parameters : (Json.optional "type_parameters" [] (Json.readList Json.readText) members).Located
      (.obj members) := located_optional fun place _ =>
    located_readList fun items _ item _ => located_readText item
  have isVariable : (Json.optional "is_variable" false Json.readBool members).Located (.obj members) :=
    located_optional fun place _ => located_readBool place
  have each : ∀ entry ∈ fieldIssues members, (∀ issue ∈ entry.2, issue.FoundIn (.obj members)) ∧
      entry.2.Pairwise fun a b => Precedes a.location b.location := by
    simp only [fieldIssues, List.forall_mem_cons]
    exact ⟨⟨kind.1, kind.2⟩, ⟨(text _).1, (text _).2⟩, ⟨(text _).1, (text _).2⟩, ⟨module.1, module.2⟩,
      ⟨given.1, given.2⟩, ⟨parameters.1, parameters.2⟩, ⟨isVariable.1, isVariable.2⟩,
      List.forall_mem_nil _⟩
  constructor <;> rw [issues_readFields]
  · intro issue mem
    obtain ⟨entry, among, inside⟩ := List.mem_flatMap.mp mem
    exact (each entry among).1 issue inside
  · refine List.pairwise_flatMap.mpr ⟨fun entry among => (each entry among).2, ?_⟩
    refine List.pairwise_iff_forall_sublist.mpr fun {a b} pair first behindFirst second behindSecond => ?_
    obtain ⟨rest, begins⟩ := exists_location_of_fieldIssues a (pair.subset (by simp)) first behindFirst
    obtain ⟨others, goesOn⟩ := exists_location_of_fieldIssues b (pair.subset (by simp)) second behindSecond
    have earlier : [a.1, b.1].Sublist fieldKeys := pair.map Prod.fst
    rw [begins, goesOn]
    exact .field earlier rest others

/-! ## The number of arguments -/

theorem miscounted_of_fault {members : List (Text × Json)} {d : Descriptor} {fault : ArgumentCountFault}
    (read : readFields members = .valid d) (counted : d.argumentCountFault? = some fault) :
    Miscounted members := by
  obtain ⟨kind, -, -, -, arguments, -⟩ := readFields_eq_valid.mp read
  obtain ⟨word, named, accepted⟩ := required_eq_valid.mp kind
  obtain ⟨rfl, listed⟩ := kind_ofJson_eq_valid.mp accepted
  cases given : d.typeArguments with
  | none => simp [argumentCountFault?, given] at counted
  | some ds =>
    rw [given, argumentsField_eq, optional_eq_valid] at arguments
    obtain ⟨-, absent⟩ | ⟨place, there, arguments⟩ := arguments
    · cases absent
    obtain ⟨-, null⟩ | ⟨items, _, rfl, same, each⟩ := readArguments_eq_valid.mp arguments
    · cases null
    cases same
    refine ⟨d.kind, listed, items, named, there, ?_⟩
    rintro ⟨some_item, takes⟩
    have nothing : d.argumentCountFault? = none := by
      rw [argumentCountFault?_eq_none_iff]
      intro others same
      rw [given] at same
      cases same
      refine ⟨?_, takes_iff.mp (each.length_eq ▸ takes)⟩
      rintro rfl
      exact some_item (List.forall₂_nil_right_iff.mp each)
    rw [nothing] at counted
    cases counted

/-- The issues of an object are those of its fields; only where there are none, the number of its
arguments can be one. -/
theorem issues_ofJson_obj (members : List (Text × Json)) :
    (ofJson (.obj members)).issues = (readFields members).issues ∨
      (readFields members).issues = [] ∧ Miscounted members ∧
        ∃ rule, (ofJson (.obj members)).issues = [⟨[], .broken rule⟩] := by
  rw [ofJson_obj]
  cases read : readFields members with
  | invalid issues => exact .inl rfl
  | valid d =>
    cases counted : d.argumentCountFault? with
    | none =>
      left
      simp [also, argumentCountRule, counted]
    | some fault =>
      refine .inr ⟨rfl, miscounted_of_fault read counted, fault.message, ?_⟩
      simp [also, argumentCountRule, counted, refuse, issues]

/-- The issues of a descriptor are found in it, one before the other. -/
theorem located_ofJson (value : Json) : (ofJson value).Located value := by
  induction value using inductArguments with
  | node value ih =>
    cases value with
    | obj members =>
      have fields : (readFields members).Located (.obj members) :=
        located_readFields fun items there => ih members items rfl there
      rcases issues_ofJson_obj members with same | ⟨-, miscounted, rule, same⟩
      · constructor <;> rw [same]
        · exact fields.found
        · exact fields.ordered
      · constructor <;> rw [same]
        · rw [List.forall_mem_singleton]
          exact .wrong rfl ⟨members, rfl, miscounted⟩
        · exact List.pairwise_singleton _ _
    | _ => exact located_refuse ⟨rfl, fun members same => by cases same⟩

/-! ## Arguments inside -/

/-- The locations of type arguments, of the descriptor itself among them. -/
inductive ArgumentLocation : List Step → Prop
  | here : ArgumentLocation []
  | inside (i : Nat) {rest : List Step} (argument : ArgumentLocation rest) :
    ArgumentLocation (.key "type_arguments" :: .index i :: rest)

theorem under_mem_issues {members : List (Text × Json)} {items : List Json} {item : Json} {i : Nat}
    (there : Json.member? "type_arguments" members = some (.arr items)) (among : items[i]? = some item)
    {issue : Issue} (mem : issue ∈ (ofJson item).issues) :
    ⟨.key "type_arguments" :: .index i :: issue.location, issue.problem⟩ ∈
      (ofJson (.obj members)).issues := by
  have given : ⟨.key "type_arguments" :: .index i :: issue.location, issue.problem⟩ ∈
      (Json.optional "type_arguments" none readArguments members).issues := by
    rw [Json.optional, there]
    dsimp only
    rw [issues_under, readArguments, issues_map, argumentsFrom_eq, issues_readItems]
    refine List.mem_map.mpr ⟨⟨.index i :: issue.location, issue.problem⟩, ?_, rfl⟩
    refine List.mem_flatMap.mpr ⟨(item, i), List.mk_mem_zipIdx_iff_getElem?.mpr among, ?_⟩
    show _ ∈ ((ofJson item).under (.index i)).issues
    rw [issues_under]
    exact List.mem_map.mpr ⟨issue, mem, rfl⟩
  have fields : ⟨.key "type_arguments" :: .index i :: issue.location, issue.problem⟩ ∈
      (readFields members).issues := by
    have among : (("type_arguments" : Text),
        (Json.optional "type_arguments" none readArguments members).issues) ∈ fieldIssues members := by
      simp only [fieldIssues, List.mem_cons, true_or, or_true]
    rw [issues_readFields]
    exact List.mem_flatMap.mpr ⟨_, among, given⟩
  rcases issues_ofJson_obj members with same | ⟨nothing, -⟩
  · rw [same]
    exact fields
  · rw [nothing] at fields
    cases fields

/-- A refused argument, at any depth, has an issue at its place or below. -/
theorem exists_issue_below {location : List Step} (argument : ArgumentLocation location)
    {value inner : Json} (leads : value.at? location = some inner)
    (refused : ∀ d, ofJson inner ≠ .valid d) :
    ∃ issue ∈ (ofJson value).issues, location <+: issue.location := by
  induction argument generalizing value with
  | here =>
    obtain rfl := Option.some.inj leads
    have some_issue : (ofJson value).issues ≠ [] := by
      intro nothing
      have read := eq_invalid_issues refused
      rw [nothing] at read
      exact ofJson_ne_invalid_nil value read
    obtain ⟨issue, mem⟩ := List.exists_mem_of_ne_nil _ some_issue
    exact ⟨issue, mem, List.nil_prefix⟩
  | inside i _ ih =>
    cases value with
    | obj members =>
      rw [Json.at?, Option.bind_eq_some_iff] at leads
      obtain ⟨place, there, leads⟩ := leads
      cases place with
      | arr items =>
        rw [Json.at?, Option.bind_eq_some_iff] at leads
        obtain ⟨item, among, leads⟩ := leads
        obtain ⟨issue, mem, below⟩ := ih leads
        refine ⟨_, under_mem_issues there among mem, ?_⟩
        exact List.cons_prefix_cons.mpr ⟨rfl, List.cons_prefix_cons.mpr ⟨rfl, below⟩⟩
      | _ => cases leads
    | _ => cases leads

/-! ## The law -/

/-- **The issues of a refused descriptor** are found in it where they say, in the order of the fields and
of the items. None stands at or below the place of another one, and none above a refused argument; so an
issue about a number of arguments comes with no issue below it, and a refused argument at any depth leaves
no such issue to the descriptors around it. -/
theorem issues_of_refused {value : Json} {issues : List Issue}
    (refused : ofJson value = .invalid issues) :
    (∀ issue ∈ issues, issue.FoundIn value) ∧
      (issues.Pairwise fun a b => Precedes a.location b.location) ∧
      (∀ issue ∈ issues, ∀ other ∈ issues, issue.location <+: other.location → issue = other) ∧
      ∀ location inner, ArgumentLocation location → value.at? location = some inner →
        (∀ d, ofJson inner ≠ .valid d) →
        ∀ issue ∈ issues, issue.location <+: location → issue.location = location := by
  have same : (ofJson value).issues = issues := by rw [refused]; rfl
  obtain ⟨found, ordered⟩ := located_ofJson value
  rw [same] at found ordered
  have alone : ∀ issue ∈ issues, ∀ other ∈ issues, issue.location <+: other.location →
      issue = other := by
    intro issue mem other among leads
    by_contra different
    have symmetric : Std.Symm fun a b : Issue => Apart a.location b.location := ⟨fun _ _ => Apart.symm⟩
    have apart := (ordered.imp Precedes.apart).forall mem among different
    exact apart.1 leads
  refine ⟨found, ordered, alone, ?_⟩
  intro location inner argument leads unread issue mem above
  obtain ⟨other, among, below⟩ := exists_issue_below argument leads unread
  rw [same] at among
  have only : issue = other := alone issue mem other among (above.trans below)
  exact above.eq_of_length_le (only ▸ below).length_le

/-- A map without a name, whose arguments are a list with two arguments and a text that is perhaps a
variable. -/
def faultyMap : Json :=
  .obj [("kind", .str "map"), ("simple_name", .str "Map"), ("type_parameters", .arr [.str "K", .int 1]),
    ("type_arguments", .arr [.obj (listMembers [textValue, textValue]),
      .obj [("kind", .str "string"), ("simple_name", .str "String"), ("name", .str "java.lang.String"),
        ("is_variable", .str "perhaps")]])]

/-- What is wrong with `faultyMap`, in the order of the fields and not of its members. -/
def faultyMapIssues : List Issue :=
  [⟨[.key "name"], .missing⟩,
    ⟨[.key "type_arguments", .index 0],
      .broken "java.util.List: list takes 1 type argument(s), got 2"⟩,
    ⟨[.key "type_arguments", .index 1, .key "is_variable"], .unreadableBoolean⟩,
    ⟨[.key "type_parameters", .index 1], .notText⟩]

/-- The list in the map has an issue about its number of arguments, and the map has none. -/
theorem issues_of_refused_faultyMap :
    ofJson faultyMap = .invalid faultyMapIssues ∧
      (∀ issue ∈ faultyMapIssues, issue.FoundIn faultyMap) ∧
      (faultyMapIssues.Pairwise fun a b => Precedes a.location b.location) ∧
      faultyMap.at? [.key "type_arguments", .index 0] =
        some (.obj (listMembers [textValue, textValue])) ∧
      ∀ issue ∈ faultyMapIssues, issue.location ≠ [] := by
  have found : (ofJson faultyMap).issues = faultyMapIssues := by decide +kernel
  have refused : ofJson faultyMap = .invalid faultyMapIssues := Checked.eq_invalid_of_issues found
  have leads : faultyMap.at? [.key "type_arguments", .index 0] =
      some (.obj (listMembers [textValue, textValue])) := rfl
  have unread : ∀ d, ofJson (.obj (listMembers [textValue, textValue])) ≠ .valid d := by
    intro d read
    cases read
  obtain ⟨each, ordered, -, hidden⟩ := issues_of_refused refused
  refine ⟨refused, each, ordered, leads, ?_⟩
  intro issue mem outside
  have place := hidden _ _ (.inside 0 .here) leads unread issue mem (outside ▸ List.nil_prefix)
  rw [outside] at place
  cases place

end Descriptor

end HostDecl
