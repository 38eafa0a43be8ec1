import HostDecl.Proofs.DescriptorValues
import HostDecl.Proofs.JsonGrammar
import HostDecl.Proofs.OverrideHistory
import HostDecl.Proofs.Parts

/-!
# The entries of a document

**A document is read as a whole** (`document_accepted_or_refused`): an object is accepted exactly if all
its values are entries, and its table has their keys and entries, place for place. Otherwise it is
refused at the first value that is none; the fault names the document and the key, and is the same
whatever stands behind.

A bare text has no return type, so asking a cache for the return type of a method is asking for its
entry and taking the return type from it.

**What it does not establish.** The issues of a refused entry are not characterized here, except that
they are those of the first value that is refused.
-/

namespace HostDecl

/-! ## Refused values -/

namespace OverrideTable

variable {document : String}

/-- A fault whose message names a document and a method in it. -/
def Names (document : String) (method : Text) (fault : OverrideFault) : Prop :=
  ∀ report, ∃ reason : Text, fault.message report =
    "Malformed override for " ++ method ++ " in " ++ document ++ ": " ++ reason

/-- A refused value is named. -/
theorem names_of_entryOf {method : Text} {value : Json} {fault : OverrideFault}
    (refused : entryOf document method value = .error fault) : Names document method fault := by
  intro report
  unfold entryOf at refused
  split at refused
  next => cases refused
  next =>
    split at refused <;> cases refused
    next issues _ => exact ⟨report issues, rfl⟩
  next =>
    cases refused
    have spaced : (": expected a string or object, got " : Text) =
        ": " ++ "expected a string or object, got " :=
      Text.ofString_append ": " "expected a string or object, got "
    refine ⟨"expected a string or object, got " ++ value.kindWord, ?_⟩
    rw [OverrideFault.message, spaced]
    simp only [Text.append_assoc]

/-! ## Reading the members one after the other -/

/-- A table is read place for place. -/
theorem ofMembers_eq_ok {members : List (Text × Json)} {table : OverrideTable} :
    ofMembers document members = .ok table ↔
      List.Forall₂ (fun member entry => member.1 = entry.1 ∧ EntryOf member.2 entry.2) members
        table := by
  induction members generalizing table with
  | nil => simp [ofMembers, List.forall₂_nil_left_iff, eq_comm]
  | cons member rest ih =>
    obtain ⟨method, value⟩ := member
    rw [ofMembers, List.forall₂_cons_left_iff]
    constructor
    · intro read
      split at read
      next => cases read
      next entry accepted =>
        split at read <;> cases read
        next others readRest =>
          exact ⟨(method, entry), others, ⟨rfl, entryOf_eq_ok.mp accepted⟩, ih.mp readRest, rfl⟩
    · rintro ⟨⟨_, entry⟩, others, ⟨rfl, accepted⟩, behind, rfl⟩
      rw [entryOf_eq_ok.mpr accepted, ih.mpr behind]

/-- There is a table if all values are entries. -/
theorem exists_ofMembers_eq_ok {members : List (Text × Json)} :
    (∃ table, ofMembers document members = .ok table) ↔ ∀ member ∈ members, IsEntry member.2 := by
  simp only [ofMembers_eq_ok]
  induction members with
  | nil => simp
  | cons member rest ih =>
    rw [List.forall_mem_cons, ← ih]
    simp only [List.forall₂_cons_left_iff]
    constructor
    · rintro ⟨_, ⟨_, entry⟩, others, ⟨-, accepted⟩, behind, -⟩
      exact ⟨⟨entry, accepted⟩, others, behind⟩
    · rintro ⟨⟨entry, accepted⟩, others, behind⟩
      exact ⟨_, (member.1, entry), others, ⟨rfl, accepted⟩, behind, rfl⟩

/-- What stands behind a refused value is not looked at. -/
theorem ofMembers_of_refused {before : List (Text × Json)} {method : Text} {value : Json}
    {fault : OverrideFault} (good : ∀ member ∈ before, IsEntry member.2)
    (refused : entryOf document method value = .error fault) (behind : List (Text × Json)) :
    ofMembers document (before ++ (method, value) :: behind) = .error fault := by
  induction before with
  | nil => rw [List.nil_append, ofMembers, refused]
  | cons member rest ih =>
    obtain ⟨⟨entry, accepted⟩, others⟩ := List.forall_mem_cons.mp good
    rw [List.cons_append, ofMembers, entryOf_eq_ok.mpr accepted, ih others]

/-- Members are refused at the first value that is no entry. -/
theorem exists_refused {members : List (Text × Json)} {fault : OverrideFault}
    (refused : ofMembers document members = .error fault) :
    ∃ before method value behind, members = before ++ (method, value) :: behind ∧
      (∀ member ∈ before, IsEntry member.2) ∧ entryOf document method value = .error fault := by
  induction members with
  | nil => cases refused
  | cons member rest ih =>
    obtain ⟨method, value⟩ := member
    rw [ofMembers] at refused
    split at refused
    next here =>
      cases refused
      exact ⟨[], method, value, rest, rfl, by simp, here⟩
    next entry accepted =>
      split at refused <;> cases refused
      next later =>
        obtain ⟨before, other, bad, behind, rfl, good, here⟩ := ih later
        refine ⟨(method, value) :: before, other, bad, behind, rfl, ?_, here⟩
        exact List.forall_mem_cons.mpr ⟨⟨entry, entryOf_eq_ok.mp accepted⟩, good⟩

/-- The text of an object is read member by member. -/
theorem ofText_of_parse {typeName text : String} {members : List (Text × Json)}
    (parsed : Json.parse text = .ok (.obj members)) :
    ofText typeName text = ofMembers (documentName typeName) members := by
  rw [ofText, parsed]
  rfl

end OverrideTable

/-- What members say about a method is the entry that a value is. -/
theorem MembersSay.exists_entryOf {members : List (Text × Json)} {method : Text}
    {entry : MethodOverride} (said : MembersSay members method (some entry)) :
    ∃ value, EntryOf value entry := by
  cases said with
  | entry _ is => exact ⟨_, is⟩

/-! ## Asking for the return type -/

namespace OverrideCache

variable {ι : Type} [DecidableEq ι]

/-- A table that a cache of a run has was read from a document. -/
theorem exists_read_of_table {bases : ι → Path} {w : World ι} (faithful : Faithful bases w)
    {cache : ι} {d : Disk} {typeName : String} {table : OverrideTable} {after : OverrideCache}
    (had : (w.caches cache).table d typeName = .ok (table, after)) :
    ∃ members, OverrideTable.ofMembers (documentName typeName) members = .ok table := by
  rcases table_eq_ok had with ⟨known, -⟩ | ⟨-, load, -⟩
  · obtain ⟨_, -, load⟩ := faithful.loaded _ _ _ known
    obtain ⟨members, -, read⟩ := documentMembers_of_loadOverrides load
    exact ⟨members, read⟩
  · obtain ⟨members, -, read⟩ := documentMembers_of_loadOverrides load
    exact ⟨members, read⟩

/-- The return type of a method is the return type of its entry. -/
theorem returnType_eq {bases : ι → Path} {w : World ι} (faithful : Faithful bases w) (cache : ι)
    (d : Disk) (typeName : String) (method : Text) :
    (w.caches cache).returnType d typeName method =
      ((w.caches cache).entry d typeName method).map fun (found, after) =>
        (found.bind MethodOverride.returnType, after) := by
  rw [OverrideCache.returnType, entry]
  cases had : (w.caches cache).table d typeName with
  | error fault => rfl
  | ok answer =>
    obtain ⟨table, after⟩ := answer
    obtain ⟨members, read⟩ := exists_read_of_table faithful had
    have said := OverrideTable.lookup_ofMembers read method
    simp only [Except.map, Except.ok.injEq, Prod.mk.injEq, and_true]
    cases found : table.lookup method with
    | none => rfl
    | some entry =>
      rw [found] at said
      obtain ⟨value, isEntry⟩ := said.exists_entryOf
      exact isEntry.returnType

end OverrideCache

/-! ## Documents -/

/-- The text of an object is read in the order of its keys, each with the last value that is written for
it. It is accepted exactly if all values are entries, and its table then has a place for each key with
the entry that the value is. If it is refused, it is for the first value that is no entry, which the
fault names, and any text that begins with the same members is refused alike. Of what is accepted, every
cache gives the return type of the entry. -/
theorem document_accepted_or_refused {typeName text : String} {members : List (Text × Json)}
    (parsed : Json.parse text = .ok (.obj members)) :
    (∃ written, Json.WritesObject text written ∧
      members.map Prod.fst = (written.map Prod.fst).eraseDups ∧
      ∀ key, Json.member? key members = written.reverse.lookup key) ∧
    ((∃ table, OverrideTable.ofText typeName text = .ok table) ↔
      ∀ member ∈ members, IsEntry member.2) ∧
    (∀ table, OverrideTable.ofText typeName text = .ok table →
      List.Forall₂ (fun member entry => member.1 = entry.1 ∧ EntryOf member.2 entry.2) members
        table) ∧
    (∀ fault, OverrideTable.ofText typeName text = .error fault →
      ∃ before method value behind, members = before ++ (method, value) :: behind ∧
        (∀ member ∈ before, IsEntry member.2) ∧ ¬ IsEntry value ∧
        OverrideTable.Names (documentName typeName) method fault ∧
        ∀ other others, Json.parse other = .ok (.obj (before ++ (method, value) :: others)) →
          OverrideTable.ofText typeName other = .error fault) ∧
    ∀ (ι : Type) [DecidableEq ι] (bases : ι → Path) (disk : Disk)
      (steps : List (OverrideCache.Step ι)) (cache : ι) (asked : String) (method : Text),
      let w := (OverrideCache.World.start bases disk).run steps
      (w.caches cache).returnType w.disk asked method =
        ((w.caches cache).entry w.disk asked method).map fun (found, after) =>
          (found.bind MethodOverride.returnType, after) := by
  refine ⟨?written, ?accepted, ?table, ?refused, ?returns⟩
  case written =>
    obtain ⟨written, spelled, rfl⟩ := Json.writesObject_of_parse parsed
    exact ⟨written, spelled, Json.keys_putAll written, Json.member?_putAll written⟩
  case accepted =>
    rw [OverrideTable.ofText_of_parse parsed]
    exact OverrideTable.exists_ofMembers_eq_ok
  case table =>
    rw [OverrideTable.ofText_of_parse parsed]
    exact fun table => OverrideTable.ofMembers_eq_ok.mp
  case refused =>
    intro fault refused
    rw [OverrideTable.ofText_of_parse parsed] at refused
    obtain ⟨before, method, value, behind, split, good, here⟩ := OverrideTable.exists_refused refused
    refine ⟨before, method, value, behind, split, good, ?_, OverrideTable.names_of_entryOf here, ?_⟩
    · rintro ⟨entry, isEntry⟩
      cases here.symm.trans (OverrideTable.entryOf_eq_ok.mpr isEntry)
    · intro other others parsedOther
      rw [OverrideTable.ofText_of_parse parsedOther]
      exact OverrideTable.ofMembers_of_refused good here others
  case returns =>
    intro ι _ bases disk steps cache asked method w
    have faithful := (OverrideCache.Faithful.start bases disk).run steps
    exact OverrideCache.returnType_eq faithful cache w.disk asked method

/-- A document with a key that is written twice, the second time with an object that calls itself
unstructured, and with a value that is no entry behind it. -/
def mixedDocument : String :=
  "\x7b\"size\":\"()\",\"close\":7,\"size\":\x7b\"return_type\":\"number\",\"structured\":false\x7d\x7d"

set_option maxRecDepth 2000 in
/-- The document is refused for `close`, although the values on both sides of it are entries. -/
theorem document_accepted_or_refused_mixedDocument :
    Json.parse mixedDocument = .ok (.obj
      [("size", .obj [("return_type", .str "number"), ("structured", .bool false)]),
        ("close", .int 7)]) ∧
    EntryOf (.obj [("return_type", .str "number"), ("structured", .bool false)])
      ⟨none, some "number", true⟩ ∧
    ¬ ∃ table, OverrideTable.ofText "Map" mixedDocument = .ok table := by
  have parsed : Json.parse mixedDocument = .ok (.obj
      [("size", .obj [("return_type", .str "number"), ("structured", .bool false)]),
        ("close", .int 7)]) := by rfl
  refine ⟨parsed, .object .absent (.text _), ?_⟩
  rw [(document_accepted_or_refused parsed).2.1]
  intro all
  obtain ⟨entry, isEntry⟩ := all ("close", .int 7) (by simp)
  cases isEntry

end HostDecl
