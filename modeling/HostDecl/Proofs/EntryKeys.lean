import HostDecl.Proofs.DocumentNames
import HostDecl.Proofs.SettingsArrays

/-!
# The keys of an entry

An object of a document is read under `args` and under `return`, and under `return_type` where `return`
is absent. Objects that agree there are the same entry, whatever else stands in them (`SameEntry`), and
each of these keys does make a difference.

**Documents of the same entries load alike** (`documents_of_same_entries`). Neither the order of the
methods nor the name of the type has a part in that: the table of a document is known from what the
document has for each method, because no method is written twice in what is read (`DocumentMembers.nodup`).

**What it does not establish.** Members are what is had from a text that can be read. A key that nothing
is read from still has to be written in a way that the reader takes: a whole number with too many digits
refuses the document wherever it stands (`documents_load_apart`).
-/

namespace HostDecl

/-! ## Values that are the same entry -/

/-- Values that agree where entries are read. -/
inductive SameEntry : Json → Json → Prop
  | same (value : Json) : SameEntry value value
  | objects {members others : List (Text × Json)}
    (args : Json.member? "args" members = Json.member? "args" others)
    (returns : returnValue? members = returnValue? others) :
    SameEntry (.obj members) (.obj others)

section

variable {value other : Json} {entry : MethodOverride}

theorem SameEntry.symm (same : SameEntry value other) : SameEntry other value := by
  cases same with
  | same => exact .same value
  | objects args returns => exact .objects args.symm returns.symm

theorem SameEntry.entryOf (same : SameEntry value other) (read : EntryOf value entry) :
    EntryOf other entry := by
  cases same with
  | same => exact read
  | objects args returns =>
    cases read with
    | object arguments returnType =>
      rw [args] at arguments
      rw [returns] at returnType
      exact .object arguments returnType

/-- A number is not taken for a text that may be left out. -/
theorem not_optionalText_int {n : Int} {text : Option Text} : ¬ OptionalText (some (.int n)) text :=
  nofun

/-- Of all keys of an object, these alone can be given any value without a change of the entry: those
other than `args` and `return`, `return_type` not among them unless `return` is there. -/
theorem entryOf_put_iff {members : List (Text × Json)} (read : EntryOf (.obj members) entry)
    (key : Text) :
    (∀ value, EntryOf (.obj (Json.put key value members)) entry) ↔
      ¬ (key = "args" ∨ key = "return" ∨
        key = "return_type" ∧ Json.member? "return" members = none) := by
  constructor
  · intro free
    have counted := free (.int 0)
    cases counted with
    | object args returns =>
      simp only [returnValue?, Json.member?_put] at args returns
      rintro (rfl | rfl | ⟨rfl, absent⟩)
      · exact not_optionalText_int args
      · exact not_optionalText_int returns
      · rw [if_neg (by decide), absent] at returns
        exact not_optionalText_int returns
  · intro unread value
    obtain ⟨notArgs, notReturn, notField⟩ : key ≠ "args" ∧ key ≠ "return" ∧
        (key = "return_type" → Json.member? "return" members ≠ none) := by
      simpa only [not_or, not_and] using unread
    refine SameEntry.entryOf (.objects ?_ ?_) read
    · rw [Json.member?_put, if_neg notArgs]
    · simp only [returnValue?, Json.member?_put, if_neg notReturn]
      by_cases field : key = "return_type"
      · -- What stands under `return` is taken, so this key is not asked for.
        obtain ⟨taken, found⟩ := Option.ne_none_iff_exists'.mp (notField field)
        rw [found]
        rfl
      · rw [if_neg field]

end

/-! ## Members that are the same entries -/

/-- A document has each method once. -/
theorem DocumentMembers.nodup {disk : Disk} {base : Path} {typeName : String}
    {members : List (Text × Json)} (document : DocumentMembers disk base typeName members) :
    (members.map Prod.fst).Nodup := by
  cases document with
  | missing => exact List.nodup_nil
  | blank => exact List.nodup_nil
  | object present read notBlank parsed =>
    obtain ⟨written, -, rfl⟩ := Json.writesObject_of_parse parsed
    rw [Json.keys_putAll]
    exact nodup_eraseDups _

/-- Where no key stands twice, what stands under a key is what the key is found with. -/
theorem mem_iff_lookup {members : List (Text × Json)} (once : (members.map Prod.fst).Nodup)
    {key : Text} {value : Json} : (key, value) ∈ members ↔ members.lookup key = some value := by
  induction members with
  | nil => simp
  | cons member rest ih =>
    obtain ⟨first, held⟩ := member
    obtain ⟨fresh, onceBehind⟩ := List.nodup_cons.mp once
    rw [List.mem_cons, ih onceBehind, List.lookup_cons]
    by_cases here : key = first
    · subst here
      have absent : rest.lookup key ≠ some value := fun found =>
        fresh (List.mem_map.mpr ⟨(key, value), (ih onceBehind).mpr found, rfl⟩)
      simp [absent, eq_comm]
    · simp [here, beq_false_of_ne here]

/-- Members that have the same entry for a method, or none. -/
inductive SameUnder (method : Text) (members others : List (Text × Json)) : Prop
  | absent (missing : members.lookup method = none) (missingToo : others.lookup method = none)
  | held {value other : Json} (found : members.lookup method = some value)
    (foundToo : others.lookup method = some other) (values : SameEntry value other)

/-- Members that have the same entries, whatever order they are in. -/
def SameEntries (members others : List (Text × Json)) : Prop :=
  ∀ method, SameUnder method members others

section

variable {members others : List (Text × Json)}

theorem SameEntries.symm (same : SameEntries members others) : SameEntries others members := by
  intro method
  cases same method with
  | absent missing missingToo => exact .absent missingToo missing
  | held found foundToo values => exact .held foundToo found values.symm

/-- The other members are entries as well. -/
theorem SameEntries.good (same : SameEntries members others)
    (once : (members.map Prod.fst).Nodup) (onceToo : (others.map Prod.fst).Nodup)
    (good : ∀ member ∈ members, IsEntry member.2) : ∀ member ∈ others, IsEntry member.2 := by
  rintro ⟨method, other⟩ mem
  have present := (mem_iff_lookup onceToo).mp mem
  cases same method with
  | absent _ missing =>
    rw [present] at missing
    cases missing
  | @held value _ found foundToo values =>
    cases present.symm.trans foundToo
    obtain ⟨entry, read⟩ := good (method, value) ((mem_iff_lookup once).mpr found)
    exact ⟨entry, values.entryOf read⟩

/-- The other members say the same about a method. -/
theorem SameEntries.membersSay (same : SameEntries members others) {method : Text}
    {said : Option MethodOverride} (meant : MembersSay members method said) :
    MembersSay others method said := by
  cases meant with
  | silent absent =>
    cases same method with
    | absent _ missing => exact .silent missing
    | held found =>
      rw [absent] at found
      cases found
  | entry member is =>
    cases same method with
    | absent missing =>
      rw [member] at missing
      cases missing
    | held found foundToo values =>
      cases member.symm.trans found
      exact .entry foundToo (values.entryOf is)

end

/-! ## Documents -/

section

variable {disk other : Disk} {base otherBase : Path} {typeName otherName : String}
  {members others : List (Text × Json)}

/-- A document of given members loads exactly if they all are entries. -/
theorem DocumentMembers.loads_iff (document : DocumentMembers disk base typeName members) :
    (∃ table, loadOverrides disk base typeName = .ok table) ↔
      ∀ member ∈ members, IsEntry member.2 := by
  have accepted : (∃ table, OverrideTable.ofMembers (documentName typeName) members = .ok table) ↔
      ∀ member ∈ members, IsEntry member.2 := OverrideTable.exists_ofMembers_eq_ok
  rw [← accepted]
  constructor
  · rintro ⟨table, loaded⟩
    obtain ⟨found, again, read⟩ := documentMembers_of_loadOverrides loaded
    cases document.unique again
    exact ⟨table, read⟩
  · rintro ⟨table, read⟩
    exact ⟨table, loadOverrides_of_documentMembers document read⟩

/-- The table of a document of given members has for each method what they say. -/
theorem DocumentMembers.membersSay (document : DocumentMembers disk base typeName members)
    {table : OverrideTable} (loaded : loadOverrides disk base typeName = .ok table)
    (method : Text) : MembersSay members method (table.lookup method) := by
  obtain ⟨found, again, read⟩ := documentMembers_of_loadOverrides loaded
  cases document.unique again
  exact OverrideTable.lookup_ofMembers read method

/-- The other document loads as well, with the same entry for each method. -/
theorem SameEntries.loads (same : SameEntries members others)
    (document : DocumentMembers disk base typeName members)
    (otherDocument : DocumentMembers other otherBase otherName others) {table : OverrideTable}
    (loaded : loadOverrides disk base typeName = .ok table) :
    ∃ otherTable, loadOverrides other otherBase otherName = .ok otherTable ∧
      ∀ method, table.lookup method = otherTable.lookup method := by
  have good : ∀ member ∈ others, IsEntry member.2 :=
    same.good document.nodup otherDocument.nodup (document.loads_iff.mp ⟨table, loaded⟩)
  obtain ⟨otherTable, otherLoaded⟩ := otherDocument.loads_iff.mpr good
  refine ⟨otherTable, otherLoaded, fun method => ?_⟩
  exact (same.membersSay (document.membersSay loaded method)).unique
    (otherDocument.membersSay otherLoaded method)

namespace OverrideCache

/-- A first look-up is answered from the document that is there. -/
theorem lookUp_eq_ok_of_notMem_keptTypes {c : OverrideCache} (unknown : typeName ∉ c.keptTypes)
    {accessor : Accessor} {method : Text} {answer : Answer} :
    (∃ after, c.lookUp disk accessor typeName method = .ok (answer, after)) ↔
      ∃ table, loadOverrides disk c.base typeName = .ok table ∧
        answer = accessor.read (table.lookup method) := by
  rw [lookUp_eq, table_of_notMem_keptTypes unknown]
  cases loadOverrides disk c.base typeName with
  | error fault => simp [Except.map]
  | ok table => simp [Except.map, eq_comm]

end OverrideCache

end

/-- An object counts for what stands under `args` and under `return`, and under `return_type` if `return`
is absent: any other key can be given any value, or be added, and the entry stays the same, but none of
these can. Documents whose objects agree on that much, method by method, both load or both do not. If
they load, they have the same entry for every method, and whoever asks for the first time has the same
answers. -/
theorem documents_of_same_entries :
    (∀ (members : List (Text × Json)) (entry : MethodOverride), EntryOf (.obj members) entry →
      ∀ key, (∀ value, EntryOf (.obj (Json.put key value members)) entry) ↔
        ¬ (key = "args" ∨ key = "return" ∨
          key = "return_type" ∧ Json.member? "return" members = none)) ∧
    ∀ (disk other : Disk) (base otherBase : Path) (typeName otherName : String)
      (members others : List (Text × Json)),
      DocumentMembers disk base typeName members →
      DocumentMembers other otherBase otherName others → SameEntries members others →
      ((∃ table, loadOverrides disk base typeName = .ok table) ↔
        ∃ table, loadOverrides other otherBase otherName = .ok table) ∧
      (∀ table otherTable, loadOverrides disk base typeName = .ok table →
        loadOverrides other otherBase otherName = .ok otherTable →
          ∀ method, table.lookup method = otherTable.lookup method) ∧
      ∀ c otherCache : OverrideCache, c.base = base → otherCache.base = otherBase →
        typeName ∉ c.keptTypes → otherName ∉ otherCache.keptTypes →
          ∀ accessor method answer,
            (∃ after, c.lookUp disk accessor typeName method = .ok (answer, after)) ↔
              ∃ after, otherCache.lookUp other accessor otherName method = .ok (answer, after) := by
  refine ⟨fun members entry read key => entryOf_put_iff read key, ?documents⟩
  intro disk other base otherBase typeName otherName members others document otherDocument same
  have across : ∀ table, loadOverrides disk base typeName = .ok table →
      ∃ otherTable, loadOverrides other otherBase otherName = .ok otherTable ∧
        ∀ method, table.lookup method = otherTable.lookup method :=
    fun table => same.loads document otherDocument
  have back : ∀ table, loadOverrides other otherBase otherName = .ok table →
      ∃ otherTable, loadOverrides disk base typeName = .ok otherTable ∧
        ∀ method, table.lookup method = otherTable.lookup method :=
    fun table => same.symm.loads otherDocument document
  refine ⟨⟨?there, ?back⟩, ?entries, ?answers⟩
  case there =>
    rintro ⟨table, loaded⟩
    obtain ⟨otherTable, otherLoaded, -⟩ := across table loaded
    exact ⟨otherTable, otherLoaded⟩
  case back =>
    rintro ⟨table, loaded⟩
    obtain ⟨otherTable, otherLoaded, -⟩ := back table loaded
    exact ⟨otherTable, otherLoaded⟩
  case entries =>
    intro table otherTable loaded otherLoaded
    obtain ⟨found, again, equal⟩ := across table loaded
    cases otherLoaded.symm.trans again
    exact equal
  case answers =>
    rintro c otherCache rfl rfl unknown otherUnknown accessor method answer
    rw [OverrideCache.lookUp_eq_ok_of_notMem_keptTypes unknown,
      OverrideCache.lookUp_eq_ok_of_notMem_keptTypes otherUnknown]
    constructor
    · rintro ⟨table, loaded, rfl⟩
      obtain ⟨otherTable, otherLoaded, equal⟩ := across table loaded
      exact ⟨otherTable, otherLoaded, by rw [equal]⟩
    · rintro ⟨table, loaded, rfl⟩
      obtain ⟨otherTable, otherLoaded, equal⟩ := back table loaded
      exact ⟨otherTable, otherLoaded, by rw [equal]⟩

/-- A document with an object that has more keys than are read. -/
def wordyDocument : String :=
  "\x7b\"m\":\x7b\"structured\":false,\"return\":\"void\",\"return_type\":7\x7d,\"n\":\"()\"\x7d"

/-- A document of the same entries, in another order. -/
def briefDocument : String := "\x7b\"n\":\"()\",\"m\":\x7b\"return\":\"void\"\x7d\x7d"

/-- Both documents on a disk. -/
def wordyDisk : Disk :=
  (OverrideCache.emptyDisk.put (Location.root.child (documentName "Map")) (.file wordyDocument.toUTF8)).put
    (Location.root.child (documentName "Set")) (.file briefDocument.toUTF8)

set_option maxRecDepth 2000 in
/-- The number under `return_type` is no text, and does not matter. -/
theorem documents_of_same_entries_wordyDocument :
    (∃ table, loadOverrides wordyDisk .here "Map" = .ok table ∧
      List.lookup ("m" : Text) table = some ⟨none, some "void", true⟩) ∧
    loadOverrides wordyDisk .here "Set" =
      .ok [("n", ⟨some "()", none, false⟩), ("m", ⟨none, some "void", true⟩)] := by
  have wordyText : wordyDisk.readText (documentPath .here "Map") = .ok wordyDocument := by rfl
  have wordy : DocumentMembers wordyDisk .here "Map"
      [("m", .obj [("structured", .bool false), ("return", .str "void"), ("return_type", .int 7)]),
        ("n", .str "()")] := .object (by rfl) wordyText (by rfl) (by rfl)
  have briefText : wordyDisk.readText (documentPath .here "Set") = .ok briefDocument := by rfl
  have brief : DocumentMembers wordyDisk .here "Set"
      [("n", .str "()"), ("m", .obj [("return", .str "void")])] :=
    .object (by rfl) briefText (by rfl) (by rfl)
  have same : SameEntries
      [("n", .str "()"), ("m", .obj [("return", .str "void")])]
      [("m", .obj [("structured", .bool false), ("return", .str "void"), ("return_type", .int 7)]),
        ("n", .str "()")] := by
    intro method
    by_cases first : method = "m"
    · subst first
      exact .held rfl rfl (.objects rfl rfl)
    · by_cases second : method = "n"
      · subst second
        exact .held rfl rfl (.same _)
      · exact .absent (by simp [List.lookup_cons, beq_false_of_ne first, beq_false_of_ne second])
          (by simp [List.lookup_cons, beq_false_of_ne first, beq_false_of_ne second])
  have loaded : loadOverrides wordyDisk .here "Set" =
      .ok [("n", ⟨some "()", none, false⟩), ("m", ⟨none, some "void", true⟩)] :=
    loadOverrides_of_documentMembers brief (by rfl)
  obtain ⟨loads, entries, -⟩ :=
    documents_of_same_entries.2 wordyDisk wordyDisk .here .here "Set" "Map" _ _ brief wordy same
  obtain ⟨table, loadedToo⟩ := loads.mp ⟨_, loaded⟩
  exact ⟨⟨table, loadedToo, (entries _ _ loaded loadedToo "m").symm⟩, loaded⟩

/-! ## What the reader takes -/

/-- How a document begins that has a value under a key that nothing is read from. -/
def openedDocument : List Char := ['{', '"', 'm', '"', ':', '{', '"', 'n', '"', ':']

/-- The document with a whole number in that place, all of whose digits are ones. -/
def onesDocument (count : Nat) : String :=
  String.ofList (openedDocument ++ (List.replicate count '1' ++ ['}', '}']))

theorem tokens_onesDocument (more : Nat) :
    Json.tokens (onesDocument (more + 1)).toList =
      [⟨.openBrace, 0⟩, ⟨.text "m", 1⟩, ⟨.colon, 4⟩, ⟨.openBrace, 5⟩, ⟨.text "n", 6⟩, ⟨.colon, 9⟩,
        ⟨.whole false (List.replicate (more + 1) '1'), 10⟩, ⟨.closeBrace, more + 11⟩,
        ⟨.closeBrace, more + 12⟩, ⟨.ending, more + 13⟩] := by
  have opened : Json.Scan.step (openedDocument.foldl Json.Scan.step .start) '1' =
      ⟨11, .number 10 false (.digits (List.replicate 1 '1')),
        [⟨.colon, 9⟩, ⟨.text "n", 6⟩, ⟨.openBrace, 5⟩, ⟨.colon, 4⟩, ⟨.text "m", 1⟩,
          ⟨.openBrace, 0⟩]⟩ := rfl
  rw [Json.tokens, onesDocument, String.toList_ofList, List.replicate_succ, List.foldl_append,
    List.cons_append, List.foldl_cons, opened, List.foldl_append, Json.foldl_step_ones,
    Nat.add_comm 1 more, Nat.add_comm 11 more]
  show [Json.Placed.mk .openBrace 0, ⟨.text "m", 1⟩, ⟨.colon, 4⟩, ⟨.openBrace, 5⟩, ⟨.text "n", 6⟩,
    ⟨.colon, 9⟩, ⟨.whole false (List.replicate (more + 1) '1').reverse, 10⟩,
    ⟨.closeBrace, more + 11⟩, ⟨.closeBrace, more + 12⟩, ⟨.ending, more + 13⟩] = _
  rw [List.reverse_replicate, List.replicate_succ]

/-- A number with too many digits refuses the document, although its key is not asked for. -/
theorem parse_onesDocument {count : Nat} (tooMany : Json.digitLimit < count) :
    Json.parse (onesDocument count) = .error (.beyond (.tooManyDigits count)) := by
  obtain ⟨more, rfl⟩ := Nat.exists_eq_add_one.mpr (Nat.zero_lt_of_lt tooMany)
  have unread : Json.scalar? (.whole false (List.replicate (more + 1) '1')) =
      some (.error (.beyond (.tooManyDigits (more + 1)))) := by
    rw [Json.scalar?, List.length_replicate, if_pos tooMany]
  have cut : Json.ofChars (onesDocument (more + 1)).toList =
      Json.ofTokens (Json.tokens (onesDocument (more + 1)).toList) := by
    rw [onesDocument, String.toList_ofList]
    rfl
  rw [Json.parse, cut, tokens_onesDocument]
  simp only [Json.ofTokens, Json.State.run, Json.State.step, unread]
  rfl

/-- Three documents whose objects agree on `args` and on `return`. -/
def keyDisk : Disk :=
  ((OverrideCache.emptyDisk.put (Location.root.child (documentName "T"))
    (.file "\x7b\"m\":\x7b\x7d\x7d".toUTF8)).put (Location.root.child (documentName "U"))
    (.file "\x7b\"m\":\x7b\"return_type\":\"X\"\x7d\x7d".toUTF8)).put
    (Location.root.child (documentName "V")) (.file (onesDocument 4301).toUTF8)

/-- The documents have one method, for which there is nothing under `args` and nothing under `return`.
Two of them load, with different entries, and the third does not load. -/
theorem documents_load_apart :
    DocumentMembers keyDisk .here "T" [("m", .obj [])] ∧
    DocumentMembers keyDisk .here "U" [("m", .obj [("return_type", .str "X")])] ∧
    loadOverrides keyDisk .here "T" = .ok [("m", ⟨none, none, true⟩)] ∧
    loadOverrides keyDisk .here "U" = .ok [("m", ⟨none, some "X", true⟩)] ∧
    keyDisk.readBytes (documentPath .here "V") = .ok (onesDocument 4301).toUTF8 ∧
    loadOverrides keyDisk .here "V" = .error (.document (.beyond (.tooManyDigits 4301))) := by
  have emptyText : keyDisk.readText (documentPath .here "T") = .ok "\x7b\"m\":\x7b\x7d\x7d" := by rfl
  have empty : DocumentMembers keyDisk .here "T" [("m", .obj [])] :=
    .object (by rfl) emptyText (by rfl) (by rfl)
  have fieldText : keyDisk.readText (documentPath .here "U") =
      .ok "\x7b\"m\":\x7b\"return_type\":\"X\"\x7d\x7d" := by rfl
  have field : DocumentMembers keyDisk .here "U" [("m", .obj [("return_type", .str "X")])] :=
    .object (by rfl) fieldText (by rfl) (by rfl)
  have held : keyDisk.readBytes (documentPath .here "V") = .ok (onesDocument 4301).toUTF8 := by rfl
  have decoded : Text.Utf8.decode (onesDocument 4301).toUTF8 = .ok (onesDocument 4301) :=
    Text.Utf8.decodeWith_toUTF8 _ _
  have notBlank : Text.allBlank (onesDocument 4301).toList = false := by
    rw [onesDocument, String.toList_ofList]
    rfl
  refine ⟨empty, field, loadOverrides_of_documentMembers empty (by rfl),
    loadOverrides_of_documentMembers field (by rfl), held, ?_⟩
  have tooMany := parse_onesDocument (show Json.digitLimit < 4301 by decide)
  rw [loadOverrides_of_readBytes held, decoded]
  dsimp only
  rw [if_neg (by rw [notBlank]; exact Bool.false_ne_true), OverrideTable.ofText_eq_beyond.mpr
    ((Json.parse_included_eq_beyond _ _).mpr tooMany)]
  rfl

end HostDecl
