import HostDecl.Override.Cache
import HostDecl.Proofs.Checked

/-!
# What an override document says

`EntryOf` says which entry a JSON value is, from the value alone: a text is a bare argument list, and an
object gives an argument list and a return type, each of which may be left out or be `null`. Nothing
else in the object has a part in it, and a value of any other kind is no entry.

A document on the disk says something about a method if it is an object with a member for the method.
It says nothing if the member is missing, if the document is, or if the document is of blanks only.

`DocumentSays` states this about the disk and the members of the document, without a table. That a
table loaded from the disk answers every method as the document does is
`documentSays_iff_of_loadOverrides`. A document with one refused entry gives no table, so of such a
document nothing is claimed, not even about its other entries.
-/

namespace HostDecl

/-! ## Values and entries -/

/-- The text that is meant by a value that may be absent. -/
inductive OptionalText : Option Json → Option Text → Prop
  | absent : OptionalText none none
  | null : OptionalText (some .null) none
  | text (t : Text) : OptionalText (some (.str t)) (some t)

/-- The value of an object for the return type: that of `return`, and that of `return_type` where
`return` is absent. -/
def returnValue? (members : List (Text × Json)) : Option Json :=
  (Json.member? "return" members).or (Json.member? "return_type" members)

/-- The entry that a value is. -/
inductive EntryOf : Json → MethodOverride → Prop
  | bare (text : Text) : EntryOf (.str text) ⟨some text, none, false⟩
  | object {members : List (Text × Json)} {arguments returnType : Option Text}
    (args : OptionalText (Json.member? "args" members) arguments)
    (returns : OptionalText (returnValue? members) returnType) :
    EntryOf (.obj members) ⟨arguments, returnType, true⟩

theorem OptionalText.unique {value : Option Json} {one other : Option Text}
    (first : OptionalText value one) (second : OptionalText value other) : one = other := by
  cases first <;> cases second <;> rfl

/-- A value is one entry at most. -/
theorem EntryOf.unique {value : Json} {one other : MethodOverride} (first : EntryOf value one)
    (second : EntryOf value other) : one = other := by
  cases first with
  | bare =>
    cases second
    rfl
  | object args returns =>
    cases second with
    | object argsToo returnsToo => rw [args.unique argsToo, returns.unique returnsToo]

/-- A value that is an entry. -/
def IsEntry (value : Json) : Prop := ∃ entry, EntryOf value entry

/-- The return type of an entry is had from objects only, but a bare text has none. -/
theorem EntryOf.returnType {value : Json} {entry : MethodOverride} (read : EntryOf value entry) :
    (if entry.fromObject then entry.returnType else none) = entry.returnType := by
  cases read <;> rfl

/-! ## Reading a value -/

theorem readOptional_eq_valid {value : Json} {text : Option Text} :
    Json.readOptional Json.readText value = .valid text ↔ OptionalText (some value) text := by
  constructor
  · intro read
    cases value with
    | null =>
      cases read
      exact .null
    | str t =>
      cases read
      exact .text t
    | _ => cases read
  · intro meant
    cases meant <;> rfl

/-- A field that may be left out. -/
theorem optionalText_eq_valid {key : Text} {members : List (Text × Json)} {text : Option Text} :
    Json.optional key none (Json.readOptional Json.readText) members = .valid text ↔
      OptionalText (Json.member? key members) text := by
  rw [Checked.optional_eq_valid]
  cases Json.member? key members with
  | none =>
    constructor
    · rintro (⟨-, rfl⟩ | ⟨_, ⟨⟩, -⟩)
      exact .absent
    · rintro ⟨⟩
      exact .inl ⟨rfl, rfl⟩
  | some value => simp [readOptional_eq_valid]

/-- The return type goes by the second key where the first is absent, not where its value is `null`. -/
theorem returnType_eq_valid {members : List (Text × Json)} {text : Option Text} :
    Json.optionalEither "return" "return_type" none (Json.readOptional Json.readText) members =
        .valid text ↔
      OptionalText (returnValue? members) text := by
  rw [Json.optionalEither, returnValue?]
  cases Json.member? "return" members with
  | none => exact optionalText_eq_valid
  | some value => exact Checked.under_eq_valid.trans readOptional_eq_valid

theorem MethodOverride.ofMembers_eq_valid {members : List (Text × Json)} {entry : MethodOverride} :
    ofMembers members = .valid entry ↔ EntryOf (.obj members) entry := by
  rw [ofMembers, Checked.ap_eq_valid]
  constructor
  · rintro ⟨_, returnType, args, returns, rfl⟩
    obtain ⟨arguments, given, rfl⟩ := Checked.map_eq_valid.mp args
    exact .object (optionalText_eq_valid.mp given) (returnType_eq_valid.mp returns)
  · rintro ⟨⟩
    next arguments returnType args returns =>
      refine ⟨_, returnType, Checked.map_eq_valid.mpr ⟨arguments, ?_, rfl⟩, ?_, rfl⟩
      · exact optionalText_eq_valid.mpr args
      · exact returnType_eq_valid.mpr returns

/-- A value is accepted for the entry that it is. -/
theorem OverrideTable.entryOf_eq_ok {document : String} {method : Text} {value : Json}
    {entry : MethodOverride} :
    entryOf document method value = .ok entry ↔ EntryOf value entry := by
  cases value with
  | str text =>
    constructor
    · rintro ⟨⟩
      exact .bare text
    · rintro ⟨⟩
      rfl
  | obj members =>
    rw [← MethodOverride.ofMembers_eq_valid, entryOf]
    cases MethodOverride.ofMembers members <;> simp
  | _ => exact ⟨nofun, nofun⟩

/-! ## Documents -/

/-- Where the document of a type is looked for. -/
def documentPath (base : Path) (typeName : String) : Path :=
  base.join (.ofText (documentName typeName))

/-- The members of the document of a type, as it is on the disk: none if it is missing or of blanks
only. -/
inductive DocumentMembers (disk : Disk) (base : Path) (typeName : String) :
    List (Text × Json) → Prop where
  | missing (absent : disk.pathExists (documentPath base typeName) = .ok false) :
      DocumentMembers disk base typeName []
  | blank {text : String} (present : disk.pathExists (documentPath base typeName) = .ok true)
      (read : disk.readText (documentPath base typeName) = .ok text)
      (blank : Text.allBlank text.toList = true) :
      DocumentMembers disk base typeName []
  | object {text : String} {members : List (Text × Json)}
      (present : disk.pathExists (documentPath base typeName) = .ok true)
      (read : disk.readText (documentPath base typeName) = .ok text)
      (notBlank : Text.allBlank text.toList = false)
      (parsed : Json.parse (String.ofList (withBlankLine text.toList)) = .ok (.obj members)) :
      DocumentMembers disk base typeName members

/-- What the members of a document say about a method: nothing, or the entry that its value is. -/
inductive MembersSay (members : List (Text × Json)) (method : Text) :
    Option MethodOverride → Prop where
  | silent (absent : members.lookup method = none) : MembersSay members method none
  | entry {value : Json} {found : MethodOverride} (member : members.lookup method = some value)
      (is : EntryOf value found) : MembersSay members method (some found)

/-- A document has one list of members. -/
theorem DocumentMembers.unique {disk : Disk} {base : Path} {typeName : String}
    {one other : List (Text × Json)} (first : DocumentMembers disk base typeName one)
    (second : DocumentMembers disk base typeName other) : one = other := by
  cases first with
  | missing absent =>
    cases second with
    | missing => rfl
    | blank => rfl
    | object present => rw [absent] at present; cases present
  | blank present read blank =>
    cases second with
    | missing => rfl
    | blank => rfl
    | object _ again notBlank =>
      cases read.symm.trans again
      rw [blank] at notBlank
      cases notBlank
  | object present read notBlank parsed =>
    cases second with
    | missing absent => rw [absent] at present; cases present
    | blank _ again blank =>
      cases read.symm.trans again
      rw [blank] at notBlank
      cases notBlank
    | object _ again _ parsedAgain =>
      cases read.symm.trans again
      cases parsed.symm.trans parsedAgain
      rfl

/-- Members say one thing about a method. -/
theorem MembersSay.unique {members : List (Text × Json)} {method : Text}
    {one other : Option MethodOverride} (first : MembersSay members method one)
    (second : MembersSay members method other) : one = other := by
  cases first with
  | silent absent =>
    cases second with
    | silent => rfl
    | entry member => rw [absent] at member; cases member
  | entry member is =>
    cases second with
    | silent absent => rw [absent] at member; cases member
    | entry again isToo =>
      cases member.symm.trans again
      rw [is.unique isToo]

/-- What the document of a type, as it is on the disk, says about a method. -/
def DocumentSays (disk : Disk) (base : Path) (typeName : String) (method : Text)
    (said : Option MethodOverride) : Prop :=
  ∃ members, DocumentMembers disk base typeName members ∧ MembersSay members method said

/-! ## Loading -/

/-- A table reads every member of its document by itself. -/
theorem OverrideTable.lookup_ofMembers {typeName : String} {members : List (Text × Json)}
    {table : OverrideTable} (read : ofMembers (documentName typeName) members = .ok table)
    (method : Text) : MembersSay members method (table.lookup method) := by
  induction members generalizing table with
  | nil =>
    cases read
    exact .silent rfl
  | cons member rest ih =>
    obtain ⟨name, value⟩ := member
    rw [ofMembers] at read
    split at read
    next => cases read
    next entry reads =>
      split at read
      next => cases read
      next others readRest =>
        cases read
        by_cases here : method = name
        · subst here
          rw [List.lookup_cons_self]
          exact .entry List.lookup_cons_self (entryOf_eq_ok.mp reads)
        · have other : (method == name) = false := beq_false_of_ne here
          have said := ih readRest
          rw [List.lookup_cons, other]
          change MembersSay _ _ (others.lookup method)
          -- The first member is about another method, so it changes neither side.
          generalize others.lookup method = answer at said ⊢
          cases said with
          | silent absent => exact .silent (by rw [List.lookup_cons, other]; exact absent)
          | entry member is =>
            exact .entry (by rw [List.lookup_cons, other]; exact member) is

/-- The blank line behind an included text is blank. -/
theorem allBlank_withBlankLine (text : List Char) :
    Text.allBlank (withBlankLine text) = Text.allBlank text := by
  have newline : Text.isBlank '\n' = true := by decide
  unfold withBlankLine
  split
  · next empty => rw [empty]
  · split <;> simp [Text.allBlank, newline]

/-- An included text is either nothing, because the file is missing, or the file's text with a blank
line behind it. -/
theorem Disk.sideText_eq_ok {disk : Disk} {base : Path} {file text : String}
    (included : disk.sideText base file = .ok text) :
    (disk.pathExists (base.join (.ofText file)) = .ok false ∧ text = "") ∨
      (disk.pathExists (base.join (.ofText file)) = .ok true ∧
        ∃ inner, disk.readText (base.join (.ofText file)) = .ok inner ∧
          text = String.ofList (withBlankLine inner.toList)) := by
  unfold sideText at included
  dsimp only at included
  split at included
  next => cases included
  next absent =>
    cases included
    exact .inl ⟨absent, rfl⟩
  next present =>
    split at included
    next inner read =>
      cases included
      exact .inr ⟨present, inner, read, rfl⟩
    next => cases included

/-- A text that is read as a table is the text of an object. -/
theorem OverrideTable.ofText_eq_ok {typeName text : String} {table : OverrideTable}
    (read : ofText typeName text = .ok table) :
    ∃ members, Json.parse text = .ok (.obj members) ∧
      ofMembers (documentName typeName) members = .ok table := by
  unfold ofText at read
  split at read
  next => cases read
  next => cases read
  next value parsed =>
    cases value with
    | obj members => exact ⟨members, parsed, read⟩
    | _ => cases read

/-- Loading a document reads its members as they are on the disk. -/
theorem documentMembers_of_loadOverrides {disk : Disk} {base : Path} {typeName : String}
    {table : OverrideTable} (loaded : loadOverrides disk base typeName = .ok table) :
    ∃ members, DocumentMembers disk base typeName members ∧
      OverrideTable.ofMembers (documentName typeName) members = .ok table := by
  unfold loadOverrides at loaded
  split at loaded
  next => cases loaded
  next text included =>
    rcases Disk.sideText_eq_ok included with ⟨absent, rfl⟩ | ⟨present, inner, read, rfl⟩
    · cases loaded
      exact ⟨[], .missing absent, rfl⟩
    · rw [String.toList_ofList, allBlank_withBlankLine] at loaded
      cases blank : Text.allBlank inner.toList with
      | true =>
        rw [blank] at loaded
        cases loaded
        exact ⟨[], .blank present read blank, rfl⟩
      | false =>
        rw [blank, if_neg Bool.false_ne_true] at loaded
        split at loaded
        next readTable =>
          cases loaded
          obtain ⟨members, parsed, readMembers⟩ := OverrideTable.ofText_eq_ok readTable
          exact ⟨members, .object present read blank parsed, readMembers⟩
        next => cases loaded

/-- A loaded table has what the document says about each method, and nothing else. -/
theorem documentSays_iff_of_loadOverrides {disk : Disk} {base : Path} {typeName : String}
    {table : OverrideTable} (loaded : loadOverrides disk base typeName = .ok table) (method : Text)
    (said : Option MethodOverride) :
    DocumentSays disk base typeName method said ↔ said = table.lookup method := by
  obtain ⟨members, document, read⟩ := documentMembers_of_loadOverrides loaded
  have tabled := OverrideTable.lookup_ofMembers read method
  constructor
  · rintro ⟨others, again, saidAgain⟩
    cases document.unique again
    exact saidAgain.unique tabled
  · rintro rfl
    exact ⟨members, document, tabled⟩

end HostDecl
