import HostDecl.Proofs.IncludedDocument
import HostDecl.Proofs.Parts

/-!
# The name of a refused document

A look-up that fails says why. Where the document itself is refused, for its syntax, for its value or for
one of its entries, the text says which document it is.

**The law** (`names_document_iff`): a look-up of a type whose document is a regular file, whatever its bytes
are, has an answer or a fault that names the document exactly if the type has been loaded before, or the
bytes are a text that is blank or stays within the limits of the reader. There is no third way to fail:
what does not name the document is the fault of the decoder or of the reader of JSON, as these give it,
and the name is nowhere in it.

The name of a document ends in a suffix of which some letter is missing from each of these messages, so no
type name can make up for it.

**What it does not establish.** A document that cannot be read, because a directory is in its place or its
name is too long, is not covered.
-/

namespace HostDecl

/-! ## Messages -/

/-- The wording of a failure. The issues of an entry are worded elsewhere; `report` stands for them. -/
def LookupFault.message (report : List Issue → Text) : LookupFault → Text
  | .text (.disk fault) => fault.message
  | .text (.encoding fault) => fault.message
  | .document fault => fault.message report

/-- The wording of a failure has the name of a document in it. -/
def LookupFault.Names (document : String) (fault : LookupFault) : Prop :=
  ∀ report, (document : Text).OccursIn (fault.message report)

/-- A failure that is not about a document: its bytes are no text, or the reader gave up on it. -/
inductive LookupFault.IsBare : LookupFault → Prop
  | encoding (fault : Text.Utf8.Fault) : IsBare (.text (.encoding fault))
  | beyond (limit : Json.LimitFault) : IsBare (.document (.beyond limit))

theorem Text.Utf8.notMem_hexByte (b : UInt8) : '.' ∉ (hexByte b).toList := by
  have digit : ∀ n < 16, '.' ≠ Nat.digitChar n := by decide
  have below : b.toNat < 16 * 16 := b.toNat_lt
  rw [hexByte, String.toList_ofList, List.mem_pair, not_or]
  exact ⟨digit _ (Nat.div_lt_of_lt_mul below), digit _ (Nat.mod_lt _ (by decide))⟩

theorem Text.Utf8.notMem_message (fault : Fault) : '.' ∉ fault.message.toList := by
  have number : ∀ n : Nat, '.' ∉ (toString n).toList := notMem_toString (by decide)
  have reason : '.' ∉ fault.reason.text.toList := by
    cases fault.reason <;> decide
  unfold Fault.message
  simp only [String.toList_append, List.mem_append, not_or]
  refine ⟨⟨⟨by decide, ?_⟩, by decide⟩, reason⟩
  split
  · simp only [String.toList_append, List.mem_append, not_or]
    exact ⟨⟨⟨by decide, notMem_hexByte _⟩, by decide⟩, number _⟩
  · simp only [String.toList_append, List.mem_append, not_or]
    exact ⟨⟨⟨by decide, number _⟩, by decide⟩, number _⟩

/-- The two limits are worded so differently that no letter of the suffix is missing from both. -/
theorem Json.LimitFault.exists_notMem_message (limit : LimitFault) :
    ∃ c ∈ overrideSuffix.toList, c ∉ limit.message.toList := by
  cases limit with
  | tooManyDigits count =>
    have number : ∀ n : Nat, 'j' ∉ (toString n).toList := Text.notMem_toString (by decide)
    refine ⟨'j', by decide, ?_⟩
    unfold message
    simp only [String.toList_append, List.mem_append, not_or]
    exact ⟨⟨⟨⟨by decide, number _⟩, by decide⟩, number _⟩, by decide⟩
  | tooDeep isObject =>
    refine ⟨'.', by decide, ?_⟩
    unfold message
    simp only [String.toList_append, List.mem_append, not_or]
    cases isObject <;> exact ⟨⟨by decide, by decide⟩, by decide⟩

/-- No name of a document is in the wording of a failure that is not about a document. -/
theorem LookupFault.IsBare.not_occursIn {fault : LookupFault} (bare : fault.IsBare)
    (typeName : String) (report : List Issue → Text) :
    ¬ (documentName typeName : Text).OccursIn (fault.message report) := by
  have suffix : ∀ c ∈ overrideSuffix.toList, c ∈ (documentName typeName).toList := by
    intro c mem
    rw [documentName, String.toList_append]
    exact List.mem_append_right _ mem
  cases bare with
  | encoding fault =>
    exact Text.not_occursIn_of_notMem (suffix '.' (by decide)) (Text.Utf8.notMem_message fault)
  | beyond limit =>
    obtain ⟨c, mem, absent⟩ := limit.exists_notMem_message
    exact Text.not_occursIn_of_notMem (suffix c mem) absent

/-! ## Refused documents -/

/-- What stands behind a word of a message is in the message. -/
theorem Text.occursIn_between (before name behind : Text) : name.OccursIn (before ++ name ++ behind) :=
  ((Text.OccursIn.refl name).behind before).before behind

/-- A fault that is about a method of a document names the document. -/
theorem OverrideTable.Names.names {document : String} {method : Text} {fault : OverrideFault}
    (named : Names document method fault) : (LookupFault.document fault).Names document := by
  intro report
  obtain ⟨reason, wording⟩ := named report
  rw [LookupFault.message, wording]
  exact (Text.occursIn_between _ _ _).before _

/-- A value that is refused as a document is refused under its name. -/
theorem OverrideTable.names_of_ofJson {document : String} {value : Json} {fault : OverrideFault}
    (refused : ofJson document value = .error fault) :
    (LookupFault.document fault).Names document := by
  unfold ofJson at refused
  split at refused
  next members =>
    obtain ⟨_, _, _, _, _, _, here⟩ := exists_refused refused
    exact (names_of_entryOf here).names
  next =>
    cases refused
    intro report
    exact Text.occursIn_between _ _ _

/-- A text that is refused as a document is refused under its name, unless the reader gave up on it. -/
theorem OverrideTable.names_of_ofText {typeName text : String} {fault : OverrideFault}
    (refused : ofText typeName text = .error fault) :
    (LookupFault.document fault).Names (documentName typeName) ∨ ∃ limit, fault = .beyond limit := by
  unfold ofText at refused
  split at refused
  next =>
    cases refused
    left
    intro report
    exact (Text.occursIn_between _ _ _).before _
  next limit _ =>
    cases refused
    exact .inr ⟨limit, rfl⟩
  next => exact .inl (names_of_ofJson refused)

theorem OverrideTable.ofText_eq_beyond {typeName text : String} {limit : Json.LimitFault} :
    ofText typeName text = .error (.beyond limit) ↔ Json.parse text = .error (.beyond limit) := by
  unfold ofText
  cases parsed : Json.parse text with
  | error fault => cases fault <;> simp
  | ok value =>
    refine iff_of_false (fun refused => ?_) nofun
    -- A refused value is named, and a limit is not.
    exact (LookupFault.IsBare.beyond limit).not_occursIn typeName (fun _ => "")
      (names_of_ofJson refused _)

/-- The reader gives up on a text as on its included form. -/
theorem Json.parse_included_eq_beyond (text : String) (limit : LimitFault) :
    parse (String.ofList (withBlankLine (Text.unifyNewlines text.toList))) = .error (.beyond limit) ↔
      parse text = .error (.beyond limit) := by
  rcases cases_of_mapError_eq (limit?_parse_included text) with
    ⟨value, left, right⟩ | ⟨fault, own, left, right, same⟩
  · rw [left, right]
  · rw [left, right]
    cases fault <;> cases own <;> cases same <;> simp

/-- The bytes of a document are a text that is blank or stays within the limits of the reader. -/
def IsLegible (bytes : ByteArray) : Prop :=
  ∃ text : String, text.toUTF8 = bytes ∧
    (Text.allBlank text.toList = true ∨ ∀ limit, Json.parse text ≠ .error (.beyond limit))

section

variable {disk : Disk} {base : Path} {typeName : String} {bytes : ByteArray} {fault : LookupFault}

/-- A document that is there is decoded, and its text is included and read. -/
theorem loadOverrides_of_readBytes
    (held : disk.readBytes (documentPath base typeName) = .ok bytes) :
    loadOverrides disk base typeName =
      match Text.Utf8.decode bytes with
      | .error fault => .error (.text (.encoding fault))
      | .ok text =>
        if Text.allBlank text.toList then .ok []
        else (OverrideTable.ofText typeName
          (String.ofList (withBlankLine (Text.unifyNewlines text.toList)))).mapError .document := by
  rw [loadOverrides]
  cases decoded : Text.Utf8.decode bytes with
  | error fault =>
    have read : disk.readText (documentPath base typeName) = .error (.encoding fault) := by
      rw [Disk.readText_eq held, decoded]
    have present := Disk.pathExists_of_readBytes held
    rw [documentPath] at present read
    simp only [Disk.sideText, present, read]
  | ok text =>
    rw [sideText_of_decode held decoded]
    dsimp only
    rw [String.toList_ofList, allBlank_withBlankLine, allBlank_unifyNewlines]
    split
    · rfl
    · cases OverrideTable.ofText typeName _ <;> rfl

/-- A document that does not load is named, or is not what the failure is about. -/
theorem names_or_isBare (held : disk.readBytes (documentPath base typeName) = .ok bytes)
    (failed : loadOverrides disk base typeName = .error fault) :
    fault.Names (documentName typeName) ∨ fault.IsBare := by
  rw [loadOverrides_of_readBytes held] at failed
  split at failed
  next => cases failed; exact .inr (.encoding _)
  next =>
    split at failed
    next => cases failed
    next =>
      cases read : OverrideTable.ofText typeName _ with
      | ok table => rw [read] at failed; cases failed
      | error refused =>
        rw [read] at failed
        cases failed
        rcases OverrideTable.names_of_ofText read with named | ⟨limit, rfl⟩
        · exact .inl named
        · exact .inr (.beyond limit)

/-- The failures that are not about a document are those of documents that are not legible. -/
theorem exists_isBare_iff (held : disk.readBytes (documentPath base typeName) = .ok bytes) :
    (∃ fault, loadOverrides disk base typeName = .error fault ∧ LookupFault.IsBare fault) ↔
      ¬ IsLegible bytes := by
  rw [loadOverrides_of_readBytes held]
  cases decoded : Text.Utf8.decode bytes with
  | error fault =>
    refine iff_of_true ⟨_, rfl, .encoding fault⟩ ?_
    rintro ⟨text, whole, -⟩
    cases decoded.symm.trans (Text.Utf8.decodeWith_eq_ok.mpr whole)
  | ok text =>
    have legible : IsLegible bytes ↔
        Text.allBlank text.toList = true ∨ ∀ limit, Json.parse text ≠ .error (.beyond limit) := by
      constructor
      · rintro ⟨other, whole, readable⟩
        cases decoded.symm.trans (Text.Utf8.decodeWith_eq_ok.mpr whole)
        exact readable
      · exact fun readable => ⟨text, Text.Utf8.decodeWith_eq_ok.mp decoded, readable⟩
    rw [legible]
    dsimp only
    split
    next blank => simp [blank]
    next notBlank =>
      rw [not_or, and_iff_right notBlank, not_forall_not]
      constructor
      · rintro ⟨_, failed, bare⟩
        cases read : OverrideTable.ofText typeName _ with
        | ok table => rw [read] at failed; cases failed
        | error refused =>
          rw [read] at failed
          cases failed
          cases bare with
          | beyond limit =>
            exact ⟨limit, (Json.parse_included_eq_beyond text limit).mp
              (OverrideTable.ofText_eq_beyond.mp read)⟩
      · rintro ⟨limit, parsed⟩
        rw [OverrideTable.ofText_eq_beyond.mpr ((Json.parse_included_eq_beyond text limit).mpr parsed)]
        exact ⟨_, rfl, .beyond limit⟩

end

namespace OverrideCache

/-! ## The law -/

/-- A look-up of a type whose document is a regular file has an answer, or its fault names the document,
exactly if the type has been loaded before or the bytes of the document are legible. A fault that does not
name the document is that of the decoder or says which limit of the reader was met, and has no name of
a document in it. -/
theorem names_document_iff {c : OverrideCache} {disk : Disk} {typeName : String} {bytes : ByteArray}
    (held : disk.readBytes (documentPath c.base typeName) = .ok bytes) (accessor : Accessor)
    (method : Text) :
    let asked := c.lookUp disk accessor typeName method
    ((∀ fault, asked = .error fault → fault.Names (documentName typeName)) ↔
      typeName ∈ c.keptTypes ∨ IsLegible bytes) ∧
    ∀ fault, asked = .error fault → fault.Names (documentName typeName) ∨
      fault.IsBare ∧ ∀ report, ¬ (documentName typeName : Text).OccursIn (fault.message report) := by
  intro asked
  have failed : ∀ fault, asked = .error fault ↔
      typeName ∉ c.keptTypes ∧ loadOverrides disk c.base typeName = .error fault :=
    fun fault => lookUp_eq_error.trans table_eq_error
  constructor
  · constructor
    · intro named
      by_contra! unknown
      obtain ⟨fault, load, bare⟩ := (exists_isBare_iff held).mpr unknown.2
      have inside := named fault ((failed fault).mpr ⟨unknown.1, load⟩) fun _ => ""
      exact bare.not_occursIn typeName _ inside
    · intro known fault fails
      obtain ⟨unknown, load⟩ := (failed fault).mp fails
      refine (names_or_isBare held load).resolve_right fun bare => ?_
      exact (exists_isBare_iff held).mp ⟨fault, load, bare⟩ (known.resolve_left unknown)
  · intro fault fails
    exact (names_or_isBare held ((failed fault).mp fails).2).imp_right fun bare =>
      ⟨bare, bare.not_occursIn typeName⟩

/-- A byte that starts no character. -/
def strayByte : ByteArray := ⟨#[0xff]⟩

/-- A document of this byte. -/
def strayDisk : Disk := emptyDisk.put (Location.root.child (documentName "Vertx")) (.file strayByte)

/-- Who asks about a type whose document is no text is told about a byte, and not where it is. -/
theorem names_document_iff_strayByte :
    strayDisk.readBytes (documentPath .here "Vertx") = .ok strayByte ∧
      ∃ fault, (new .here).lookUp strayDisk .entry "Vertx" "close" = .error fault ∧
        (∀ report, fault.message report =
          "'utf-8' codec can't decode byte 0xff in position 0: invalid start byte") ∧
        ∀ report, ¬ (documentName "Vertx" : Text).OccursIn (fault.message report) := by
  have held : strayDisk.readBytes (documentPath (new .here).base "Vertx") = .ok strayByte := by rfl
  have decoded : Text.Utf8.decode strayByte = .error ⟨0xff, 0, 1, .invalidStart⟩ := by decide +kernel
  have fails : (new .here).lookUp strayDisk .entry "Vertx" "close" =
      .error (.text (.encoding ⟨0xff, 0, 1, .invalidStart⟩)) := by
    refine lookUp_eq_error.mpr (table_eq_error.mpr ⟨List.not_mem_nil, ?_⟩)
    rw [loadOverrides_of_readBytes held, decoded]
  have illegible : ¬ IsLegible strayByte := by
    rintro ⟨text, whole, -⟩
    cases decoded.symm.trans (Text.Utf8.decodeWith_eq_ok.mpr whole)
  obtain ⟨named_iff, named_or_bare⟩ := names_document_iff held .entry "close"
  have unnamed : ¬ LookupFault.Names (documentName "Vertx")
      (.text (.encoding ⟨0xff, 0, 1, .invalidStart⟩)) := by
    intro named
    refine (named_iff.mp fun fault other => ?_).elim List.not_mem_nil illegible
    cases fails.symm.trans other
    exact named
  exact ⟨held, _, fails, fun _ => by rfl, ((named_or_bare _ fails).resolve_left unnamed).2⟩

end OverrideCache

end HostDecl
