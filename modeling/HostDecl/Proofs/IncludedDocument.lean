import HostDecl.Proofs.FailedLookUps
import HostDecl.Proofs.LineBreaks

/-!
# The text of a document and the document

A document is read as an optional file that is included: its line ends are made one kind, and a blank
line is put behind it. What is parsed is therefore never the text that the bytes of the file are.

**The law** (`table_of_document`): a cache that looks a document up for the first time has the table that
the text of the bytes has, or refuses the document as the text is refused. The two refusals may differ in
the place and the wording of a syntax fault, and in nothing else.

What it leans on is that JSON does not see which line breaks a text has or how many stand behind it
(`Json.limit?_parse_included`). A raw line break in a string is no way around that: it is a fault with
either kind of line end.

**What it does not establish.** Bytes that are no UTF-8 have no text to compare with, and a document that
cannot be read is not covered either.
-/

namespace HostDecl

/-- Refusals that are the same but for the place and the wording of a syntax fault. -/
inductive OverrideFault.Alike : OverrideFault → OverrideFault → Prop
  | same (fault : OverrideFault) : Alike fault fault
  | notJson (document : String) (fault other : Json.SyntaxFault)
    (line column position otherLine otherColumn otherPosition : Nat) :
    Alike (.notJson document fault line column position)
      (.notJson document other otherLine otherColumn otherPosition)

/-- Texts that are read alike are documents alike. -/
theorem OverrideTable.ofText_congr {text other : String} (typeName : String)
    (same : (Json.parse other).mapError Json.ReadFault.limit? =
      (Json.parse text).mapError Json.ReadFault.limit?) :
    (∃ table, ofText typeName other = .ok table ∧ ofText typeName text = .ok table) ∨
      ∃ fault own, ofText typeName other = .error fault ∧ ofText typeName text = .error own ∧
        fault.Alike own := by
  unfold ofText
  rcases Json.cases_of_mapError_eq same with
    ⟨value, left, right⟩ | ⟨fault, own, left, right, limit⟩
  · rw [left, right]
    dsimp only
    cases ofJson (documentName typeName) value with
    | ok table => exact .inl ⟨table, rfl, rfl⟩
    | error fault => exact .inr ⟨fault, fault, rfl, rfl, .same fault⟩
  · rw [left, right]
    right
    cases fault with
    | malformed fault line column position =>
      cases own with
      | malformed other otherLine otherColumn otherPosition =>
        exact ⟨_, _, rfl, rfl, .notJson ..⟩
      | beyond other => cases limit
    | beyond found =>
      cases own with
      | malformed => cases limit
      | beyond other =>
        cases limit
        exact ⟨_, _, rfl, rfl, .same _⟩

/-- The line ends of a text are blank, of either kind. -/
theorem allBlank_unifyNewlines (cs : List Char) :
    Text.allBlank (Text.unifyNewlines cs) = Text.allBlank cs := by
  induction cs with
  | nil => rfl
  | cons c rest ih =>
    unfold Text.allBlank at ih ⊢
    by_cases same : c = '\r'
    · have blank : Text.isBlank '\r' = true ∧ Text.isBlank '\n' = true := by decide
      rw [same, Text.unifyNewlines_return, List.all_cons, blank.1, Bool.true_and, ← ih]
      split
      next => rfl
      next => rw [List.all_cons, blank.2, Bool.true_and]
    · rw [Text.unifyNewlines_cons same, List.all_cons, List.all_cons, ih]

/-- What is included for a document that is a text. -/
theorem sideText_of_decode {disk : Disk} {base : Path} {typeName text : String} {bytes : ByteArray}
    (held : disk.readBytes (documentPath base typeName) = .ok bytes)
    (decoded : Text.Utf8.decode bytes = .ok text) :
    disk.sideText base (documentName typeName) =
      .ok (String.ofList (withBlankLine (Text.unifyNewlines text.toList))) := by
  have read : disk.readText (documentPath base typeName) =
      .ok (String.ofList (Text.unifyNewlines text.toList)) := by
    rw [Disk.readText_eq held, decoded]
  rw [sideText_of_readText (Disk.pathExists_of_readBytes held) read, String.toList_ofList]

namespace OverrideCache

/-- The first look-up of a type loads its document. -/
theorem table_of_notMem_keptTypes {c : OverrideCache} {typeName : String}
    (unknown : typeName ∉ c.keptTypes) (disk : Disk) :
    c.table disk typeName =
      (loadOverrides disk c.base typeName).map fun table => (table, c.keep typeName table) := by
  rw [OverrideCache.table, lookup_eq_none_iff_notMem_keptTypes.mpr unknown]
  dsimp only
  cases loadOverrides disk c.base typeName <;> rfl

/-- A document whose bytes are a text is included with one kind of line end and one or two line feeds
more. If the text is blank, the table is empty. Otherwise the first look-up has the table that the text
has, or it is refused as the text is. -/
theorem table_of_document {c : OverrideCache} {disk : Disk} {typeName text : String}
    {bytes : ByteArray} (unknown : typeName ∉ c.keptTypes)
    (held : disk.readBytes (documentPath c.base typeName) = .ok bytes)
    (decoded : Text.Utf8.decode bytes = .ok text) :
    (Text.allBlank text.toList = true →
      c.table disk typeName = .ok ([], c.keep typeName [])) ∧
    (Text.allBlank text.toList = false →
      (∃ count, 1 ≤ count ∧ count ≤ 2 ∧ disk.sideText c.base (documentName typeName) =
        .ok (String.ofList (Text.unifyNewlines text.toList ++ List.replicate count '\n'))) ∧
      (∀ table, OverrideTable.ofText typeName text = .ok table ↔
        ∃ after, c.table disk typeName = .ok (table, after)) ∧
      ∀ fault, c.table disk typeName = .error fault →
        ∃ refused own, fault = .document refused ∧
          OverrideTable.ofText typeName text = .error own ∧ refused.Alike own) := by
  have included := sideText_of_decode held decoded
  have blank : Text.allBlank (withBlankLine (Text.unifyNewlines text.toList)) =
      Text.allBlank text.toList := by
    rw [allBlank_withBlankLine, allBlank_unifyNewlines]
  rw [table_of_notMem_keptTypes unknown, loadOverrides, included]
  dsimp only
  rw [String.toList_ofList, blank]
  constructor
  · intro allBlank
    rw [if_pos allBlank]
    rfl
  · intro notBlank
    rw [if_neg (Bool.eq_false_iff.mp notBlank)]
    refine ⟨?text, ?table⟩
    case text =>
      obtain ⟨count, least, most, appended⟩ := withBlankLine_eq (Text.unifyNewlines text.toList)
      refine ⟨count, least ?_, most, by rw [appended]⟩
      intro nothing
      rw [← allBlank_unifyNewlines, nothing] at notBlank
      cases notBlank
    case table =>
      rcases OverrideTable.ofText_congr typeName (Json.limit?_parse_included text) with
        ⟨table, left, right⟩ | ⟨refused, own, left, right, alike⟩
      · rw [left, right]
        constructor
        · intro other
          constructor
          · rintro ⟨⟩
            exact ⟨_, rfl⟩
          · rintro ⟨_, ⟨⟩⟩
            rfl
        · intro fault failed
          cases failed
      · rw [left, right]
        constructor
        · intro other
          constructor
          · intro had
            cases had
          · rintro ⟨_, ⟨⟩⟩
        · intro fault failed
          cases failed
          exact ⟨refused, own, rfl, rfl, alike⟩

/-- A document with both kinds of carriage return, one of them at its end. -/
def mixedLines : String := "\x7b\r\n\"close\": \"()\",\r\"size\": \x7b\"args\": null\x7d\r\n\x7d\r"

/-- The document as it is on the disk. -/
def mixedDisk : Disk :=
  emptyDisk.put (Location.root.child (documentName "Vertx")) (.file mixedLines.toUTF8)

/-- The table of the document is the table of its text, carriage returns and all. -/
theorem table_of_document_mixedLines :
    "Vertx" ∉ (new .here).keptTypes ∧
    mixedDisk.readBytes (documentPath .here "Vertx") = .ok mixedLines.toUTF8 ∧
      Text.Utf8.decode mixedLines.toUTF8 = .ok mixedLines ∧
      ∃ after, (new .here).table mixedDisk "Vertx" =
        .ok ([("close", ⟨some "()", none, false⟩), ("size", ⟨none, none, true⟩)], after) := by
  have held : mixedDisk.readBytes (documentPath (new .here).base "Vertx") =
      .ok mixedLines.toUTF8 := by rfl
  have decoded : Text.Utf8.decode mixedLines.toUTF8 = .ok mixedLines :=
    Text.Utf8.decodeWith_toUTF8 _ _
  have unknown : "Vertx" ∉ (new .here).keptTypes := List.not_mem_nil
  refine ⟨unknown, held, decoded, ?_⟩
  obtain ⟨-, notBlank⟩ := table_of_document unknown held decoded
  obtain ⟨-, table, -⟩ := notBlank (by decide)
  exact (table _).mp (by rfl)

end OverrideCache

end HostDecl
