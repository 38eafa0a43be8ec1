import HostDecl.Diagnostic.Moment
import HostDecl.Proofs.LogFolder
import HostDecl.Proofs.LogLine

/-!
# Reading a written log

**The law** (`Disk.readLog_persist_iff`). One diagnostic is written where there is no log, and the log is
read. It comes back as it was exactly if its detail is a string that fits a line: it is not empty, it
holds no line end, and it does not end in a blank. Nothing else about the detail matters, so bars and
separators in it, any number of them, and blanks in front of it come back. A text that is no string holds
half of a surrogate pair: a file has no bytes for it, and it is not written at all. That there is no log
means that its directory is missing, or is there without the file; a file in place of the directory is
an obstacle, and then nothing is written either.

The time is that of any moment and the event one that is reported. Both are words, which is what the law
about the lines (`Diagnostic.Fits`) asks of them.
-/

namespace HostDecl

/-! ## Times and events -/

namespace Text

theorem isBlank_of_isDigit {c : Char} (digit : c.isDigit = true) : isBlank c = false := by
  simp only [Char.isDigit, Bool.and_eq_true, decide_eq_true_eq, ge_iff_le, UInt32.le_iff_toNat_le]
    at digit
  have low : 48 ≤ c.toNat := digit.1
  have high : c.toNat ≤ 57 := digit.2
  simp only [isBlank, Bool.or_eq_false_iff, Bool.and_eq_false_iff, decide_eq_false_iff_not,
    beq_eq_false_iff_ne]
  omega

end Text

theorem not_isBlank_zeroPadded (width n : Nat) :
    ∀ c ∈ (zeroPadded width n).toList, Text.isBlank c = false := by
  intro c mem
  rw [zeroPadded, String.toList_ofList, List.mem_append] at mem
  rcases mem with zero | digit
  · rw [(List.mem_replicate.mp zero).2]
    decide
  · exact Text.isBlank_of_isDigit (Nat.isDigit_of_mem_toDigits (by decide) (by decide) digit)

/-- The text of a moment is a word. -/
theorem Moment.isWord_text (m : Moment) : Text.IsWord m.text.toList := by
  have digits := not_isBlank_zeroPadded
  have hyphen : Text.IsWord "-".toList := by decide
  have letter : Text.IsWord "T".toList := by decide
  have colon : Text.IsWord ":".toList := by decide
  have point : Text.IsWord ".".toList := by decide
  have fraction : ∀ c ∈ (if m.time.microsecond = 0 then ""
      else "." ++ zeroPadded 6 m.time.microsecond).toList, Text.isBlank c = false := by
    split
    · exact List.forall_mem_nil _
    · rw [String.toList_append, List.forall_mem_append]
      exact ⟨point.plain, digits 6 _⟩
  constructor
  · intro nothing
    have among : 'T' ∈ m.text.toList := by
      rw [text]
      simp only [String.toList_append, List.mem_append]
      simp
    rw [nothing] at among
    cases among
  · rw [text]
    simp only [String.toList_append, List.forall_mem_append]
    exact ⟨⟨⟨⟨⟨⟨⟨⟨⟨⟨⟨digits 4 _, hyphen.plain⟩, digits 2 _⟩, hyphen.plain⟩, digits 2 _⟩,
      letter.plain⟩, digits 2 _⟩, colon.plain⟩, digits 2 _⟩, colon.plain⟩, digits 2 _⟩, fraction⟩

namespace Report

/-- The events that are reported. -/
def events : List String := [unmappedType, unhandledKind, unhandledLinkKind]

theorem isWord_event : ∀ event ∈ events, Text.IsWord event.toList := by
  rw [events, List.forall_mem_cons, List.forall_mem_cons, List.forall_mem_singleton]
  decide

end Report

namespace Disk

variable {d : Disk} {base : Path} {aside : Option ByteArray}

/-- A log file that holds a text is read as the lines of it. -/
theorem readLog_of_readBytes {text : String} (held : d.readBytes (logFile base) = .ok text.toUTF8) :
    d.readLog base = .ok (diagnosticsOf text.toList) := by
  rw [readLog, pathExists_of_readBytes held, held]
  dsimp only
  rw [Text.Utf8.decodeBlocks, Text.Utf8.decodeWith_toUTF8]

theorem HasLog.readLog_text {text : String} (has : HasLog d base (some text.toUTF8) aside) :
    d.readLog base = .ok (diagnosticsOf text.toList) :=
  readLog_of_readBytes has.readBytes_file

/-- A disk with a log that holds a text, and with nothing else. -/
def onlyLog (text : String) : Disk :=
  ⟨[(logPlace .root, .directory), (logFilePlace .root, .file text.toUTF8)], .root⟩

theorem readBytes_onlyLog (text : String) : (onlyLog text).readBytes (logFile .here) = .ok text.toUTF8 := rfl

theorem grown_none (bytes : ByteArray) : grown none bytes = bytes := by
  have small : ¬logSizeLimit < contentSize none := by decide
  rw [grown, keptLog, if_neg small, Option.getD_none, ByteArray.empty_append]

/-- A channel that is written where there is no log is read from the lines of its diagnostics. -/
theorem HasLog.readLog_persist (has : HasLog d base none aside) {c : Channel}
    (some_entry : c.entries ≠ []) :
    (c.persist d base).disk.readLog base =
      .ok (diagnosticsOf (String.join (linesOf c.entries)).toList) := by
  have after := (has.persist some_entry).1
  rw [grown_none] at after
  exact after.readLog_text

/-- **One diagnostic is read back** exactly if its detail is a string that fits a line. -/
theorem readLog_persist_iff (has : HasLog d base none aside) (quiet : Bool) (moment : Moment)
    {event : String} (known : event ∈ Report.events) (detail : Text) :
    let c := ((Channel.new quiet).report moment.text ⟨event, detail⟩).2
    (c.persist d base).disk.readLog base = .ok [⟨moment.text, event, detail⟩] ↔
      detail.IsString ∧ detail.FitsLine := by
  intro c
  have time : Text.IsWord moment.text.toList := moment.isWord_text
  have name : Text.IsWord event.toList := Report.isWord_event event known
  have entries : c.entries = [⟨moment.text, event, detail⟩] := rfl
  rw [has.readLog_persist (by simp [entries]), entries, Except.ok.injEq]
  exact diagnosticsOf_linesOf_singleton_iff time name detail

/-- Bars and blanks in front come back, on a disk where there was nothing; a blank behind does not. -/
theorem readLog_persist_iff_bars :
    let moment : Moment := ⟨⟨2024, 1, 2⟩, ⟨3, 4, 5, 678901⟩⟩
    let readBack (detail : Text) : Prop :=
      let c := ((Channel.new true).report moment.text ⟨Report.unmappedType, detail⟩).2
      (c.persist bare .here).disk.readLog .here = .ok [⟨moment.text, Report.unmappedType, detail⟩]
    HasLog bare .here none none ∧ Report.unmappedType ∈ Report.events ∧
      readBack " | a | | b |" ∧ ¬readBack "a | b | " := by
  have known : Report.unmappedType ∈ Report.events := by decide
  refine ⟨hasLog_bare, known, ?_, ?_⟩
  · exact (readLog_persist_iff hasLog_bare true _ known _).mpr ⟨⟨_, rfl⟩, by decide⟩
  · intro read
    obtain ⟨-, fits⟩ := (readLog_persist_iff hasLog_bare true _ known _).mp read
    exact absurd fits (by decide)

/-- Half of a surrogate pair fits a line, and is not read back: there are no bytes for it. Nor is
anything read back where a file stands in place of the directory of the log. -/
theorem not_read_back :
    let moment : Moment := ⟨⟨2024, 1, 2⟩, ⟨3, 4, 5, 678901⟩⟩
    let written (d : Disk) (detail : Text) : Written :=
      ((Channel.new true).report moment.text ⟨Report.unmappedType, detail⟩).2.persist d .here
    let readBack (d : Disk) (detail : Text) : Prop :=
      (written d detail).disk.readLog .here = .ok [⟨moment.text, Report.unmappedType, detail⟩]
    (HasLog bare .here none none ∧ Text.FitsLine ⟨[.half 0]⟩ ∧
      (written bare ⟨[.half 0]⟩).outcome = .error .unwritable ∧ ¬readBack bare ⟨[.half 0]⟩) ∧
    blockedDisk.pathExists (logFile .here) = .ok false ∧ Text.FitsLine "a.Foo" ∧
      (written blockedDisk "a.Foo").outcome = .error .alreadyExists ∧ ¬readBack blockedDisk "a.Foo" := by
  intro moment written readBack
  constructor
  · refine ⟨hasLog_bare, by decide, by decide +kernel, ?_⟩
    simp only [readBack, written]
    rw [hasLog_bare.readLog_persist (List.cons_ne_nil _ _)]
    decide +kernel
  · refine ⟨by decide +kernel, by decide, by decide +kernel, ?_⟩
    have nothing : (written blockedDisk "a.Foo").disk.readLog .here = .ok [] := by decide +kernel
    simp only [readBack]
    rw [nothing]
    exact nofun

end Disk

end HostDecl
