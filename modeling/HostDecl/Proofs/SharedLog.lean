import HostDecl.Command.Run
import HostDecl.Proofs.LogReading
import HostDecl.Proofs.LogRotation
import Mathlib.Logic.Function.Basic

/-!
# A log that channels share

Any number of channels report, are cleared, and are written to one log; a command removes the log. What
the log should hold is told by `Ledger`, from the steps alone and without a disk: the diagnostics that each
channel still has to write, and those that were written since the log was last made anew.

**The law** (`SharedLog.readLog_run`). After any steps, reading the log gives the diagnostics of the ledger,
each once and in the order in which they were written; and writing a channel answers with the number of
the diagnostics that the ledger keeps for it, and leaves it empty. Where there is something to write, the
log is set aside exactly if the ledger is full, which is the only point at which the ledger counts bytes.

The premises are that the directory of the log is missing at first, with nothing in its place, and that
each detail is a string and fits a line. Nothing is asked of the channels, of the moments or of the order
of the steps.
-/

namespace HostDecl

/-! ## Steps -/

namespace SharedLog

/-- A step of channels that share a log. -/
inductive Step (ι : Type) where
  /-- A channel takes a report at a moment. -/
  | report (channel : ι) (moment : Moment) (r : Report)
  /-- A channel is cleared. -/
  | clear (channel : ι)
  /-- A channel is written to the log. -/
  | write (channel : ι)
  /-- The command that removes the log is run, without a question. -/
  | remove (s : Surroundings)

/-- What is reported is one of the events, with a detail that is a string and fits a line. -/
def Step.Fits {ι : Type} : Step ι → Prop
  | .report _ _ r => r.event ∈ Report.events ∧ r.detail.IsString ∧ r.detail.FitsLine
  | _ => True

/-- A disk and channels. -/
structure World (ι : Type) where
  /-- The disk, with the log on it. -/
  disk : Disk
  /-- The channels. -/
  channels : ι → Channel

variable {ι : Type} [DecidableEq ι]

/-- Channels that have collected nothing, quiet or not. -/
def World.start (d : Disk) (quiet : ι → Bool) : World ι := ⟨d, fun i => .new (quiet i)⟩

/-- One step. -/
def World.step (base : String) (w : World ι) : Step ι → World ι
  | .report i moment r =>
    { w with channels := Function.update w.channels i ((w.channels i).report moment.text r).2 }
  | .clear i => { w with channels := Function.update w.channels i (w.channels i).clear }
  | .write i =>
    let done := (w.channels i).persist w.disk (.ofText base)
    ⟨done.disk, Function.update w.channels i done.channel⟩
  | .remove s =>
    let here := { s with workspace := { s.workspace with disk := w.disk } }
    { w with disk := ((Command.clearLog true base).run here).disk }

/-- Steps, one after the other. -/
def World.run (base : String) (w : World ι) (steps : List (Step ι)) : World ι :=
  steps.foldl (World.step base) w

/-! ## The ledger -/

/-- The text of a log that holds diagnostics. -/
def logText (recorded : List Diagnostic) : String := String.join (linesOf recorded)

/-- A log that holds diagnostics is larger than its limit. -/
def Full (recorded : List Diagnostic) : Prop := logSizeLimit < (logText recorded).utf8ByteSize

instance (recorded : List Diagnostic) : Decidable (Full recorded) :=
  inferInstanceAs (Decidable (_ < _))

/-- The diagnostics that channels have to write, and those that the log holds. -/
structure Ledger (ι : Type) where
  /-- What was reported to each channel since it was last written or cleared. -/
  pending : ι → List Diagnostic
  /-- What was written since the log was last removed or set aside. -/
  recorded : List Diagnostic

namespace Ledger

/-- Nothing reported and nothing written. -/
def start : Ledger ι := ⟨fun _ => [], []⟩

/-- A channel is written. If the log is full it is begun anew; nothing changes if there is nothing to
write. -/
def write (l : Ledger ι) (i : ι) : Ledger ι :=
  if l.pending i = [] then l
  else
    ⟨Function.update l.pending i [], (if Full l.recorded then [] else l.recorded) ++ l.pending i⟩

/-- One step. -/
def step (l : Ledger ι) : Step ι → Ledger ι
  | .report i moment r =>
    { l with pending := Function.update l.pending i (l.pending i ++ [r.atTime moment.text]) }
  | .clear i => { l with pending := Function.update l.pending i [] }
  | .write i => l.write i
  | .remove _ => { l with recorded := [] }

/-- Steps, one after the other. -/
def run (l : Ledger ι) (steps : List (Step ι)) : Ledger ι := steps.foldl step l

end Ledger

/-! ## Channels -/

/-- The channels hold what is pending, and all of it fits its lines. -/
structure Carries (channels : ι → Channel) (pending : ι → List Diagnostic) : Prop where
  entries : ∀ i, (channels i).entries = pending i
  fit : ∀ i, ∀ entry ∈ pending i, entry.Fits

theorem Carries.update {channels : ι → Channel} {pending : ι → List Diagnostic}
    (carries : Carries channels pending) (i : ι) {c : Channel} {entries : List Diagnostic}
    (holds : c.entries = entries) (fit : ∀ entry ∈ entries, entry.Fits) :
    Carries (Function.update channels i c) (Function.update pending i entries) := by
  constructor
  · intro j
    by_cases same : j = i
    · subst same
      rw [Function.update_self, Function.update_self, holds]
    · rw [Function.update_of_ne same, Function.update_of_ne same, carries.entries j]
  · intro j
    by_cases same : j = i
    · subst same
      rw [Function.update_self]
      exact fit
    · rw [Function.update_of_ne same]
      exact carries.fit j

/-- A report that fits, at a moment, is a diagnostic that fits. -/
theorem fits_atTime {r : Report} (known : r.event ∈ Report.events) (string : r.detail.IsString)
    (fits : r.detail.FitsLine) (moment : Moment) : (r.atTime moment.text).Fits :=
  ⟨moment.isWord_text, Report.isWord_event _ known, string, fits⟩

theorem Carries.report {channels : ι → Channel} {pending : ι → List Diagnostic}
    (carries : Carries channels pending) (i : ι) (moment : Moment) {r : Report}
    (fits : (r.atTime moment.text).Fits) :
    Carries (Function.update channels i ((channels i).report moment.text r).2)
      (Function.update pending i (pending i ++ [r.atTime moment.text])) := by
  apply carries.update i
  · rw [← carries.entries i]
    rfl
  · rw [List.forall_mem_append, List.forall_mem_singleton]
    exact ⟨carries.fit i, fits⟩

/-! ## The log -/

theorem linesOf_append {front : List Diagnostic} (fit : ∀ entry ∈ front, entry.Fits)
    (behind : List Diagnostic) : linesOf (front ++ behind) = linesOf front ++ linesOf behind := by
  induction front with
  | nil => rfl
  | cons entry rest ih =>
    obtain ⟨first, others⟩ := List.forall_mem_cons.mp fit
    obtain ⟨timestamp, event, _⟩ := entry
    obtain ⟨-, -, ⟨detail, rfl⟩, -⟩ := first
    rw [List.cons_append, linesOf_cons_string, linesOf_cons_string, ih others, List.cons_append]

/-- What is written behind diagnostics makes the text of both. -/
theorem toUTF8_logText_append {front : List Diagnostic} (fit : ∀ entry ∈ front, entry.Fits)
    (behind : List Diagnostic) :
    (logText (front ++ behind)).toUTF8 = (logText front).toUTF8 ++ (logText behind).toUTF8 := by
  rw [logText, linesOf_append fit, Disk.toUTF8_join_append]
  rfl

/-- What the log file holds; there is none as long as nothing is recorded. -/
def fileOf (recorded : List Diagnostic) : Option ByteArray :=
  if recorded = [] then none else some (logText recorded).toUTF8

theorem getD_fileOf (recorded : List Diagnostic) :
    (fileOf recorded).getD .empty = (logText recorded).toUTF8 := by
  rw [fileOf]
  split
  next nothing =>
    rw [nothing]
    rfl
  next => rfl

theorem full_iff (recorded : List Diagnostic) :
    Full recorded ↔ logSizeLimit < Disk.contentSize (fileOf recorded) := by
  rw [Full, Disk.contentSize, getD_fileOf, String.toUTF8_eq_toByteArray, String.size_toByteArray]

/-- A batch goes behind what is recorded, or begins the log anew. -/
theorem grown_fileOf {recorded batch : List Diagnostic} (fit : ∀ entry ∈ recorded, entry.Fits)
    (some_entry : batch ≠ []) :
    some (Disk.grown (fileOf recorded) (logText batch).toUTF8) =
      fileOf ((if Full recorded then [] else recorded) ++ batch) := by
  have there : ∀ front, fileOf (front ++ batch) = some (logText (front ++ batch)).toUTF8 :=
    fun front => if_neg (List.append_ne_nil_of_right_ne_nil front some_entry)
  rw [there, Disk.grown, Disk.keptLog]
  by_cases full : Full recorded
  · rw [if_pos full, if_pos ((full_iff recorded).mp full), Option.getD_none, ByteArray.empty_append,
      List.nil_append]
  · rw [if_neg full, if_neg (mt (full_iff recorded).mpr full), getD_fileOf,
      toUTF8_logText_append fit]

/-- The log on the disk holds what is recorded, and all of it fits its lines. -/
structure Records (base : String) (d : Disk) (recorded : List Diagnostic) : Prop where
  fit : ∀ entry ∈ recorded, entry.Fits
  log : ∃ aside, d.HasLog (.ofText base) (fileOf recorded) aside ∧
    ∀ bytes, aside = some bytes → logSizeLimit < bytes.size

namespace Records

variable {base : String} {d : Disk} {recorded : List Diagnostic}

/-- What is recorded is what is read. -/
theorem readLog (records : Records base d recorded) : d.readLog (.ofText base) = .ok recorded := by
  obtain ⟨aside, has, -⟩ := records.log
  by_cases nothing : recorded = []
  · rw [fileOf, if_pos nothing] at has
    rw [has.readLog, nothing]
  · rw [fileOf, if_neg nothing] at has
    rw [has.readLog_text, logText, (diagnosticsOf_linesOf records.fit).2]

/-- Writing a channel records what it holds. -/
theorem persist (records : Records base d recorded) {c : Channel}
    (fit : ∀ entry ∈ c.entries, entry.Fits) (some_entry : c.entries ≠ []) :
    let done := c.persist d (.ofText base)
    done.outcome = .ok c.entries.length ∧ done.channel = c.clear ∧
      Records base done.disk ((if Full recorded then [] else recorded) ++ c.entries) ∧
      (Disk.SetAsideBy d done.disk (.ofText base) ↔ Full recorded) := by
  intro done
  obtain ⟨aside, has, large⟩ := records.log
  obtain ⟨after, outcome, channel⟩ := has.persist some_entry
  have all : ¬(linesOf c.entries).length < c.entries.length := by
    rw [(diagnosticsOf_linesOf fit).1]
    exact Nat.lt_irrefl _
  rw [if_neg all] at outcome channel
  have moved := has.setAsideBy_iff after large
  rw [← full_iff] at moved
  refine ⟨outcome, channel, ⟨?_, Disk.setAside (fileOf recorded) aside, ?_,
    Disk.large_setAside large⟩, moved⟩
  · rw [List.forall_mem_append]
    refine ⟨?_, fit⟩
    split
    · exact List.forall_mem_nil _
    · exact records.fit
  · rw [← grown_fileOf records.fit some_entry]
    exact after

end Records

/-- The command removes the log and leaves the one that was set aside. -/
theorem hasLog_clearLog {base : String} {s : Surroundings} {current aside : Option ByteArray}
    (has : s.workspace.disk.HasLog (.ofText base) current aside) :
    ((Command.clearLog true base).run s).disk.HasLog (.ofText base) none aside := by
  rw [Command.run, runClear, has.pathExists_file]
  cases current with
  | none => exact has
  | some bytes =>
    obtain ⟨removed, unlinks, after⟩ := has.unlink
    dsimp only [Option.isSome_some]
    rw [if_pos rfl, if_pos rfl, unlinks]
    exact after

/-! ## Steps and the ledger -/

/-- The channels and the log hold what the ledger says. -/
structure Agrees (base : String) (w : World ι) (l : Ledger ι) : Prop where
  channels : Carries w.channels l.pending
  log : Records base w.disk l.recorded

namespace Agrees

variable {base : String} {w : World ι} {l : Ledger ι}

omit [DecidableEq ι] in
theorem start {d : Disk} {home : Location} (there : d.LogHome (.ofText base) home) (tree : d.IsTree)
    (missing : d.pathExists (logDirectory (.ofText base)) = .ok false) (quiet : ι → Bool) :
    Agrees base (.start d quiet) .start := by
  have has := there.hasLog_of_missing tree missing
  refine ⟨⟨fun _ => rfl, fun _ => List.forall_mem_nil _⟩, List.forall_mem_nil _, none, has, ?_⟩
  intro bytes none
  cases none

/-- Writing a channel does what the ledger does, and answers with what the ledger keeps for it. -/
theorem write (agrees : Agrees base w l) (i : ι) :
    let done := (w.channels i).persist w.disk (.ofText base)
    Agrees base (w.step base (.write i)) (l.write i) ∧
      done.outcome = .ok (l.pending i).length ∧ done.channel.entries = [] ∧
      (l.pending i ≠ [] → (Disk.SetAsideBy w.disk done.disk (.ofText base) ↔ Full l.recorded)) := by
  intro done
  have entries := agrees.channels.entries i
  have after : w.step base (.write i) =
      ⟨done.disk, Function.update w.channels i done.channel⟩ := rfl
  by_cases nothing : l.pending i = []
  · have same : done = ⟨.ok 0, w.disk, w.channels i⟩ := Disk.persist_of_nil (entries.trans nothing)
    refine ⟨?_, ?_, ?_, fun some_entry => absurd nothing some_entry⟩
    · rw [Ledger.write, if_pos nothing, after, same, Function.update_eq_self]
      exact agrees
    · rw [same, nothing]
      rfl
    · rw [same, entries, nothing]
  · have fit : ∀ entry ∈ (w.channels i).entries, entry.Fits := by
      rw [entries]
      exact agrees.channels.fit i
    have some_entry : (w.channels i).entries ≠ [] := by rwa [entries]
    obtain ⟨outcome, channel, records, moved⟩ := agrees.log.persist fit some_entry
    have empty : done.channel.entries = [] := by
      rw [show done.channel = (w.channels i).clear from channel]
      rfl
    rw [entries] at outcome records
    refine ⟨?_, outcome, empty, fun _ => moved⟩
    rw [Ledger.write, if_neg nothing, after]
    exact ⟨agrees.channels.update i empty (List.forall_mem_nil _), records⟩

/-- Every step keeps the agreement. -/
theorem step (agrees : Agrees base w l) {s : Step ι} (fits : s.Fits) :
    Agrees base (w.step base s) (l.step s) := by
  cases s with
  | report i moment r =>
    obtain ⟨known, string, fitsLine⟩ := fits
    exact ⟨agrees.channels.report i moment (fits_atTime known string fitsLine moment), agrees.log⟩
  | clear i => exact ⟨agrees.channels.update i rfl (List.forall_mem_nil _), agrees.log⟩
  | write i => exact (agrees.write i).1
  | remove s =>
    obtain ⟨aside, has, large⟩ := agrees.log.log
    exact ⟨agrees.channels, List.forall_mem_nil _, aside, hasLog_clearLog has, large⟩

/-- Every run does. -/
theorem run (agrees : Agrees base w l) {steps : List (Step ι)} (fit : ∀ s ∈ steps, s.Fits) :
    Agrees base (w.run base steps) (l.run steps) := by
  induction steps generalizing w l with
  | nil => exact agrees
  | cons s rest ih =>
    obtain ⟨first, others⟩ := List.forall_mem_cons.mp fit
    exact ih (agrees.step first) others

end Agrees

/-- **The log holds what was written**, whatever the steps were: it is read as the diagnostics of the
ledger. Writing a channel answers with the number of its diagnostics and leaves it empty. -/
theorem readLog_run {d : Disk} {base : String} {home : Location}
    (there : d.LogHome (.ofText base) home) (tree : d.IsTree)
    (missing : d.pathExists (logDirectory (.ofText base)) = .ok false) (quiet : ι → Bool)
    (steps : List (Step ι)) (fit : ∀ s ∈ steps, s.Fits) :
    let w := (World.start d quiet).run base steps
    let l := Ledger.start.run steps
    w.disk.readLog (.ofText base) = .ok l.recorded ∧
      ∀ i,
        let done := (w.channels i).persist w.disk (.ofText base)
        (w.channels i).entries = l.pending i ∧
          done.outcome = .ok (l.pending i).length ∧ done.channel.entries = [] ∧
          (l.pending i ≠ [] →
            (Disk.SetAsideBy w.disk done.disk (.ofText base) ↔ Full l.recorded)) := by
  intro w l
  have agrees : Agrees base w l := (Agrees.start there tree missing quiet).run fit
  refine ⟨agrees.log.readLog, fun i => ?_⟩
  obtain ⟨-, outcome, empty, moved⟩ := agrees.write i
  exact ⟨agrees.channels.entries i, outcome, empty, moved⟩

/-- A second after noon. -/
def noon (second : Nat) : Moment := ⟨⟨2024, 1, 2⟩, ⟨12, 0, second, 0⟩⟩

/-- Two channels report. The second one is written first; what it reports then is cleared once. -/
def twoChannels : List (Step Bool) :=
  [.report false (noon 1) ⟨Report.unmappedType, "a | b"⟩,
    .report true (noon 2) ⟨Report.unhandledKind, "c - d"⟩,
    .write true,
    .report false (noon 3) ⟨Report.unhandledLinkKind, "e"⟩,
    .report true (noon 4) ⟨Report.unmappedType, "f"⟩,
    .clear true,
    .write false,
    .report true (noon 5) ⟨Report.unmappedType, "g"⟩]

/-- The log holds the two writes, and the second channel has one diagnostic to write. -/
theorem readLog_run_twoChannels :
    let w := (World.start .bare fun _ => true).run "." twoChannels
    (∀ s ∈ twoChannels, s.Fits) ∧
      w.disk.readLog .here =
        .ok [⟨"2024-01-02T12:00:02", "unhandled-kind", "c - d"⟩,
          ⟨"2024-01-02T12:00:01", "unmapped-type", "a | b"⟩,
          ⟨"2024-01-02T12:00:03", "unhandled-link-kind", "e"⟩] ∧
      ((w.channels true).persist w.disk .here).outcome = .ok 1 := by
  intro w
  have reported : ∀ (i : Bool) (moment : Moment) {event detail : String}, event ∈ Report.events →
      Text.FitsLine detail → (Step.report i moment ⟨event, detail⟩).Fits :=
    fun _ _ _ _ known fits => ⟨known, ⟨_, rfl⟩, fits⟩
  have fit : ∀ s ∈ twoChannels, s.Fits := by
    simp only [twoChannels, List.forall_mem_cons]
    exact ⟨reported _ _ (by decide) (by decide), reported _ _ (by decide) (by decide), trivial,
      reported _ _ (by decide) (by decide), reported _ _ (by decide) (by decide), trivial, trivial,
      reported _ _ (by decide) (by decide), List.forall_mem_nil _⟩
  have recorded : (Ledger.start.run twoChannels).recorded =
      [⟨"2024-01-02T12:00:02", "unhandled-kind", "c - d"⟩,
        ⟨"2024-01-02T12:00:01", "unmapped-type", "a | b"⟩,
        ⟨"2024-01-02T12:00:03", "unhandled-link-kind", "e"⟩] := by decide +kernel
  have pending : ((Ledger.start.run twoChannels).pending true).length = 1 := by decide +kernel
  obtain ⟨read, channels⟩ := @readLog_run Bool _ .bare "." .root Disk.logHome_bare Disk.bare_isTree rfl
    (fun _ => true) twoChannels fit
  obtain ⟨-, outcome, -⟩ := channels true
  rw [recorded] at read
  rw [pending] at outcome
  exact ⟨fit, read, outcome⟩

/-- A channel that takes one report, which is to be written. -/
def oneReport (detail : Text) : List (Step Unit) := [.report () (noon 1) ⟨Report.unmappedType, detail⟩]

/-- Half of a surrogate pair fits a line, but the channel that took it is not written: it fails where the
ledger counts one diagnostic, and keeps it. So does a channel where a file stands in place of the
directory of the log. -/
theorem write_unlike_ledger :
    let written (d : Disk) (detail : Text) : Written :=
      let w := (World.start d fun _ => true).run "." (oneReport detail)
      (w.channels ()).persist w.disk .here
    (∀ detail, ((Ledger.start.run (oneReport detail)).pending ()).length = 1) ∧
    (Text.FitsLine ⟨[.half 0]⟩ ∧ Disk.bare.pathExists (logDirectory .here) = .ok false ∧
      (written .bare ⟨[.half 0]⟩).outcome = .error .unwritable ∧
      (written .bare ⟨[.half 0]⟩).channel.entries ≠ []) ∧
    Text.FitsLine "a.Foo" ∧ Disk.blockedDisk.node? (Disk.logPlace .root) ≠ some .directory ∧
      (written .blockedDisk "a.Foo").outcome = .error .alreadyExists ∧
      (written .blockedDisk "a.Foo").channel.entries ≠ [] := by
  intro written
  have held : Disk.blockedDisk.node? (Disk.logPlace .root) = some (.file "x".toUTF8) := rfl
  refine ⟨fun _ => rfl, ?_, ?_⟩
  · exact ⟨by decide, by decide +kernel, by decide +kernel, by decide +kernel⟩
  · exact ⟨by decide, by rw [held]; exact nofun, by decide +kernel, by decide +kernel⟩

end SharedLog

end HostDecl
