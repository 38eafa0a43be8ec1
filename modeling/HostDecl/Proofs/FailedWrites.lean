import HostDecl.Proofs.LogObstacles

/-!
# Writes that fail

A log that cannot be written is not lost: what was to be written stays in the channel, and no file has
changed. Once nothing is in the way any more, the channel is written as if there had been no failure.

**The law** (`persist_atomic`). Writing fails at the disk exactly if there is an obstacle (`Obstacle`), and
at a step before which only directories were made (`FailsAt`). The channel is as before, and so is every
file. On any disk without an obstacle the same channel is written whole, each of its diagnostics once and
in order, behind what the log held, unless that was too large and is set aside.

That an obstacle is taken away means that nothing is left at its place or below it (`Removed`). Where the
base path has no two dots, there is one obstacle at a time, so that none is left then.

**What it does not establish.** A detail with half of a surrogate pair is no string. It stops the writing
between two lines, which is a failure of another kind: its fault is not one of the disk, and no other
details can lead to it. What it leaves behind is outside the law (`persist_not_atomic`). Nor does the law
say how the log is read: where it does not end with a line, what is added goes on with its last one.
-/

namespace HostDecl

/-! ## Places below places -/

namespace Location

/-- A place is another one or lies below it. -/
def Within (other place : Location) : Prop := place.names <:+ other.names

theorem Within.refl (place : Location) : place.Within place := List.suffix_refl _

/-- Parts without two dots only lead down. -/
theorem names_reached {origin : Location} {parts : List String} (plain : ".." ∉ parts) :
    (origin.reached parts).names = parts.reverse ++ origin.names := by
  induction parts generalizing origin with
  | nil => rfl
  | cons part rest ih =>
    rw [List.mem_cons, not_or] at plain
    rw [reached_cons, ih plain.2, next_of_ne (Ne.symm plain.1), List.reverse_cons, List.append_assoc]
    rfl

theorem within_reached_of_prefix {origin : Location} {front parts : List String} (plain : ".." ∉ parts)
    (before : front <+: parts) : (origin.reached parts).Within (origin.reached front) := by
  rw [Within, names_reached plain, names_reached fun mem => plain (before.subset mem)]
  exact List.suffix_append_self_iff.mpr (List.reverse_suffix.mpr before)

end Location

namespace Disk

/-- Above whatever stands in a tree, there are directories. -/
theorem IsTree.directory_above {d : Disk} (tree : d.IsTree) {place other : Location} {node : Node}
    (found : d.node? other = some node) (within : other.Within place) (differs : other ≠ place) :
    d.node? place = some .directory := by
  generalize listed : other.names = names
  induction names generalizing other node with
  | nil =>
    rw [Location.Within, listed, List.suffix_nil] at within
    exact absurd (Location.eq_of_names_eq (listed.trans within.symm)) differs
  | cons name rest ih =>
    have parent := tree _ _ found
    have above : other.parent.names = rest := congrArg List.tail listed
    rw [Location.Within, listed, List.suffix_cons_iff] at within
    rcases within with same | inside
    · exact absurd (Location.eq_of_names_eq (listed.trans same.symm)) differs
    · by_cases here : other.parent = place
      · rw [← here]
        exact parent
      · refine ih parent ?_ here above
        rw [Location.Within, above]
        exact inside

/-! ## Paths that only lead down -/

section

variable {d : Disk} {base : Path} {place : Location}

theorem plain_logDirectory (plain : ".." ∉ base.parts) : ".." ∉ (logDirectory base).parts := by
  rw [logDirectory, Path.child, List.mem_append, not_or]
  exact ⟨plain, by decide⟩

/-- Below a base path without two dots, what is in the directory of a log is not on the way to it. -/
theorem inside_ne_reached (plain : ".." ∉ base.parts) (name : String) {front : List String}
    (before : front <+: (logDirectory base).parts) :
    (logPlace (d.homeOf base)).child name ≠ (d.base base).reached front := by
  have plainLog := plain_logDirectory plain
  intro same
  have names := congrArg (List.length ∘ Location.names) same
  have length := before.length_le
  rw [← reached_logDirectory] at names
  simp only [Function.comp, Location.child, List.length_cons, Location.names_reached plainLog,
    Location.names_reached fun mem => plainLog (before.subset mem), List.length_append,
    List.length_reverse] at names
  omega

theorem within_of_inside (plain : ".." ∉ base.parts) (name : String) {front : List String}
    (before : front <+: (logDirectory base).parts) :
    ((logPlace (d.homeOf base)).child name).Within ((d.base base).reached front) := by
  have plainLog := plain_logDirectory plain
  have above : ((d.base base).reached (logDirectory base).parts).Within ((d.base base).reached front) :=
    Location.within_reached_of_prefix plainLog before
  rw [reached_logDirectory] at above
  exact above.trans (List.suffix_cons name _)

/-- What is in the directory of a log is not made on the way to it. -/
theorem node?_inside (plain : ".." ∉ base.parts) (name : String) :
    (d.makeDirectories (logDirectory base)).1.node? ((logPlace (d.homeOf base)).child name) =
      d.node? ((logPlace (d.homeOf base)).child name) := by
  rcases d.makeDirectories_cases (logDirectory base) with same | made
  · rw [same]
  · rw [made]
    exact node?_makeDirectoriesFrom_of_ne fun front before => inside_ne_reached plain name before

/-- The obstacles to a log whose base path has no two dots, by what was on the disk before. -/
inductive PlainObstacle (d : Disk) (base : Path) : Location → Prop
  | onTheWay {front : List String} {content : ByteArray} (before : front <+: (logDirectory base).parts)
    (file : d.node? ((d.base base).reached front) = some (.file content)) :
    PlainObstacle d base ((d.base base).reached front)
  | inPlaceOfLog (directory : d.node? (logFilePlace (d.homeOf base)) = some .directory) :
    PlainObstacle d base (logFilePlace (d.homeOf base))
  | inPlaceOfBackup {content : ByteArray}
    (file : d.node? (logFilePlace (d.homeOf base)) = some (.file content))
    (directory : d.node? (logBackupPlace (d.homeOf base)) = some .directory) :
    PlainObstacle d base (logBackupPlace (d.homeOf base))

theorem Obstacle.plain (obstacle : Obstacle d base place) (plain : ".." ∉ base.parts) :
    PlainObstacle d base place := by
  have inside : ∀ {opened : Disk} (name : String),
      d.makeDirectories (logDirectory base) = (opened, none) →
        opened.node? ((logPlace (d.homeOf base)).child name) =
          d.node? ((logPlace (d.homeOf base)).child name) := by
    intro opened name made
    rw [← node?_inside plain name, made]
  cases obstacle with
  | onTheWay before file => exact .onTheWay before file
  | inPlaceOfLog made directory => exact .inPlaceOfLog ((inside _ made).symm.trans directory)
  | inPlaceOfBackup made file _ directory =>
    exact .inPlaceOfBackup ((inside _ made).symm.trans file) ((inside _ made).symm.trans directory)

/-- From one disk to the next, what is at a place and below it is taken away, and nothing else is. -/
structure Removed (place : Location) (d e : Disk) : Prop where
  working : e.working = d.working
  gone : ∀ other : Location, other.Within place → e.node? other = none
  kept : ∀ other : Location, ¬ other.Within place → e.node? other = d.node? other

theorem Removed.node?_eq_some {e : Disk} {other : Location} {node : Node}
    (removed : Removed place d e) (found : e.node? other = some node) :
    ¬ other.Within place ∧ d.node? other = some node := by
  by_cases inside : other.Within place
  · rw [removed.gone other inside] at found
    cases found
  · exact ⟨inside, (removed.kept other inside).symm.trans found⟩

theorem Removed.isTree {e : Disk} (removed : Removed place d e) (tree : d.IsTree) : e.IsTree := by
  intro other node found
  obtain ⟨outside, before⟩ := removed.node?_eq_some found
  rw [removed.kept other.parent fun inside => outside (inside.trans (List.tail_suffix _))]
  exact tree other node before

/-- An obstacle is below the directory that the base path starts at. -/
theorem PlainObstacle.not_within (obstacle : PlainObstacle d base place) (rooted : d.Rooted base)
    (plain : ".." ∉ base.parts) : ¬ (d.base base).Within place := by
  have below : place ≠ d.base base ∧ place.Within (d.base base) := by
    cases obstacle with
    | onTheWay before file =>
      have plainLog := plain_logDirectory plain
      have within : ((d.base base).reached _).Within ((d.base base).reached []) :=
        Location.within_reached_of_prefix (fun mem => plainLog (before.subset mem)) List.nil_prefix
      refine ⟨?_, within⟩
      intro same
      rw [same, rooted.origin] at file
      cases file
    | inPlaceOfLog =>
      exact ⟨inside_ne_reached plain _ List.nil_prefix, within_of_inside plain _ List.nil_prefix⟩
    | inPlaceOfBackup =>
      exact ⟨inside_ne_reached plain _ List.nil_prefix, within_of_inside plain _ List.nil_prefix⟩
  intro above
  exact below.1 (Location.eq_of_names_eq (below.2.eq_of_length_le above.length_le).symm)

/-- **There is one obstacle at a time.** Nothing stands below a file, and in place of the log
there is a file or a directory, but not both. -/
theorem PlainObstacle.unique {other : Location} (tree : d.IsTree) (plain : ".." ∉ base.parts)
    (one : PlainObstacle d base place) (another : PlainObstacle d base other) : other = place := by
  have plainLog := plain_logDirectory plain
  have noneBelow : ∀ {file below : Location} {content : ByteArray} {node : Node},
      d.node? file = some (.file content) → d.node? below = some node → below.Within file →
        below = file := by
    intro file below content node there found within
    by_contra differs
    rw [tree.directory_above found within differs] at there
    cases there
  cases one with
  | onTheWay before file =>
    cases another with
    | onTheWay beforeOther fileOther =>
      rcases List.prefix_or_prefix_of_prefix before beforeOther with shorter | longer
      · exact noneBelow file fileOther (Location.within_reached_of_prefix
          (fun mem => plainLog (beforeOther.subset mem)) shorter)
      · exact (noneBelow fileOther file (Location.within_reached_of_prefix
          (fun mem => plainLog (before.subset mem)) longer)).symm
    | inPlaceOfLog directory => exact noneBelow file directory (within_of_inside plain _ before)
    | inPlaceOfBackup _ directory => exact noneBelow file directory (within_of_inside plain _ before)
  | inPlaceOfLog directory =>
    cases another with
    | onTheWay before file => exact (noneBelow file directory (within_of_inside plain _ before)).symm
    | inPlaceOfLog => rfl
    | inPlaceOfBackup file => cases directory.symm.trans file
  | inPlaceOfBackup file directory =>
    cases another with
    | onTheWay before onWay => exact (noneBelow onWay directory (within_of_inside plain _ before)).symm
    | inPlaceOfLog other => cases file.symm.trans other
    | inPlaceOfBackup => rfl

section

variable {e : Disk} (removed : Removed place (d.makeDirectories (logDirectory base)).1 e)
include removed

theorem Removed.base_eq : e.base base = d.base base := by
  rw [Disk.base, Disk.base, removed.working, working_makeDirectories]

/-- What is an obstacle after a removal was one before, at another place. -/
theorem PlainObstacle.of_removed {other : Location} (plain : ".." ∉ base.parts)
    (left : PlainObstacle e base other) : ¬ other.Within place ∧ PlainObstacle d base other := by
  have sameHome : e.homeOf base = d.homeOf base := by rw [homeOf, homeOf, removed.base_eq]
  cases left with
  | onTheWay before file =>
    rw [removed.base_eq] at file ⊢
    obtain ⟨outside, file⟩ := removed.node?_eq_some file
    exact ⟨outside, .onTheWay before (file_makeDirectories_iff.mp file)⟩
  | inPlaceOfLog directory =>
    rw [sameHome] at directory ⊢
    obtain ⟨outside, directory⟩ := removed.node?_eq_some directory
    exact ⟨outside, .inPlaceOfLog ((node?_inside plain _).symm.trans directory)⟩
  | inPlaceOfBackup file directory =>
    rw [sameHome] at file directory ⊢
    obtain ⟨-, file⟩ := removed.node?_eq_some file
    obtain ⟨outside, directory⟩ := removed.node?_eq_some directory
    exact ⟨outside, .inPlaceOfBackup (file_makeDirectories_iff.mp file)
      ((node?_inside plain _).symm.trans directory)⟩

/-- Where an obstacle is taken away with what is below it, there is none. -/
theorem no_obstacle_of_removed (rooted : d.Rooted base) (plain : ".." ∉ base.parts)
    (obstacle : Obstacle d base place) : e.Rooted base ∧ ∀ other, ¬ Obstacle e base other := by
  have obstacle := obstacle.plain plain
  refine ⟨⟨removed.isTree (rooted.tree.makeDirectories rooted.origin), ?origin⟩, fun other left => ?none⟩
  case origin =>
    rw [removed.base_eq, removed.kept _ (obstacle.not_within rooted plain)]
    rcases d.node?_makeDirectories (logDirectory base) (d.base base) with same | ⟨-, directory⟩
    · rw [same, rooted.origin]
    · exact directory
  case none =>
    obtain ⟨outside, before⟩ := PlainObstacle.of_removed removed plain (left.plain plain)
    obtain rfl := obstacle.unique rooted.tree plain before
    exact outside (.refl _)

end

end

/-! ## The law -/

/-- Where a step fails, directories were made, and nothing else was done. -/
theorem FailsAt.opened_eq {d opened : Disk} {base : Path} {lines : ByteArray} {fault : FileFault}
    (fails : FailsAt d base lines opened fault) :
    opened = (d.makeDirectories (logDirectory base)).1 := by
  cases fails with
  | making made | settingAside made | adding made => rw [made]

/-- A channel that holds strings is written, or fails because of an obstacle, and then nothing has
happened but that directories may be there. When no obstacle is there any more, all of it is written. -/
theorem persist_atomic {c : Channel} (some_entry : c.entries ≠ []) (d : Disk) (base : Path) :
    let written := c.persist d base
    (d.Rooted base → TakesLog base →
      ((∃ fault, written.outcome = .error fault ∧ fault ≠ .unwritable) ↔
        ∃ place, Obstacle d base place) ∧
      (written.outcome = .error .unwritable → ∃ entry ∈ c.entries, ¬ entry.detail.IsString)) ∧
    ∀ fault, written.outcome = .error fault → fault ≠ .unwritable →
      written.channel = c ∧
      (∀ place content, written.disk.node? place = some (.file content) ↔
        d.node? place = some (.file content)) ∧
      FailsAt d base (String.join (linesOf c.entries)).toUTF8 written.disk fault ∧
      (d.Rooted base → ".." ∉ base.parts → ∀ place e, Obstacle d base place →
        Removed place written.disk e → e.Rooted base ∧ ∀ other, ¬ Obstacle e base other) ∧
      ∀ e : Disk, e.Rooted base → TakesLog base → (∀ place, ¬ Obstacle e base place) →
        (∀ entry ∈ c.entries, entry.detail.IsString) →
        let again := written.channel.persist e base
        again.outcome = .ok c.entries.length ∧ again.channel = c.clear ∧
          ∃ (current : Option ByteArray) (lines : List String),
            e.node? (logFilePlace (e.homeOf base)) = current.map .file ∧
            lines.map Text.ofString = c.entries.map Diagnostic.line ∧
            again.disk.readBytes (logFile base) = .ok (grown current (String.join lines).toUTF8) := by
  intro written
  refine ⟨fun rooted takes => ⟨persist_fails_iff some_entry rooted takes,
    exists_detail_of_unwritable some_entry rooted takes⟩, fun fault failed onDisk => ?_⟩
  obtain ⟨channel, fails⟩ := failsAt_of_persist failed onDisk
  refine ⟨channel, ?files, fails, ?removed, ?again⟩
  case files =>
    intro place content
    rw [fails.opened_eq]
    exact file_makeDirectories_iff
  case removed =>
    intro rooted plain place e obstacle removed
    rw [fails.opened_eq] at removed
    exact no_obstacle_of_removed removed rooted plain obstacle
  case again =>
    intro e rooted takes free strings again
    have all : ¬ (linesOf c.entries).length < c.entries.length := (length_linesOf strings).not_lt
    obtain ⟨⟨outcome, cleared⟩, current, before, read⟩ :=
      persist_of_no_obstacle some_entry rooted takes free
    rw [if_neg all] at outcome cleared
    simp only [again, channel, written]
    exact ⟨outcome, cleared, current, _, before, lines_of_isString strings, read⟩

theorem removed_blockedDisk : Removed (logPlace .root) blockedDisk bare where
  working := rfl
  gone other within := by
    have below : other ≠ .root := by
      rintro rfl
      cases List.suffix_nil.mp within
    rw [node?, if_neg below]
    rfl
  kept other outside := by
    have elsewhere : other ≠ logPlace .root := by
      rintro rfl
      exact outside (.refl _)
    rw [blockedDisk, node?_put bare (logPlace .root) other _ (child_ne_root _ _), if_neg elsewhere]

/-- A channel with one diagnostic. -/
def oneDiagnostic : Channel := ⟨true, [⟨"12:00", Report.unmappedType, "a.Foo"⟩]⟩

/-- The file is in the way. The diagnostic stays in the channel, and is written once the file is gone. -/
theorem persist_atomic_blockedDisk :
    oneDiagnostic.entries ≠ [] ∧
      (oneDiagnostic.persist blockedDisk .here).outcome = .error .alreadyExists ∧
      Obstacle blockedDisk .here (logPlace .root) ∧
      (oneDiagnostic.persist blockedDisk .here).channel = oneDiagnostic ∧
      Removed (logPlace .root) (oneDiagnostic.persist blockedDisk .here).disk bare ∧
      (oneDiagnostic.persist bare .here).outcome = .ok 1 ∧
      (oneDiagnostic.persist bare .here).disk.readBytes (logFile .here) =
        .ok "12:00 | unmapped-type | a.Foo\n".toUTF8 := by
  have some_entry : oneDiagnostic.entries ≠ [] := List.cons_ne_nil _ _
  have failed : (oneDiagnostic.persist blockedDisk .here).outcome = .error .alreadyExists := by rfl
  have stays : (oneDiagnostic.persist blockedDisk .here).disk = blockedDisk := by rfl
  have takes : TakesLog .here := ⟨by decide, List.forall_mem_nil _⟩
  have rooted : blockedDisk.Rooted .here :=
    ⟨bare_isTree.put rfl (child_ne_root _ _) nofun, rfl⟩
  have file : blockedDisk.node? ((blockedDisk.base .here).reached (logDirectory .here).parts) =
      some (.file "x".toUTF8) := rfl
  have obstacle : Obstacle blockedDisk .here (logPlace .root) := .onTheWay (List.prefix_refl _) file
  have removed : Removed (logPlace .root) (oneDiagnostic.persist blockedDisk .here).disk bare := by
    rw [stays]
    exact removed_blockedDisk
  have strings : ∀ entry ∈ oneDiagnostic.entries, entry.detail.IsString :=
    List.forall_mem_singleton.mpr ⟨"a.Foo", rfl⟩
  obtain ⟨-, fails⟩ := persist_atomic some_entry blockedDisk .here
  obtain ⟨channel, -, -, leavesNone, again⟩ := fails _ failed nofun
  obtain ⟨rootedBare, free⟩ := leavesNone rooted (by decide) _ bare obstacle removed
  obtain ⟨outcome, -, current, lines, before, texts, read⟩ := again bare rootedBare takes free strings
  rw [channel] at outcome read
  have line : oneDiagnostic.entries.map Diagnostic.line =
      ["12:00 | unmapped-type | a.Foo\n"].map Text.ofString := by decide +kernel
  obtain rfl : lines = ["12:00 | unmapped-type | a.Foo\n"] :=
    List.map_injective_iff.mpr (fun _ _ => Text.ofString_inj.mp) (texts.trans line)
  obtain rfl : current = none := by
    cases current with
    | none => rfl
    | some bytes => cases before
  refine ⟨some_entry, failed, obstacle, channel, removed, outcome, read.trans ?_⟩
  rw [String.join_cons, String.join_nil, String.append_empty, grown, keptLog, ite_self,
    Option.getD_none, ByteArray.empty_append]

/-! ## Outside the law -/

/-- A channel with two diagnostics, of which the second cannot be written. -/
def halfWritable : Channel :=
  ⟨true, [⟨"12:00", Report.unmappedType, "a.Foo"⟩, ⟨"12:01", Report.unmappedType, ⟨[.half 0]⟩⟩]⟩

/-- A disk with a log, and with a directory where it would be set aside. -/
def crowdedDisk (log : ByteArray) : Disk :=
  ((bare.put (logPlace .root) .directory).put (logBackupPlace .root) .directory).put
    (logFilePlace .root) (.file log)

theorem crowdedDisk_rooted (log : ByteArray) : (crowdedDisk log).Rooted .here := by
  have folder : (bare.put (logPlace .root) .directory).IsTree :=
    bare_isTree.put rfl (child_ne_root _ _) fun _ => rfl
  have backup : ((bare.put (logPlace .root) .directory).put (logBackupPlace .root) .directory).IsTree :=
    folder.put rfl (child_ne_root _ _) fun _ => rfl
  exact ⟨backup.put rfl (child_ne_root _ _) nofun, rfl⟩

/-- A log that is too large cannot be set aside there, and the channel stays as it is. -/
theorem persist_crowdedDisk {c : Channel} (some_entry : c.entries ≠ []) {log : ByteArray}
    (large : logSizeLimit < log.size) :
    ∃ fault, (c.persist (crowdedDisk log) .here).outcome = .error fault ∧ fault ≠ .unwritable ∧
      (c.persist (crowdedDisk log) .here).channel = c := by
  have takes : TakesLog .here := ⟨by decide, List.forall_mem_nil _⟩
  have obstacle : Obstacle (crowdedDisk log) .here (logBackupPlace .root) :=
    .inPlaceOfBackup rfl rfl large rfl
  obtain ⟨fault, failed, onDisk⟩ :=
    persist_of_obstacle some_entry (crowdedDisk_rooted log) takes obstacle
  exact ⟨fault, failed, onDisk, (failsAt_of_persist failed onDisk).1⟩

/-- A log of one byte more than a log may have. -/
def largeLog : ByteArray := ⟨Array.replicate (logSizeLimit + 1) 120⟩

theorem size_largeLog : largeLog.size = logSizeLimit + 1 := Array.size_replicate

/-- Without strings, the law does not hold: the diagnostic in front of one that cannot be written is in
the log, and that one cannot be written after an obstacle is gone either. Nor is a diagnostic always
read back as it was. If a log that cannot be set aside is made small, it is added to, and if its last
line is unfinished, the diagnostic goes on with it. -/
theorem persist_not_atomic :
    ((halfWritable.persist bare .here).outcome = .error .unwritable ∧ bare.readLog .here = .ok [] ∧
      (halfWritable.persist bare .here).disk.readLog .here =
        .ok [⟨"12:00", Report.unmappedType, "a.Foo"⟩]) ∧
    ((halfWritable.persist blockedDisk .here).outcome = .error .alreadyExists ∧
      Removed (logPlace .root) (halfWritable.persist blockedDisk .here).disk bare ∧
      ((halfWritable.persist blockedDisk .here).channel.persist bare .here).outcome =
        .error .unwritable) ∧
    (∃ fault, (oneDiagnostic.persist (crowdedDisk largeLog) .here).outcome = .error fault ∧
      fault ≠ .unwritable ∧
      (oneDiagnostic.persist (crowdedDisk largeLog) .here).channel = oneDiagnostic) ∧
    (oneDiagnostic.persist (crowdedDisk "x".toUTF8) .here).outcome = .ok 1 ∧
    (oneDiagnostic.persist (crowdedDisk "x".toUTF8) .here).disk.readLog .here =
      .ok [⟨"x12:00", Report.unmappedType, "a.Foo"⟩] := by
  have large : logSizeLimit < largeLog.size := Nat.lt_of_lt_of_eq (Nat.lt_succ_self _) size_largeLog.symm
  have stays : (halfWritable.persist blockedDisk .here).disk = blockedDisk := by rfl
  refine ⟨⟨by decide +kernel, by decide +kernel, by decide +kernel⟩,
    ⟨by rfl, ?_, by decide +kernel⟩, persist_crowdedDisk (List.cons_ne_nil _ _) large,
    by decide +kernel, by decide +kernel⟩
  rw [stays]
  exact removed_blockedDisk

end Disk

end HostDecl
