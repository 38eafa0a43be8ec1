import HostDecl.Proofs.Echo
import HostDecl.Proofs.MadeDirectories

/-!
# Obstacles to a log

Writing a log takes steps: its directory is made, a log that is too large is set aside in place of the one
set aside before, and lines are added. Each of them can fail.

- `failsAt_of_persist`: where writing fails, it does so before any file has changed. The log set aside
  before is the first file to go, and it goes only if it and the log are files in one directory; then no
  step behind it can fail (`LogFolder.rotateLog`, `LogFolder.persist`).
- `persist_fails_iff`: writing fails exactly if there is an obstacle, which is a file where a directory
  should be or a directory where a file should be. A directory in place of the log set aside is in the way
  only of a log that is too large.

That writing fails is said of faults of the disk. A text that cannot be written is a fault of its own
(`unwritable`), which no log of strings meets (`exists_detail_of_unwritable`).
-/

namespace HostDecl

/-! ## Paths that the system takes -/

theorem utf8ByteSize_intercalate_concat (parts : List String) (name : String) :
    ("/".intercalate parts).utf8ByteSize ≤ ("/".intercalate (parts ++ [name])).utf8ByteSize := by
  induction parts with
  | nil => exact Nat.zero_le _
  | cons part rest ih =>
    cases rest with
    | nil =>
      rw [List.cons_append, List.nil_append, String.intercalate_cons_cons, String.intercalate_singleton,
        String.utf8ByteSize_append, String.utf8ByteSize_append]
      omega
    | cons other rest =>
      rw [List.cons_append, List.cons_append, String.intercalate_cons_cons, String.intercalate_cons_cons,
        String.utf8ByteSize_append, String.utf8ByteSize_append, String.utf8ByteSize_append,
        String.utf8ByteSize_append]
      rw [List.cons_append] at ih
      omega

theorem Path.text_child (p : Path) (name : String) :
    (p.child name).text =
      String.ofList (List.replicate p.slashes '/') ++ "/".intercalate (p.parts ++ [name]) := by
  rw [text, if_neg]
  · rfl
  · rintro ⟨-, nothing⟩
    exact List.append_ne_nil_of_right_ne_nil p.parts (List.cons_ne_nil name []) nothing

/-- The text of a path is no longer than with a part more. -/
theorem Path.utf8ByteSize_text_child (p : Path) {name : String} (some_char : name ≠ "") :
    p.text.utf8ByteSize ≤ (p.child name).text.utf8ByteSize := by
  rw [text_child, text, String.utf8ByteSize_append]
  split
  next here =>
    have least : 0 < name.utf8ByteSize :=
      Nat.pos_of_ne_zero (mt String.utf8ByteSize_eq_zero_iff.mp some_char)
    rw [here.2, List.nil_append, String.intercalate_singleton]
    exact Nat.le_add_left_of_le least
  next =>
    rw [String.utf8ByteSize_append]
    exact Nat.add_le_add_left (utf8ByteSize_intercalate_concat p.parts name) _

namespace Disk

/-- A path that is taken with a part more is taken without it. -/
theorem pathFault?_of_child {p : Path} {name : String} (some_char : name ≠ "")
    (fine : pathFault? (p.child name) = none) : pathFault? p = none := by
  have length := p.utf8ByteSize_text_child some_char
  unfold pathFault? at fine ⊢
  split at fine
  next => cases fine
  next plain =>
    split at fine
    next => cases fine
    next short =>
      rw [if_neg, if_neg (by omega)]
      intro inside
      refine plain ?_
      rw [Path.child, List.any_append, inside, Bool.true_or]

/-! ## Steps that fail -/

section

variable {d : Disk} {base : Path}

theorem pathFault?_of_locate {p : Path} {place : Location} (found : d.locate p = .ok place) :
    pathFault? p = none := by
  unfold locate at found
  split at found
  next => cases found
  next fine => exact fine

theorem locate_of_readBytes {p : Path} {bytes : ByteArray} (read : d.readBytes p = .ok bytes) :
    ∃ place, d.locate p = .ok place ∧ d.node? place = some (.file bytes) := by
  unfold readBytes at read
  split at read
  next => cases read
  next place found =>
    split at read
    next => cases read
    next => cases read
    next content node =>
      cases read
      exact ⟨place, found, node⟩

theorem locate_of_unlink {p : Path} {removed : Disk} (unlinks : d.unlink p = .ok removed) :
    ∃ place bytes, d.locate p = .ok place ∧ d.node? place = some (.file bytes) := by
  unfold unlink at unlinks
  split at unlinks
  next => cases unlinks
  next place found =>
    split at unlinks
    next => cases unlinks
    next => cases unlinks
    next content node => exact ⟨place, content, found, node⟩

/-- A file whose size is known can be read. -/
theorem readBytes_of_fileSize {p : Path} {size : Nat} (large : size < d.fileSize p) :
    ∃ bytes, d.readBytes p = .ok bytes := by
  unfold fileSize at large
  cases read : d.readBytes p with
  | ok bytes => exact ⟨bytes, rfl⟩
  | error fault =>
    rw [read] at large
    exact absurd large (Nat.not_lt_zero size)

/-- A name leads on only from a directory. -/
theorem directory_of_follow {place goal : Location} {part : String} {behind : List String}
    (name : part ≠ "..") (found : d.follow place (part :: behind) = .ok goal) :
    d.node? place = some .directory ∧ d.follow (place.child part) behind = .ok goal := by
  rw [follow] at found
  split at found
  next => cases found
  next => cases found
  next directory =>
    rw [if_neg name] at found
    split at found
    next => cases found
    next => exact ⟨directory, found⟩

/-- What a path into the directory of a log goes through. -/
theorem home_of_locate {name : String} {place : Location} (plain : name ≠ "..")
    (found : d.locate ((logDirectory base).child name) = .ok place) :
    ∃ home, d.follow (d.base base) base.parts = .ok home ∧ d.node? home = some .directory ∧
      d.node? (logPlace home) = some .directory ∧ place = (logPlace home).child name := by
  rw [locate, pathFault?_of_locate found, child_logDirectory] at found
  dsimp only at found
  rw [follow_append] at found
  change (d.follow (d.base base) base.parts).bind
    (fun place => d.follow place [logDirectoryName, name]) = .ok place at found
  cases leads : d.follow (d.base base) base.parts with
  | error fault =>
    rw [leads] at found
    cases found
  | ok home =>
    rw [leads] at found
    obtain ⟨directory, inside⟩ := directory_of_follow (by decide) found
    obtain ⟨folder, last⟩ := directory_of_follow plain inside
    cases last
    exact ⟨home, rfl, directory, folder, rfl⟩

/-- A log file that is there is in the directory of a log, and so is a log set aside. -/
theorem logHome_of_locate {file aside : Location} (fine : pathFault? (logDirectory base) = none)
    (current : d.locate (logFile base) = .ok file) (backup : d.locate (logBackup base) = .ok aside) :
    ∃ home, LogHome d base home ∧ d.node? (logPlace home) = some .directory ∧
      file = logFilePlace home ∧ aside = logBackupPlace home := by
  obtain ⟨home, leads, directory, folder, filePlace⟩ := home_of_locate (by decide) current
  obtain ⟨other, again, -, -, backupPlace⟩ := home_of_locate (by decide) backup
  cases leads.symm.trans again
  have leads : d.locate base = .ok home := by
    rw [locate, pathFault?_of_child (by decide) fine]
    exact leads
  have paths : ∀ p ∈ [logDirectory base, logFile base, logBackup base], pathFault? p = none := by
    simp only [List.forall_mem_cons]
    exact ⟨fine, pathFault?_of_locate current, pathFault?_of_locate backup, List.forall_mem_nil _⟩
  exact ⟨home, ⟨leads, directory, paths⟩, folder, filePlace, backupPlace⟩

/-- A log that is too large and has nothing but a file in the way of setting it aside is set aside, and
then written to. -/
theorem logFolder_of_unlink {removed : Disk} (fine : pathFault? (logDirectory base) = none)
    (large : logSizeLimit < d.fileSize (logFile base))
    (unlinks : d.unlink (logBackup base) = .ok removed) :
    ∃ home bytes aside, LogFolder d base home (some bytes) (some aside) := by
  obtain ⟨bytes, read⟩ := readBytes_of_fileSize large
  obtain ⟨_, current, currentNode⟩ := locate_of_readBytes read
  obtain ⟨_, aside, backup, backupNode⟩ := locate_of_unlink unlinks
  obtain ⟨home, there, folder, rfl, rfl⟩ := logHome_of_locate fine current backup
  exact ⟨home, bytes, aside, there, folder, currentNode, backupNode⟩

/-- A log that was set aside was a file, in whose way nothing but a file was. -/
theorem logFolder_of_rotateLog {rotated : Disk} (fine : pathFault? (logDirectory base) = none)
    (large : logSizeLimit < d.fileSize (logFile base)) (rotates : d.rotateLog base = .ok rotated) :
    ∃ home bytes aside, LogFolder d base home (some bytes) aside := by
  rw [rotateLog, if_neg (Nat.not_le_of_lt large)] at rotates
  split at rotates
  next => cases rotates
  next absent =>
    obtain ⟨bytes, read⟩ := readBytes_of_fileSize large
    obtain ⟨_, current, currentNode⟩ := locate_of_readBytes read
    rw [rename, read] at rotates
    cases backup : d.locate (logBackup base) with
    | error fault =>
      rw [backup] at rotates
      cases rotates
    | ok place =>
      obtain ⟨home, there, folder, rfl, rfl⟩ := logHome_of_locate fine current backup
      rw [pathExists, backup] at absent
      have free : d.node? (logBackupPlace home) = none :=
        Option.isSome_eq_false_iff.mp (Except.ok.inj absent) |> Option.isNone_iff_eq_none.mp
      exact ⟨home, bytes, none, there, folder, currentNode, free⟩
  next =>
    split at rotates
    next => cases rotates
    next removed unlinks =>
      obtain ⟨home, bytes, aside, folder⟩ := logFolder_of_unlink fine large unlinks
      exact ⟨home, bytes, some aside, folder⟩

end

/-- The step at which writing a log fails, after directories were made and before any file was changed:
making the directories; setting aside a log that is too large, of which the log set aside before is not
removed; or adding lines to a log that is not set aside. -/
inductive FailsAt (d : Disk) (base : Path) (lines : ByteArray) (opened : Disk) (fault : FileFault) : Prop
  | making (made : d.makeDirectories (logDirectory base) = (opened, some fault))
  | settingAside (made : d.makeDirectories (logDirectory base) = (opened, none))
    (fails : opened.rotateLog base = .error fault)
    (kept : ∀ removed, opened.unlink (logBackup base) ≠ .ok removed)
  | adding (made : d.makeDirectories (logDirectory base) = (opened, none))
    (stays : opened.fileSize (logFile base) ≤ logSizeLimit)
    (fails : opened.append (logFile base) lines = .error fault)

/-- **No step fails behind one that changes a file.** Where writing a log fails, it is at a step before
which nothing was done but directories made; the channel is as it was. -/
theorem failsAt_of_persist {c : Channel} {d : Disk} {base : Path} {fault : FileFault}
    (failed : (c.persist d base).outcome = .error fault) (onDisk : fault ≠ .unwritable) :
    (c.persist d base).channel = c ∧
      FailsAt d base (String.join (linesOf c.entries)).toUTF8 (c.persist d base).disk fault := by
  have some_entry : c.entries ≠ [] := by
    intro nothing
    rw [persist_of_nil nothing] at failed
    cases failed
  cases made : d.makeDirectories (logDirectory base) with
  | mk opened stop =>
    cases stop with
    | some stop =>
      simp only [Channel.persist, if_neg some_entry, made] at failed ⊢
      cases failed
      exact ⟨trivial, .making made⟩
    | none =>
      have fine := pathFault?_of_makeDirectories made
      -- With files in both places, or none, writing fails for no other reason than the lines.
      have noFolder : ∀ home current aside, ¬ LogFolder opened base home current aside := by
        intro home current aside folder
        have outcome := (folder.persist some_entry made).2.1
        rw [failed] at outcome
        split at outcome
        next =>
          cases outcome
          exact onDisk rfl
        next => cases outcome
      simp only [Channel.persist, if_neg some_entry, made] at failed ⊢
      by_cases small : opened.fileSize (logFile base) ≤ logSizeLimit
      · have stays : opened.rotateLog base = .ok opened := by rw [rotateLog, if_pos small]
        rw [stays] at failed ⊢
        dsimp only at failed ⊢
        cases adds : opened.append (logFile base) (String.join (linesOf c.entries)).toUTF8 with
        | error stop =>
          rw [adds] at failed
          cases failed
          exact ⟨rfl, .adding made small adds⟩
        | ok grown =>
          rw [adds] at failed
          dsimp only at failed
          split at failed
          next =>
            cases failed
            exact absurd rfl onDisk
          next => cases failed
      · have large := Nat.lt_of_not_le small
        cases rotates : opened.rotateLog base with
        | error stop =>
          rw [rotates] at failed
          cases failed
          refine ⟨rfl, .settingAside made rotates fun removed unlinks => ?_⟩
          obtain ⟨home, bytes, aside, folder⟩ := logFolder_of_unlink fine large unlinks
          exact noFolder _ _ _ folder
        | ok rotated =>
          obtain ⟨home, bytes, aside, folder⟩ := logFolder_of_rotateLog fine large rotates
          exact absurd folder (noFolder _ _ _)

/-! ## Obstacles -/

/-- The place that the base path of a log reaches. -/
def homeOf (d : Disk) (base : Path) : Location := (d.base base).reached base.parts

/-- The paths of a log are ones that the system takes. -/
structure TakesLog (base : Path) : Prop where
  paths : ∀ p ∈ [logDirectory base, logFile base, logBackup base], pathFault? p = none
  names : ∀ part ∈ base.parts, part.utf8ByteSize ≤ nameLimit

/-- A place where something stands that a log cannot be written past: a file where a directory should be,
a directory in place of the log, or, if the log is too large, one in place of the log set aside. -/
inductive Obstacle (d : Disk) (base : Path) : Location → Prop
  | onTheWay {front : List String} {content : ByteArray} (before : front <+: (logDirectory base).parts)
    (file : d.node? ((d.base base).reached front) = some (.file content)) :
    Obstacle d base ((d.base base).reached front)
  | inPlaceOfLog {opened : Disk} (made : d.makeDirectories (logDirectory base) = (opened, none))
    (directory : opened.node? (logFilePlace (d.homeOf base)) = some .directory) :
    Obstacle d base (logFilePlace (d.homeOf base))
  | inPlaceOfBackup {opened : Disk} {content : ByteArray}
    (made : d.makeDirectories (logDirectory base) = (opened, none))
    (file : opened.node? (logFilePlace (d.homeOf base)) = some (.file content))
    (large : logSizeLimit < content.size)
    (directory : opened.node? (logBackupPlace (d.homeOf base)) = some .directory) :
    Obstacle d base (logBackupPlace (d.homeOf base))

section

variable {d opened : Disk} {base : Path}

theorem TakesLog.short (takes : TakesLog base) :
    ∀ part ∈ (logDirectory base).parts, part.utf8ByteSize ≤ nameLimit := by
  rw [logDirectory, Path.child, List.forall_mem_append, List.forall_mem_singleton]
  exact ⟨takes.names, by decide⟩

theorem TakesLog.directory (takes : TakesLog base) : pathFault? (logDirectory base) = none :=
  takes.paths _ List.mem_cons_self

theorem reached_logDirectory (d : Disk) (base : Path) :
    (d.base base).reached (logDirectory base).parts = logPlace (d.homeOf base) := by
  rw [logDirectory, Path.child, Location.reached, List.foldl_append]
  rfl

/-- The directory of a log, once it is made. -/
theorem logHome_of_makeDirectories (rooted : d.Rooted base) (takes : TakesLog base)
    (made : d.makeDirectories (logDirectory base) = (opened, none)) :
    LogHome opened base (d.homeOf base) ∧
      opened.node? (logPlace (d.homeOf base)) = some .directory := by
  have parts : d.makeDirectoriesFrom (d.base base) (logDirectory base).parts = (opened, none) := by
    rw [makeDirectories, takes.directory] at made
    exact made
  obtain ⟨follows, fronts⟩ := opened_of_makeDirectoriesFrom rooted.tree rooted.origin parts
  have working : opened.base base = d.base base := by
    rw [Disk.base, Disk.base, ← working_makeDirectoriesFrom d (d.base base) (logDirectory base).parts,
      parts]
  have home := fronts base.parts (List.prefix_append _ _)
  have folder := fronts _ (List.prefix_refl _)
  rw [reached_logDirectory] at folder
  refine ⟨⟨?_, home, takes.paths⟩, folder⟩
  rw [locate, pathFault?_of_child (by decide) takes.directory]
  dsimp only
  rw [working]
  rw [logDirectory, Path.child, follow_append] at follows
  cases leads : opened.follow (d.base base) base.parts with
  | error fault =>
    rw [leads] at follows
    cases follows
  | ok place => rw [eq_reached_of_follow leads, homeOf]

theorem exists_content {place : Location} (plain : d.node? place ≠ some .directory) :
    ∃ content : Option ByteArray, d.node? place = content.map .file := by
  cases node : d.node? place with
  | none => exact ⟨none, rfl⟩
  | some found =>
    cases found with
    | file content => exact ⟨some content, rfl⟩
    | directory => exact absurd node plain

/-- A file that is put where no directory is can be read. -/
theorem readBytes_put {p : Path} {place : Location} (found : d.locate p = .ok place)
    (below : place ≠ .root) (plain : d.node? place ≠ some .directory) (bytes : ByteArray) :
    (d.put place (.file bytes)).readBytes p = .ok bytes := by
  have put := fun other => node?_put d place other (.file bytes) below
  have directories : ∀ other, d.node? other = some .directory →
      (d.put place (.file bytes)).node? other = some .directory := by
    intro other directory
    rw [put, if_neg, directory]
    rintro rfl
    exact plain directory
  have leads := locate_mono (d := d) (e := d.put place (.file bytes)) rfl directories found
  have node : (d.put place (.file bytes)).node? place = (some bytes).map .file := by
    rw [put, if_pos rfl]
    rfl
  exact readBytes_of_locate leads node

/-- A log that is not too large gets the lines, whatever stands in place of the log set aside. -/
theorem persist_of_small {c : Channel} {home : Location} {current : Option ByteArray}
    (some_entry : c.entries ≠ []) (made : d.makeDirectories (logDirectory base) = (opened, none))
    (there : LogHome opened base home) (folder : opened.node? (logPlace home) = some .directory)
    (node : opened.node? (logFilePlace home) = current.map .file)
    (small : contentSize current ≤ logSizeLimit) :
    let lines := linesOf c.entries
    let written := c.persist d base
    written.outcome =
        (if lines.length < c.entries.length then .error .unwritable else .ok c.entries.length) ∧
      written.channel = (if lines.length < c.entries.length then c else c.clear) ∧
      written.disk.readBytes (logFile base) = .ok (grown current (String.join lines).toUTF8) := by
  intro lines written
  have size : opened.fileSize (logFile base) = contentSize current := by
    rw [fileSize, readBytes_of_locate (there.locate_file folder) node]
    cases current <;> rfl
  have stays : opened.rotateLog base = .ok opened := by rw [rotateLog, size, if_pos small]
  have parent : opened.node? (logFilePlace home).parent = some .directory := by
    rw [logFilePlace, Location.parent_child, folder]
  have kept : current.getD .empty ++ (String.join lines).toUTF8 =
      grown current (String.join lines).toUTF8 := by
    rw [grown, keptLog, if_neg (Nat.not_lt.mpr small)]
  have adds := append_of_locate (there.locate_file folder) node parent (String.join lines).toUTF8
  rw [kept] at adds
  have noDirectory : opened.node? (logFilePlace home) ≠ some .directory := by
    intro directory
    cases current with
    | none => cases node.symm.trans directory
    | some => cases node.symm.trans directory
  have read := readBytes_put (there.locate_file folder) (child_ne_root _ _) noDirectory
    (grown current (String.join lines).toUTF8)
  simp only [written, Channel.persist, if_neg some_entry, made, stays]
  rw [adds]
  dsimp only
  split
  · exact ⟨rfl, rfl, read⟩
  · exact ⟨rfl, rfl, read⟩

/-- Without an obstacle, the lines that can be written are added to the log. -/
theorem persist_of_no_obstacle {c : Channel} (some_entry : c.entries ≠ []) (rooted : d.Rooted base)
    (takes : TakesLog base) (free : ∀ place, ¬ Obstacle d base place) :
    let lines := linesOf c.entries
    let written := c.persist d base
    (written.outcome =
        (if lines.length < c.entries.length then .error .unwritable else .ok c.entries.length) ∧
      written.channel = if lines.length < c.entries.length then c else c.clear) ∧
      ∃ current, d.node? (logFilePlace (d.homeOf base)) = current.map .file ∧
        written.disk.readBytes (logFile base) = .ok (grown current (String.join lines).toUTF8) := by
  intro lines written
  have rootedLog : d.Rooted (logDirectory base) := ⟨rooted.tree, rooted.origin⟩
  have all := (makeDirectories_eq_none_iff rootedLog takes.directory takes.short).mpr
    fun front content before file => free _ (.onTheWay before file)
  obtain ⟨opened, made⟩ : ∃ opened, d.makeDirectories (logDirectory base) = (opened, none) :=
    ⟨_, Prod.ext rfl all⟩
  obtain ⟨there, folder⟩ := logHome_of_makeDirectories rooted takes made
  obtain ⟨current, node⟩ := exists_content fun directory => free _ (.inPlaceOfLog made directory)
  have before : d.node? (logFilePlace (d.homeOf base)) = current.map .file := by
    refine node?_of_makeDirectories (p := logDirectory base) ?_
    rw [made, node]
  by_cases backup : opened.node? (logBackupPlace (d.homeOf base)) = some .directory
  · have small : contentSize current ≤ logSizeLimit := by
      by_contra large
      cases current with
      | none => exact large (Nat.zero_le _)
      | some bytes => exact free _ (.inPlaceOfBackup made node (Nat.lt_of_not_le large) backup)
    obtain ⟨outcome, channel, read⟩ := persist_of_small some_entry made there folder node small
    exact ⟨⟨outcome, channel⟩, current, before, read⟩
  · obtain ⟨aside, asideNode⟩ := exists_content backup
    have inFolder : LogFolder opened base (d.homeOf base) current aside :=
      ⟨there, folder, node, asideNode⟩
    obtain ⟨after, outcome, channel⟩ := inFolder.persist some_entry made
    exact ⟨⟨outcome, channel⟩, current, before, (HasLog.present after).readBytes_file⟩

/-- No file can be worked with where a directory is. -/
theorem isADirectory_of_locate {p : Path} {place : Location} (found : d.locate p = .ok place)
    (directory : d.node? place = some .directory) :
    d.readBytes p = .error .isADirectory ∧ d.pathExists p = .ok true ∧
      d.unlink p = .error .isADirectory ∧ ∀ bytes, d.append p bytes = .error .isADirectory := by
  refine ⟨?_, ?_, ?_, fun bytes => ?_⟩
  · rw [readBytes, found]
    dsimp only
    rw [directory]
  · rw [pathExists, found]
    dsimp only
    rw [directory]
    rfl
  · rw [unlink, found]
    dsimp only
    rw [directory]
  · rw [append, found]
    dsimp only
    rw [directory]

/-- With an obstacle, writing fails. -/
theorem persist_of_obstacle {c : Channel} {place : Location} (some_entry : c.entries ≠ [])
    (rooted : d.Rooted base) (takes : TakesLog base) (obstacle : Obstacle d base place) :
    ∃ fault, (c.persist d base).outcome = .error fault ∧ fault ≠ .unwritable := by
  cases obstacle with
  | onTheWay before file =>
    have rootedLog : d.Rooted (logDirectory base) := ⟨rooted.tree, rooted.origin⟩
    have blocked : (d.makeDirectories (logDirectory base)).2 ≠ none := fun all =>
      (makeDirectories_eq_none_iff rootedLog takes.directory takes.short).mp all _ _ before file
    have onDisk : (d.makeDirectories (logDirectory base)).2 ≠ some .unwritable := by
      rw [makeDirectories, takes.directory]
      exact makeDirectoriesFrom_ne_unwritable
    cases made : d.makeDirectories (logDirectory base) with
    | mk opened stop =>
      rw [made] at blocked onDisk
      cases stop with
      | none => exact absurd rfl blocked
      | some fault =>
        refine ⟨fault, ?_, fun same => onDisk (congrArg some same)⟩
        simp only [Channel.persist, if_neg some_entry, made]
  | inPlaceOfLog made directory =>
    obtain ⟨there, folder⟩ := logHome_of_makeDirectories rooted takes made
    obtain ⟨unread, -, -, blocked⟩ := isADirectory_of_locate (there.locate_file folder) directory
    refine ⟨.isADirectory, ?_, FileFault.noConfusion⟩
    simp only [Channel.persist, if_neg some_entry, made, rotateLog, fileSize, unread, Nat.zero_le,
      if_true, blocked]
  | inPlaceOfBackup made file large directory =>
    obtain ⟨there, folder⟩ := logHome_of_makeDirectories rooted takes made
    have read := readBytes_of_locate (there.locate_file folder)
      (show _ = Option.map Node.file (some _) from file)
    obtain ⟨-, present, blocked, -⟩ := isADirectory_of_locate (there.locate_backup folder) directory
    refine ⟨.isADirectory, ?_, FileFault.noConfusion⟩
    simp only [Channel.persist, if_neg some_entry, made, rotateLog, fileSize, read, Option.elim_some,
      if_neg (Nat.not_le_of_lt large), present, blocked]

/-- **Writing fails exactly where there is an obstacle.** -/
theorem persist_fails_iff {c : Channel} (some_entry : c.entries ≠ []) (rooted : d.Rooted base)
    (takes : TakesLog base) :
    (∃ fault, (c.persist d base).outcome = .error fault ∧ fault ≠ .unwritable) ↔
      ∃ place, Obstacle d base place := by
  constructor
  · rintro ⟨fault, failed, onDisk⟩
    by_contra none
    obtain ⟨⟨outcome, -⟩, -⟩ := persist_of_no_obstacle some_entry rooted takes (not_exists.mp none)
    rw [failed] at outcome
    split at outcome
    next =>
      cases outcome
      exact onDisk rfl
    next => cases outcome
  · rintro ⟨place, obstacle⟩
    exact persist_of_obstacle some_entry rooted takes obstacle

/-- The one other failure is that of a detail which is no string. -/
theorem exists_detail_of_unwritable {c : Channel} (some_entry : c.entries ≠ []) (rooted : d.Rooted base)
    (takes : TakesLog base) (stopped : (c.persist d base).outcome = .error .unwritable) :
    ∃ entry ∈ c.entries, ¬ entry.detail.IsString := by
  by_contra! strings
  by_cases free : ∀ place, ¬ Obstacle d base place
  · have outcome := (persist_of_no_obstacle some_entry rooted takes free).1.1
    rw [stopped, if_neg (length_linesOf strings).not_lt] at outcome
    cases outcome
  · obtain ⟨place, obstacle⟩ := not_forall_not.mp free
    obtain ⟨fault, failed, onDisk⟩ := persist_of_obstacle some_entry rooted takes obstacle
    cases stopped.symm.trans failed
    exact onDisk rfl

end

end Disk

end HostDecl
