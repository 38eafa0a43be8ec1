import HostDecl.Diagnostic.Log

/-!
# The log on the disk

The disk is looked at through the paths of the log alone: `HasLog` says what the log file and the log
set aside hold, if they are there. Each operation on the log is one equation about these two contents.

- `HasLog.persist`: writing a log that holds something adds its lines, or makes the log anew and sets the
  old one aside, by the size of the log alone;
- `HasLog.readLog`: what is read depends on the log file only.

What the base path goes through, and whatever else there is on the disk, is settled once: an operation on
the two files takes no directory away, so the base path leads where it led (`locate_mono`).
-/

namespace HostDecl

namespace Disk

/-! ## Following paths -/

/-- Whatever stands on the disk stands in a directory. -/
def IsTree (d : Disk) : Prop :=
  ∀ place node, d.node? place = some node → d.node? place.parent = some .directory

theorem follow_append (d : Disk) (origin : Location) (front behind : List String) :
    d.follow origin (front ++ behind) =
      (d.follow origin front).bind fun place => d.follow place behind := by
  induction front generalizing origin with
  | nil => rfl
  | cons part rest ih =>
    rw [List.cons_append]
    simp only [follow]
    cases d.node? origin with
    | none => rfl
    | some node =>
      cases node with
      | file content => rfl
      | directory =>
        dsimp only
        split
        · exact ih _
        · split
          · rfl
          · exact ih _

/-- A part below a directory leads to the place of its name. -/
theorem follow_child {d : Disk} {place : Location} {part : String}
    (directory : d.node? place = some .directory) (name : part ≠ "..")
    (short : part.utf8ByteSize ≤ nameLimit) (behind : List String) :
    d.follow place (part :: behind) = d.follow (place.child part) behind := by
  rw [follow, directory]
  dsimp only
  rw [if_neg name, if_neg (Nat.not_lt.mpr short)]

/-- Where parts lead, they lead on a disk with the same directories and more. -/
theorem follow_mono {d e : Disk}
    (directories : ∀ place, d.node? place = some .directory → e.node? place = some .directory)
    {origin place : Location} {parts : List String} (found : d.follow origin parts = .ok place) :
    e.follow origin parts = .ok place := by
  induction parts generalizing origin with
  | nil => exact found
  | cons part rest ih =>
    rw [follow] at found ⊢
    split at found
    next => cases found
    next => cases found
    next directory =>
      rw [directories _ directory]
      dsimp only
      split at found
      next up =>
        rw [if_pos up]
        exact ih found
      next down =>
        rw [if_neg down]
        split at found
        next => cases found
        next short =>
          rw [if_neg short]
          exact ih found

/-- Directories that are there are not made again. -/
theorem makeDirectoriesFrom_append {d : Disk} {origin place : Location} {parts : List String}
    (found : d.follow origin parts = .ok place) (directory : d.node? place = some .directory)
    (rest : List String) :
    d.makeDirectoriesFrom origin (parts ++ rest) = d.makeDirectoriesFrom place rest := by
  induction parts generalizing origin with
  | nil =>
    cases found
    rfl
  | cons part others ih =>
    rw [follow] at found
    rw [List.cons_append, makeDirectoriesFrom]
    split at found
    next => cases found
    next => cases found
    next =>
      split at found
      next up =>
        rw [if_pos up]
        exact ih found
      next down =>
        rw [if_neg down]
        split at found
        next => cases found
        next short =>
          -- the next place is a directory, because it is gone through or the last one
          have next : d.node? (origin.child part) = some .directory := by
            cases others with
            | nil =>
              cases found
              exact directory
            | cons second more =>
              have through := found
              rw [follow] at through
              split at through
              next => cases through
              next => cases through
              next there => exact there
          rw [if_neg short]
          dsimp only
          rw [next]
          exact ih found

theorem locate_mono {d e : Disk} (working : e.working = d.working)
    (directories : ∀ place, d.node? place = some .directory → e.node? place = some .directory)
    {p : Path} {place : Location} (found : d.locate p = .ok place) : e.locate p = .ok place := by
  unfold locate at found ⊢
  split at found
  next => cases found
  next fine =>
    have origin : e.base p = d.base p := by rw [base, base, working]
    rw [origin]
    exact follow_mono directories found

/-! ## Files at a place -/

section

variable {d : Disk} {p : Path} {place : Location} {content : Option ByteArray}

theorem readBytes_of_locate (found : d.locate p = .ok place)
    (node : d.node? place = content.map .file) :
    d.readBytes p = content.elim (.error .notFound) .ok := by
  rw [readBytes, found]
  dsimp only
  rw [node]
  cases content <;> rfl

theorem pathExists_of_locate (found : d.locate p = .ok place)
    (node : d.node? place = content.map .file) : d.pathExists p = .ok content.isSome := by
  rw [pathExists, found]
  dsimp only
  rw [node, Option.isSome_map]

theorem unlink_of_locate {bytes : ByteArray} (found : d.locate p = .ok place)
    (node : d.node? place = some (.file bytes)) : d.unlink p = .ok (d.erase place) := by
  rw [unlink, found]
  dsimp only
  rw [node]

theorem append_of_locate (found : d.locate p = .ok place)
    (node : d.node? place = content.map .file) (parent : d.node? place.parent = some .directory)
    (bytes : ByteArray) :
    d.append p bytes = .ok (d.put place (.file (content.getD .empty ++ bytes))) := by
  rw [append, found]
  dsimp only
  rw [node]
  cases content with
  | some before => rfl
  | none =>
    dsimp only [Option.map_none]
    rw [parent]
    dsimp only
    rw [Option.getD_none, ByteArray.empty_append]

theorem rename_of_locate {source target : Path} {origin goal : Location} {bytes : ByteArray}
    (found : d.locate source = .ok origin) (node : d.node? origin = some (.file bytes))
    (leads : d.locate target = .ok goal) (free : d.node? goal = content.map .file) :
    d.rename source target = .ok ((d.erase origin).put goal (.file bytes)) := by
  have held : d.node? origin = (some bytes).map .file := node
  have read : d.readBytes source = .ok bytes := readBytes_of_locate found held
  rw [rename, read, leads]
  dsimp only
  rw [free]
  cases content <;> dsimp only [Option.map_none, Option.map_some] <;>
    rw [unlink_of_locate found node]

end

/-! ## The places of a log -/

/-- The place of the directory of a log. -/
def logPlace (home : Location) : Location := home.child logDirectoryName

/-- The place of the log file. -/
def logFilePlace (home : Location) : Location := (logPlace home).child logFileName

/-- The place of the log that was set aside. -/
def logBackupPlace (home : Location) : Location := (logPlace home).child (logFileName ++ ".1")

theorem child_ne_root (place : Location) (name : String) : place.child name ≠ .root := by
  intro same
  cases congrArg Location.names same

theorem logBackupPlace_ne_logFilePlace (home : Location) : logBackupPlace home ≠ logFilePlace home := by
  intro same
  have names := (List.cons.inj (congrArg Location.names same)).1
  revert names
  decide

/-- A base path leads to a directory, and the paths of a log in it are ones that the system takes. -/
structure LogHome (d : Disk) (base : Path) (home : Location) : Prop where
  leads : d.locate base = .ok home
  directory : d.node? home = some .directory
  paths : ∀ p ∈ [logDirectory base, logFile base, logBackup base], pathFault? p = none

/-- The directory of a log is there, with what the log and the log set aside hold. -/
structure LogFolder (d : Disk) (base : Path) (home : Location) (current aside : Option ByteArray) :
    Prop extends LogHome d base home where
  folder : d.node? (logPlace home) = some .directory
  current : d.node? (logFilePlace home) = current.map .file
  aside : d.node? (logBackupPlace home) = aside.map .file

/-- What the log and the log set aside hold; nothing where they are missing, be it with their
directory. -/
inductive HasLog (d : Disk) (base : Path) : Option ByteArray → Option ByteArray → Prop
  | missing {home : Location} (there : LogHome d base home)
      (folder : d.node? (logPlace home) = none) (current : d.node? (logFilePlace home) = none)
      (aside : d.node? (logBackupPlace home) = none) : HasLog d base none none
  | present {home : Location} {current aside : Option ByteArray}
      (there : LogFolder d base home current aside) : HasLog d base current aside

/-! ## Operations on the files of a log -/

/-- The size of what a file holds, if it is there. -/
def contentSize (content : Option ByteArray) : Nat := (content.getD .empty).size

/-- What is left of a log file in front of a write: all of it, unless it is too large. -/
def keptLog (current : Option ByteArray) : Option ByteArray :=
  if logSizeLimit < contentSize current then none else current

/-- What is set aside after a write: what the log file held, if that was too large. -/
def setAside (current aside : Option ByteArray) : Option ByteArray :=
  if logSizeLimit < contentSize current then current else aside

/-- What a log file holds after bytes were written to it. -/
def grown (current : Option ByteArray) (bytes : ByteArray) : ByteArray :=
  (keptLog current).getD .empty ++ bytes

section

variable {d e : Disk} {base : Path} {home : Location} {current aside : Option ByteArray}

theorem LogHome.mono (there : LogHome d base home) (working : e.working = d.working)
    (directories : ∀ place, d.node? place = some .directory → e.node? place = some .directory) :
    LogHome e base home :=
  ⟨locate_mono working directories there.leads, directories _ there.directory, there.paths⟩

theorem LogHome.follow_parts (there : LogHome d base home) :
    d.follow (d.base base) base.parts = .ok home := by
  have leads := there.leads
  unfold locate at leads
  split at leads
  next => cases leads
  next => exact leads

/-- What parts below the base path lead to. -/
theorem LogHome.locate_below (there : LogHome d base home) {p : Path} {parts : List String}
    (fine : pathFault? p = none) (below : p = ⟨base.slashes, base.parts ++ parts⟩) :
    d.locate p = d.follow home parts := by
  rw [locate, fine]
  dsimp only
  rw [below]
  change d.follow (d.base base) (base.parts ++ parts) = _
  rw [follow_append, there.follow_parts]
  rfl

theorem LogHome.locate_directory (there : LogHome d base home) :
    d.locate (logDirectory base) = .ok (logPlace home) := by
  have parts : logDirectory base = ⟨base.slashes, base.parts ++ [logDirectoryName]⟩ := rfl
  rw [there.locate_below (there.paths _ (by simp)) parts,
    follow_child there.directory (by decide) (by decide)]
  rfl

theorem child_logDirectory (base : Path) (name : String) :
    (logDirectory base).child name = ⟨base.slashes, base.parts ++ [logDirectoryName, name]⟩ := by
  simp only [logDirectory, Path.child, List.append_assoc, List.singleton_append]

/-- Below a directory that is not there, a path leads nowhere. -/
theorem LogHome.locate_missing (there : LogHome d base home) (folder : d.node? (logPlace home) = none)
    {name : String} (fine : pathFault? ((logDirectory base).child name) = none) :
    d.locate ((logDirectory base).child name) = .error .notFound := by
  rw [there.locate_below fine (child_logDirectory base name),
    follow_child there.directory (by decide) (by decide), follow]
  rw [show d.node? (home.child logDirectoryName) = none from folder]

/-- In the directory of a log, a path leads to the place of its name. -/
theorem LogHome.locate_inside (there : LogHome d base home)
    (folder : d.node? (logPlace home) = some .directory) {name : String}
    (fine : pathFault? ((logDirectory base).child name) = none) (plain : name ≠ "..")
    (short : name.utf8ByteSize ≤ nameLimit) :
    d.locate ((logDirectory base).child name) = .ok ((logPlace home).child name) := by
  rw [there.locate_below fine (child_logDirectory base name),
    follow_child there.directory (by decide) (by decide)]
  change d.follow (logPlace home) [name] = _
  rw [follow_child folder plain short]
  rfl

theorem LogHome.locate_file (there : LogHome d base home)
    (folder : d.node? (logPlace home) = some .directory) :
    d.locate (logFile base) = .ok (logFilePlace home) :=
  there.locate_inside folder (there.paths (logFile base) (by simp)) (by decide) (by decide)

theorem LogHome.locate_backup (there : LogHome d base home)
    (folder : d.node? (logPlace home) = some .directory) :
    d.locate (logBackup base) = .ok (logBackupPlace home) :=
  there.locate_inside folder (there.paths (logBackup base) (by simp)) (by decide) (by decide)

theorem LogFolder.locate_file (there : LogFolder d base home current aside) :
    d.locate (logFile base) = .ok (logFilePlace home) := there.toLogHome.locate_file there.folder

theorem LogFolder.locate_backup (there : LogFolder d base home current aside) :
    d.locate (logBackup base) = .ok (logBackupPlace home) := there.toLogHome.locate_backup there.folder

theorem HasLog.pathExists_file (has : HasLog d base current aside) :
    d.pathExists (logFile base) = .ok current.isSome := by
  cases has with
  | missing there folder =>
    have nowhere := there.locate_missing folder (there.paths (logFile base) (by simp))
    rw [pathExists, logFile, nowhere]
    rfl
  | present there => exact pathExists_of_locate there.locate_file there.current

theorem HasLog.readBytes_file (has : HasLog d base current aside) :
    d.readBytes (logFile base) = current.elim (.error .notFound) .ok := by
  cases has with
  | missing there folder =>
    have nowhere := there.locate_missing folder (there.paths (logFile base) (by simp))
    rw [readBytes, logFile, nowhere]
    rfl
  | present there => exact readBytes_of_locate there.locate_file there.current

theorem HasLog.readBytes_backup (has : HasLog d base current aside) :
    d.readBytes (logBackup base) = aside.elim (.error .notFound) .ok := by
  cases has with
  | missing there folder =>
    have nowhere := there.locate_missing folder (there.paths (logBackup base) (by simp))
    rw [readBytes, logBackup, nowhere]
    rfl
  | present there => exact readBytes_of_locate there.locate_backup there.aside

theorem HasLog.fileSize (has : HasLog d base current aside) :
    d.fileSize (logFile base) = contentSize current := by
  rw [Disk.fileSize, has.readBytes_file]
  cases current <;> rfl

/-- Whatever happens to the two files, the rest of what is known of the log stays. -/
theorem LogFolder.update (there : LogFolder d base home current aside) (working : e.working = d.working)
    (others : ∀ place, place ≠ logFilePlace home → place ≠ logBackupPlace home →
      e.node? place = d.node? place)
    {newCurrent newAside : Option ByteArray}
    (currentNode : e.node? (logFilePlace home) = newCurrent.map .file)
    (asideNode : e.node? (logBackupPlace home) = newAside.map .file) :
    LogFolder e base home newCurrent newAside := by
  have directories : ∀ place, d.node? place = some .directory → e.node? place = some .directory := by
    intro place directory
    rw [others place, directory]
    · rintro rfl
      rw [there.current] at directory
      cases current <;> cases directory
    · rintro rfl
      rw [there.aside] at directory
      cases aside <;> cases directory
  exact ⟨there.toLogHome.mono working directories, directories _ there.folder, currentNode, asideNode⟩

theorem LogFolder.put_current (there : LogFolder d base home current aside) (bytes : ByteArray) :
    LogFolder (d.put (logFilePlace home) (.file bytes)) base home (some bytes) aside := by
  have put := fun other => node?_put d (logFilePlace home) other (.file bytes) (child_ne_root _ _)
  refine there.update (e := d.put _ _) rfl (fun place other _ => ?_) ?_ ?_
  · rw [put, if_neg other]
  · rw [put, if_pos rfl]
    rfl
  · rw [put, if_neg (logBackupPlace_ne_logFilePlace home), there.aside]

theorem LogFolder.put_aside (there : LogFolder d base home current aside) (bytes : ByteArray) :
    LogFolder (d.put (logBackupPlace home) (.file bytes)) base home current (some bytes) := by
  have put := fun other => node?_put d (logBackupPlace home) other (.file bytes) (child_ne_root _ _)
  refine there.update (e := d.put _ _) rfl (fun place _ other => ?_) ?_ ?_
  · rw [put, if_neg other]
  · rw [put, if_neg (logBackupPlace_ne_logFilePlace home).symm, there.current]
  · rw [put, if_pos rfl]
    rfl

theorem LogFolder.erase_current (there : LogFolder d base home current aside) :
    LogFolder (d.erase (logFilePlace home)) base home none aside := by
  have erased := fun other => node?_erase d (logFilePlace home) other (child_ne_root _ _)
  refine there.update (e := d.erase _) rfl (fun place other _ => ?_) ?_ ?_
  · rw [erased, if_neg other]
  · rw [erased, if_pos rfl]
    rfl
  · rw [erased, if_neg (logBackupPlace_ne_logFilePlace home), there.aside]

theorem LogFolder.erase_aside (there : LogFolder d base home current aside) :
    LogFolder (d.erase (logBackupPlace home)) base home current none := by
  have erased := fun other => node?_erase d (logBackupPlace home) other (child_ne_root _ _)
  refine there.update (e := d.erase _) rfl (fun place _ other => ?_) ?_ ?_
  · rw [erased, if_neg other]
  · rw [erased, if_neg (logBackupPlace_ne_logFilePlace home).symm, there.current]
  · rw [erased, if_pos rfl]
    rfl

/-- A log that is not too large stays; one that is too large is set aside in place of the one before. -/
theorem LogFolder.rotateLog (there : LogFolder d base home current aside) :
    ∃ rotated, d.rotateLog base = .ok rotated ∧
      LogFolder rotated base home (keptLog current) (setAside current aside) := by
  rw [Disk.rotateLog, (HasLog.present there).fileSize]
  split
  next small =>
    rw [keptLog, setAside, if_neg (Nat.not_lt.mpr small), if_neg (Nat.not_lt.mpr small)]
    exact ⟨d, rfl, there⟩
  next large =>
    rw [keptLog, setAside, if_pos (Nat.lt_of_not_le large), if_pos (Nat.lt_of_not_le large)]
    cases current with
    | none => exact absurd (Nat.zero_le _) large
    | some bytes =>
      rw [pathExists_of_locate there.locate_backup there.aside]
      cases aside with
      | none =>
        dsimp only [Option.isSome_none]
        rw [rename_of_locate there.locate_file there.current there.locate_backup there.aside]
        exact ⟨_, rfl, there.erase_current.put_aside bytes⟩
      | some old =>
        have freed := there.erase_aside
        dsimp only [Option.isSome_some]
        rw [unlink_of_locate there.locate_backup there.aside]
        dsimp only
        rw [rename_of_locate freed.locate_file freed.current freed.locate_backup freed.aside]
        exact ⟨_, rfl, freed.erase_current.put_aside bytes⟩

/-- The directory of a log is made if it is not there. -/
theorem HasLog.makeDirectories (has : HasLog d base current aside) :
    ∃ opened home, d.makeDirectories (logDirectory base) = (opened, none) ∧
      LogFolder opened base home current aside := by
  have start : ∀ {home : Location}, LogHome d base home →
      d.makeDirectories (logDirectory base) = d.makeDirectoriesFrom home [logDirectoryName] := by
    intro home there
    rw [Disk.makeDirectories, there.paths _ (by simp)]
    exact makeDirectoriesFrom_append there.follow_parts there.directory _
  cases has with
  | @missing home there folder currentNode asideNode =>
    have put := fun other => node?_put d (logPlace home) other .directory (child_ne_root _ _)
    have inside : ∀ name, (logPlace home).child name ≠ logPlace home := by
      intro name same
      simpa [Location.child] using congrArg Location.depth same
    have directories : ∀ place, d.node? place = some .directory →
        (d.put (logPlace home) .directory).node? place = some .directory := by
      intro place directory
      rw [put]
      split
      · rfl
      · exact directory
    refine ⟨d.put (logPlace home) .directory, home, ?_, there.mono rfl directories, ?_, ?_, ?_⟩
    · rw [start there, makeDirectoriesFrom, if_neg (by decide), if_neg (by decide)]
      dsimp only
      rw [show d.node? (home.child logDirectoryName) = none from folder]
      rfl
    · rw [put, if_pos rfl]
    · rw [logFilePlace, put, if_neg (inside _)]
      exact currentNode
    · rw [logBackupPlace, put, if_neg (inside _)]
      exact asideNode
  | @present home _ _ there =>
    refine ⟨d, home, ?_, there⟩
    rw [start there.toLogHome, makeDirectoriesFrom, if_neg (by decide), if_neg (by decide)]
    dsimp only
    rw [show d.node? (home.child logDirectoryName) = some .directory from there.folder]
    rfl

end

/-! ## Operations on a log -/

section

variable {d : Disk} {base : Path} {current aside : Option ByteArray}

/-- **Writing a log** whose directory can be made. A channel that holds something adds the lines that can
be written to the log file. -/
theorem LogFolder.persist {opened : Disk} {home : Location}
    (folder : LogFolder opened base home current aside) {c : Channel} (some_entry : c.entries ≠ [])
    (made : d.makeDirectories (logDirectory base) = (opened, none)) :
    let lines := linesOf c.entries
    let written := c.persist d base
    LogFolder written.disk base home (some (grown current (String.join lines).toUTF8))
        (setAside current aside) ∧
      written.outcome =
        (if lines.length < c.entries.length then .error .unwritable else .ok c.entries.length) ∧
      written.channel = if lines.length < c.entries.length then c else c.clear := by
  intro lines written
  obtain ⟨rotated, rotates, after⟩ := folder.rotateLog
  have parent : rotated.node? (logFilePlace home).parent = some .directory := by
    rw [logFilePlace, Location.parent_child]
    exact after.folder
  have grows := append_of_locate after.locate_file after.current parent (String.join lines).toUTF8
  have holds : LogFolder (rotated.put (logFilePlace home)
      (.file (grown current (String.join lines).toUTF8))) base home _ _ := after.put_current _
  simp only [written, Channel.persist, if_neg some_entry, made, rotates]
  rw [grows]
  dsimp only
  split
  · exact ⟨holds, rfl, rfl⟩
  · exact ⟨holds, rfl, rfl⟩

/-- **Writing a log.** A channel that holds something adds the lines that can be written to the log
file. -/
theorem HasLog.persist (has : HasLog d base current aside) {c : Channel}
    (some_entry : c.entries ≠ []) :
    let lines := linesOf c.entries
    let written := c.persist d base
    HasLog written.disk base (some (grown current (String.join lines).toUTF8))
        (setAside current aside) ∧
      written.outcome =
        (if lines.length < c.entries.length then .error .unwritable else .ok c.entries.length) ∧
      written.channel = if lines.length < c.entries.length then c else c.clear := by
  obtain ⟨opened, home, made, folder⟩ := has.makeDirectories
  obtain ⟨holds, outcome, channel⟩ := folder.persist some_entry made
  exact ⟨.present holds, outcome, channel⟩

/-- A log that holds nothing writes nothing. -/
theorem persist_of_nil {c : Channel} (nothing : c.entries = []) :
    c.persist d base = ⟨.ok 0, d, c⟩ := by
  rw [Channel.persist, if_pos nothing]

/-- What is read depends on the log file alone. -/
theorem HasLog.readLog (has : HasLog d base current aside) :
    d.readLog base = match current with
      | none => .ok []
      | some bytes =>
        match Text.Utf8.decodeBlocks logBlockSize bytes with
        | .error fault => .error (.encoding fault)
        | .ok text => .ok (diagnosticsOf text.toList) := by
  rw [Disk.readLog, has.pathExists_file]
  cases current with
  | none => rfl
  | some bytes =>
    rw [has.readBytes_file]
    rfl

/-- Removing the log file leaves the log that was set aside. -/
theorem HasLog.unlink {bytes : ByteArray} (has : HasLog d base (some bytes) aside) :
    ∃ removed, d.unlink (logFile base) = .ok removed ∧ HasLog removed base none aside := by
  cases has with
  | @present home _ _ there =>
    exact ⟨_, unlink_of_locate there.locate_file there.current, .present there.erase_current⟩

/-- Where there is no directory of a log, there is no log. -/
theorem LogHome.hasLog_of_missing {home : Location} (there : LogHome d base home) (tree : d.IsTree)
    (missing : d.pathExists (logDirectory base) = .ok false) : HasLog d base none none := by
  have folder : d.node? (logPlace home) = none := by
    rw [pathExists, there.locate_directory] at missing
    exact Option.isSome_eq_false_iff.mp (Except.ok.inj missing) |> Option.isNone_iff_eq_none.mp
  have nothing : ∀ name, d.node? ((logPlace home).child name) = none := by
    intro name
    cases node : d.node? ((logPlace home).child name) with
    | none => rfl
    | some found =>
      have parent := tree _ _ node
      rw [Location.parent_child, folder] at parent
      cases parent
  exact .missing there folder (nothing _) (nothing _)

end

/-- The disk with its root and nothing below it. -/
def bare : Disk := ⟨[], .root⟩

theorem bare_isTree : bare.IsTree := by
  intro place node found
  by_cases atRoot : place = .root
  · subst atRoot
    rfl
  · rw [node?, if_neg atRoot] at found
    cases found

theorem logHome_bare : LogHome bare .here .root := ⟨rfl, rfl, by decide⟩

theorem hasLog_bare : HasLog bare .here none none :=
  logHome_bare.hasLog_of_missing bare_isTree rfl

/-- A disk with a file in place of the directory of the log. -/
def blockedDisk : Disk := bare.put (logPlace .root) (.file "x".toUTF8)

end Disk

end HostDecl
