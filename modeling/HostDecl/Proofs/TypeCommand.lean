import HostDecl.Command.Run
import HostDecl.Diagnostic.Table
import HostDecl.Proofs.Echo
import HostDecl.Proofs.ImportedNames
import HostDecl.Proofs.LogLine
import HostDecl.Proofs.MadeDirectories
import HostDecl.Proofs.Reports

/-!
# Writing the types of a file

The command reads all the descriptors of a file before it writes the type of the first one. What it
prints and what it leaves on the disk is said here without the ledger and without the channel: by the
descriptors, by those in front of each, and by the contents of two files.

**The law** (`run_translate`). If each of the values in the file is accepted, each type is printed on a
line, echoed as texts are, with its import status behind a tab in a session. If diagnostics are logged,
the lines of what was reported go to the end of the log, each with the time of its report, and a log
beyond its limit is set aside first. If one of the values is refused, nothing is printed, and the disk is
as it was.

**What it does not establish.** The texts of the types, and what the channel held before, are such that
they can be written. What the command does about a text that holds half of a surrogate pair is left to
the law about the bytes of a file (`Proofs/DescriptorFiles`).
-/

namespace HostDecl

open TypeScript

/-! ## Reading -/

/-- The values of a file that each describe a type: the items of an array, or else the one value. -/
def describedValues : Json → List Json
  | .arr items => items
  | value => [value]

theorem descriptorsOf_eq_valid {value : Json} {ds : List Descriptor} :
    descriptorsOf value = .valid ds ↔
      List.Forall₂ (fun item d => Descriptor.ofJson item = .valid d) (describedValues value) ds := by
  have single : (Descriptor.ofJson value).map (fun d => [d]) = .valid ds ↔
      List.Forall₂ (fun item d => Descriptor.ofJson item = .valid d) [value] ds := by
    rw [Checked.map_eq_valid, List.forall₂_cons_left_iff]
    simp only [List.forall₂_nil_left_iff]
    constructor
    · rintro ⟨d, accepted, rfl⟩
      exact ⟨d, [], accepted, rfl, rfl⟩
    · rintro ⟨d, _, accepted, rfl, rfl⟩
      exact ⟨d, accepted, rfl⟩
  cases value with
  | arr items => exact Checked.readItems_eq_valid
  | _ => exact single

/-- Accepted values have types. -/
theorem exists_types {value : Json} {ds : List Descriptor}
    (accepted : descriptorsOf value = .valid ds) :
    ∃ types, List.Forall₂ (fun d type => d.WellFormed ∧ d.typeExpr = .ok type) ds types := by
  have pairs := descriptorsOf_eq_valid.mp accepted
  have each : ∀ d ∈ ds, ∃ type, d.typeExpr = .ok type ∧ d.WellFormed ∧ d.typeExpr = .ok type := by
    intro d mem
    obtain ⟨item, -, read⟩ := Descriptor.exists_of_forall₂ pairs.flip mem
    have wellFormed := Descriptor.wellFormed_of_ofJson read
    obtain ⟨type, typed, -⟩ := wellFormed.reports_typeExpr
    exact ⟨type, typed, wellFormed, typed⟩
  obtain ⟨types, -, related⟩ :=
    Descriptor.typeExprs_typed (Q := fun d type => d.WellFormed ∧ d.typeExpr = .ok type) each
  exact ⟨types, related⟩

/-- The bytes of a text without carriage returns are read as the text. -/
theorem Disk.readText_of_readBytes {d : Disk} {file : Path} {text : String}
    (held : d.readBytes file = .ok text.toUTF8) (plain : '\r' ∉ text.toList) :
    d.readText file = .ok text := by
  have whole := Text.unifyNewlines_append plain []
  rw [List.append_nil] at whole
  rw [readText_eq held, Text.Utf8.decode, Text.Utf8.decodeWith_toUTF8]
  dsimp only
  rw [whole]
  simp [Text.unifyNewlines]

theorem Disk.jsonValue_of_parse {d : Disk} {file : Path} {text : String} {value : Json}
    (read : d.readText file = .ok text) (parsed : Json.parse text = .ok value) :
    d.jsonValue file = .ok value := by
  rw [jsonValue, read]
  dsimp only
  rw [parsed]

/-- A file that is read is there. -/
theorem Disk.pathExists_of_jsonValue {d : Disk} {file : Path} {value : Json}
    (read : d.jsonValue file = .ok value) : d.pathExists file = .ok true := by
  rw [jsonValue, readText] at read
  cases held : d.readBytes file with
  | error fault =>
    rw [held] at read
    cases read
  | ok bytes => exact pathExists_of_readBytes held

/-! ## The import status -/

/-- The keys of those descriptors that are in a module. -/
def moduleKeys (ds : List Descriptor) : List Text :=
  (ds.filter fun d => d.moduleName.isSome).map Descriptor.importKey

theorem moduleKeys_concat (ds : List Descriptor) (d : Descriptor) :
    moduleKeys (ds ++ [d]) = moduleKeys ds ++ if d.moduleName.isSome then [d.importKey] else [] := by
  rw [moduleKeys, List.filter_append, List.map_append, List.filter_singleton]
  cases d.moduleName.isSome <;> rfl

/-- The import status of a type behind others: it is to be imported if it is in a module, and none of
them in a module has its key. -/
def importStatus (earlier : List Descriptor) (d : Descriptor) : String :=
  if d.moduleName.isSome ∧ d.importKey ∉ moduleKeys earlier then "import" else "visible"

namespace ImportLedger

variable {ι : Type} {l : ImportLedger ι}

/-- A ledger has recorded the keys of descriptors in modules. -/
def Met (l : ImportLedger ι) (ds : List Descriptor) : Prop := ∀ key, key ∈ l.keys ↔ key ∈ moduleKeys ds

theorem met_empty : (empty : ImportLedger ι).Met [] := fun _ => Iff.rfl

/-- What is answered about the next descriptor, and what the ledger has met then. -/
theorem Met.refer {earlier : List Descriptor} (met : l.Met earlier) (label : ι) (d : Descriptor) :
    ∃ visible after, l.refer label d = (visible, after) ∧
      statusWord visible = importStatus earlier d ∧ after.Met (earlier ++ [d]) := by
  rcases l.refer_cases label d with ⟨kept, eq⟩ | ⟨module, after, inside, absent, eq, keys⟩
  · refine ⟨true, l, eq, ?_, fun key => ?_⟩
    · rw [importStatus, if_neg]
      · rfl
      · rintro ⟨inside, fresh⟩
        rcases kept with outside | there
        · simp [outside] at inside
        · exact fresh ((met _).mp there)
    · rw [met key, moduleKeys_concat]
      split
      next inside =>
        rcases kept with outside | there
        · simp [outside] at inside
        · have among := (met _).mp there
          rw [List.mem_append, List.mem_singleton]
          exact ⟨.inl, Or.rec id fun same => same ▸ among⟩
      next => rw [List.append_nil]
  · refine ⟨false, after, eq, ?_, fun key => ?_⟩
    · rw [importStatus, if_pos ⟨by rw [inside]; rfl, mt (met _).mpr absent⟩]
      rfl
    · rw [keys, moduleKeys_concat, inside, List.mem_append, met key, Option.isSome_some, if_pos rfl,
        List.mem_append]

end ImportLedger

/-! ## Lines -/

/-- The line of a type with a text, behind other types. -/
def typeLine (session : Bool) (earlier : List Descriptor) (d : Descriptor) (text : String) : String :=
  String.ofList (Text.withoutEscapes text.toList) ++
    (if session then "\t" ++ importStatus earlier d else "") ++ "\n"

theorem withoutEscapes_importStatus (earlier : List Descriptor) (d : Descriptor) :
    Text.withoutEscapes (importStatus earlier d).toList = (importStatus earlier d).toList := by
  rw [importStatus]
  split <;> decide

/-- A text with a status is echoed as the text is, and the status behind it. -/
theorem echoed_withStatus (text : String) (earlier : List Descriptor) (d : Descriptor) :
    echoed (text ++ "\t" ++ importStatus earlier d) = typeLine true earlier d text := by
  have tab : (text ++ "\t" ++ importStatus earlier d).toList =
      text.toList ++ '\t' :: (importStatus earlier d).toList := by
    simp [String.toList_append]
  rw [echoed, typeLine, tab, Text.withoutEscapes_tab, withoutEscapes_importStatus, if_pos rfl]
  congr 1
  rw [← String.toList_inj]
  simp [String.toList_append]

/-- The lines that are printed for descriptors whose types have these texts. -/
def typeLines (session : Bool) (ds : List Descriptor) (texts : List String) : List String :=
  (ds.zip texts).mapIdx fun i (d, text) => typeLine session (ds.take i) d text

/-- What the types of descriptors lead to: the lines are those of the texts that can be written, and
what is reported goes up to the type whose text cannot. -/
theorem writeTypes_eq (session : Bool) {l : ImportLedger Unit} {earlier ds : List Descriptor}
    {types : List TypeExpr} (met : l.Met earlier)
    (typed : List.Forall₂ (fun d type => d.typeExpr = .ok type) ds types) :
    let texts := Text.writable (types.map TypeExpr.render)
    let run := writeTypes session l ds
    run.lines.map echoed =
        (ds.zip texts).mapIdx (fun i (d, text) => typeLine session (earlier ++ ds.take i) d text) ∧
      run.reports = (types.take (texts.length + 1)).flatMap TypeExpr.reports ∧
      run.fault = if texts.length < ds.length then some .unwritable else none := by
  induction typed generalizing l earlier with
  | nil => exact ⟨rfl, rfl, rfl⟩
  | @cons d type rest types first _ ih =>
    intro texts run
    obtain ⟨visible, after, answer, status, metNext⟩ := met.refer () d
    have shown : (if session then type.render ++ "\t" ++ statusWord visible else type.render).string? =
        type.render.string?.map fun text =>
          if session then text ++ "\t" ++ importStatus earlier d else text := by
      cases session with
      | false => simp
      | true =>
        simp only [if_true]
        rw [status, Text.string?_append_string, Text.string?_append_string, Option.map_map]
        rfl
    simp only [run, texts, writeTypes, first, answer, shown, List.map_cons, Text.writable]
    cases type.render.string? with
    | none => exact ⟨rfl, (List.append_nil _).symm, rfl⟩
    | some text =>
      obtain ⟨lines, reports, fault⟩ := ih metNext
      have echo : echoed (if session then text ++ "\t" ++ importStatus earlier d else text) =
          typeLine session earlier d text := by
        cases session with
        | false => simp [echoed, typeLine]
        | true => exact echoed_withStatus text earlier d
      refine ⟨?_, ?_, ?_⟩
      · simp only [Option.map_some, List.map_cons, echo, lines, List.zip_cons_cons, List.mapIdx_cons,
          List.take_zero, List.append_nil, List.take_succ_cons, List.append_assoc,
          List.singleton_append]
      · simp only [Option.map_some, reports, List.length_cons, List.take_succ_cons,
          List.flatMap_cons]
      · simp only [Option.map_some, fault, List.length_cons, Nat.add_lt_add_iff_right]

/-- What is reported of a type whose text can be written can be written as well. -/
theorem isString_detail {d : Descriptor} {type : TypeExpr} (wellFormed : d.WellFormed)
    (typed : d.typeExpr = .ok type) (whole : type.render.IsString) :
    ∀ r ∈ type.reports, r.detail.IsString := by
  intro r reported
  rw [Descriptor.of_typed wellFormed.reports_typeExpr typed, List.mem_map] at reported
  obtain ⟨n, among, rfl⟩ := reported
  obtain ⟨visited, unmapped⟩ := List.mem_filter.mp among
  obtain ⟨part, partTyped, inside⟩ :=
    Descriptor.of_typed wellFormed.partOf_typeExpr typed n visited
  rw [Descriptor.typeExpr_of_isUnmapped unmapped] at partTyped
  cases partTyped
  have shown : (unmappedText n.name).IsString := inside.occursIn.isString whole
  rw [unmappedText, Text.isString_append, Text.isString_append] at shown
  exact shown.1.2

/-- Where the texts of all types are strings, all that is reported can be written as well. -/
theorem isString_details {ds : List Descriptor} {types : List TypeExpr} {texts : List String}
    (typed : List.Forall₂ (fun d type => d.WellFormed ∧ d.typeExpr = .ok type) ds types)
    (whole : types.map TypeExpr.render = texts.map Text.ofString) :
    ∀ r ∈ types.flatMap TypeExpr.reports, r.detail.IsString := by
  intro r mem
  obtain ⟨type, among, own⟩ := List.mem_flatMap.mp mem
  obtain ⟨d, -, wellFormed, itsType⟩ := Descriptor.exists_of_forall₂ typed.flip among
  obtain ⟨text, -, same⟩ := List.mem_map.mp (whole ▸ List.mem_map_of_mem among)
  exact isString_detail wellFormed itsType ⟨text, same.symm⟩ r own

theorem isString_stamped {clock : Nat → String} {reports : List Report}
    (strings : ∀ r ∈ reports, r.detail.IsString) :
    ∀ entry ∈ Report.stamped clock reports, entry.detail.IsString := by
  intro entry mem
  obtain ⟨reading, inside, rfl⟩ := List.mem_mapIdx.mp mem
  exact strings _ (List.getElem_mem inside)

/-! ## The log -/

namespace Disk

/-- The directory of a log can be made if it is not there, and then the log file and the log set aside
are files with these contents, or missing. -/
def CanLog (d : Disk) (base : Path) (home : Location) (current aside : Option ByteArray) : Prop :=
  ∃ opened, d.makeDirectories (logDirectory base) = (opened, none) ∧
    LogFolder opened base home current aside

/-- The log file is what it was before the directory was made. -/
theorem CanLog.current {d : Disk} {base : Path} {home : Location} {current aside : Option ByteArray}
    (can : d.CanLog base home current aside) :
    d.node? (logFilePlace home) = current.map .file := by
  obtain ⟨opened, made, folder⟩ := can
  refine node?_of_makeDirectories (p := logDirectory base) ?_
  rw [made, folder.current]

/-- A channel whose details are strings is logged as a whole, a line for each of its diagnostics. -/
theorem CanLog.persist {d : Disk} {base : Path} {home : Location} {current aside : Option ByteArray}
    {c : Channel} (can : d.CanLog base home current aside) (some_entry : c.entries ≠ [])
    (strings : ∀ entry ∈ c.entries, entry.detail.IsString) :
    let written := c.persist d base
    written.outcome = .ok c.entries.length ∧
      ∃ lines : List String, lines.map Text.ofString = c.entries.map Diagnostic.line ∧
        LogFolder written.disk base home (some (grown current (String.join lines).toUTF8))
          (setAside current aside) := by
  intro written
  obtain ⟨opened, made, folder⟩ := can
  obtain ⟨after, outcome, -⟩ := folder.persist some_entry made
  have lines := lines_of_isString strings
  rw [if_neg (length_linesOf strings).not_lt] at outcome
  exact ⟨outcome, _, lines, after⟩

end Disk

/-! ## The command -/

section

variable {s : Surroundings} {prepared : Prepared} {file : String} {value : Json}

/-- A file with a value that is refused is refused as a whole. -/
theorem run_translate_of_refused (settings : s.prepare = .ok prepared)
    (read : s.workspace.disk.jsonValue (.ofText file) = .ok value)
    (refused : ∃ item ∈ describedValues value, ∀ d, Descriptor.ofJson item ≠ .valid d)
    (session : Bool) (base : String) :
    let done := (Command.translate file session base).run s
    done.outcome.exitCode = 1 ∧ done.outcome.output = "" ∧ done.disk = s.workspace.disk := by
  intro done
  obtain ⟨item, mem, never⟩ := refused
  cases outcome : descriptorsOf value with
  | valid ds =>
    obtain ⟨d, -, accepted⟩ :=
      Descriptor.exists_of_forall₂ (descriptorsOf_eq_valid.mp outcome) mem
    exact absurd accepted (never d)
  | invalid issues =>
    simp only [done, Command.run, runTypes, Disk.pathExists_of_jsonValue read, settings,
      loadDescriptors, read, outcome]
    exact ⟨rfl, rfl, rfl⟩

/-- A type that cannot be written ends the command before anything is logged. -/
theorem run_translate_of_unwritable {ds : List Descriptor} {fault : Unprepared}
    (settings : s.prepare = .ok prepared)
    (read : s.workspace.disk.jsonValue (.ofText file) = .ok value)
    (accepted : descriptorsOf value = .valid ds) (session : Bool) (base : String)
    (ended : (writeTypes session .empty ds).fault = some fault) :
    let done := (Command.translate file session base).run s
    done.outcome.output = String.join ((writeTypes session .empty ds).lines.map echoed) ∧
      done.outcome.exitCode = 1 ∧ done.disk = s.workspace.disk := by
  intro done
  simp only [done, Command.run, runTypes, Disk.pathExists_of_jsonValue read, settings,
    loadDescriptors, read, accepted, ended, and_self]

/-- Types that are all written are followed by the log, if there is to be one. -/
theorem run_translate_of_written {ds : List Descriptor} (settings : s.prepare = .ok prepared)
    (read : s.workspace.disk.jsonValue (.ofText file) = .ok value)
    (accepted : descriptorsOf value = .valid ds) (session : Bool) (base : String)
    (ended : (writeTypes session .empty ds).fault = none) :
    let done := (Command.translate file session base).run s
    let channel := (s.channel.reportAll s.clock (writeTypes session .empty ds).reports).2
    let logged := channel.persist s.workspace.disk (.ofText base)
    done.outcome.output = String.join ((writeTypes session .empty ds).lines.map echoed) ∧
      (prepared.settings.logs = false → done.outcome.exitCode = 0 ∧ done.disk = s.workspace.disk) ∧
      (prepared.settings.logs = true → done.disk = logged.disk ∧
        ∀ n, logged.outcome = .ok n → done.outcome.exitCode = 0) := by
  intro done channel logged
  simp only [done, logged, channel, Command.run, runTypes, Disk.pathExists_of_jsonValue read, settings,
    loadDescriptors, read, accepted, ended]
  cases prepared.settings.logs with
  | false => exact ⟨rfl, fun _ => ⟨rfl, rfl⟩, nofun⟩
  | true =>
    rw [if_pos rfl]
    split
    next n outcome => exact ⟨rfl, nofun, fun _ => ⟨rfl, fun _ _ => rfl⟩⟩
    next fault outcome =>
      refine ⟨rfl, nofun, fun _ => ⟨rfl, fun n written => ?_⟩⟩
      rw [outcome] at written
      cases written

/-- **What writing the types of a file does.** If every value of the file describes a type, and the texts
of the types are strings, the output is a line for each type. The log then grows by what was reported,
each report at its own time and behind what the channel held already. If some value describes no type,
the command fails and writes nothing. -/
theorem run_translate (settings : s.prepare = .ok prepared)
    (read : s.workspace.disk.jsonValue (.ofText file) = .ok value) (session : Bool) (base : String) :
    let done := (Command.translate file session base).run s
    let before := s.workspace.disk
    (∀ ds, List.Forall₂ (fun item d => Descriptor.ofJson item = .valid d) (describedValues value) ds →
      ∃ types, List.Forall₂ (fun d type => d.typeExpr = .ok type) ds types ∧
        ∀ texts : List String, types.map TypeExpr.render = texts.map Text.ofString →
          let entries := s.channel.entries ++ Report.stamped s.clock (types.flatMap TypeExpr.reports)
          done.outcome.output = String.join (typeLines session ds texts) ∧
          (prepared.settings.logs = false ∨ entries = [] →
            done.outcome.exitCode = 0 ∧ done.disk = before) ∧
          (prepared.settings.logs = true → entries ≠ [] →
            (∀ entry ∈ s.channel.entries, entry.detail.IsString) →
            ∀ home current aside, before.CanLog (.ofText base) home current aside →
              done.outcome.exitCode = 0 ∧
              before.node? (Disk.logFilePlace home) = current.map .file ∧
              ∃ lines : List String, lines.map Text.ofString = entries.map Diagnostic.line ∧
                done.disk.LogFolder (.ofText base) home
                  (some (Disk.grown current (String.join lines).toUTF8))
                  (Disk.setAside current aside))) ∧
    ((∃ item ∈ describedValues value, ∀ d, Descriptor.ofJson item ≠ .valid d) →
      done.outcome.exitCode = 1 ∧ done.outcome.output = "" ∧ done.disk = before) := by
  intro done before
  refine ⟨fun ds pairs => ?_, fun refused => run_translate_of_refused settings read refused session base⟩
  have accepted := descriptorsOf_eq_valid.mpr pairs
  obtain ⟨types, wellTyped⟩ := exists_types accepted
  have typed := wellTyped.imp fun _ _ => And.right
  refine ⟨types, typed, ?_⟩
  intro texts whole entries
  obtain ⟨lines, reports, fault⟩ := writeTypes_eq session ImportLedger.met_empty typed
  rw [whole, Text.writable_ofString] at lines reports fault
  have length : texts.length = ds.length := by
    rw [typed.length_eq, ← List.length_map TypeExpr.render, whole, List.length_map]
  rw [if_neg length.not_lt] at fault
  obtain ⟨output, unlogged, logged⟩ :=
    run_translate_of_written settings read accepted session base fault
  have carried :
      (s.channel.reportAll s.clock (writeTypes session .empty ds).reports).2.entries = entries := by
    rw [reports, List.take_of_length_le (by rw [length, typed.length_eq]; exact Nat.le_succ _),
      Channel.reportAll_channel]
  refine ⟨output.trans (congrArg String.join lines), fun quiet => ?_, ?_⟩
  · cases logs : prepared.settings.logs with
    | false => exact unlogged logs
    | true =>
      have nothing := quiet.resolve_left (by rw [logs]; decide)
      obtain ⟨disk, exits⟩ := logged logs
      rw [Disk.persist_of_nil (carried.trans nothing)] at disk exits
      exact ⟨exits 0 rfl, disk⟩
  · intro logs some_entry strings home current aside can
    have details : ∀ entry ∈ entries, entry.detail.IsString :=
      List.forall_mem_append.mpr ⟨strings, isString_stamped (isString_details wellTyped whole)⟩
    obtain ⟨disk, exits⟩ := logged logs
    rw [← carried] at some_entry details
    obtain ⟨outcome, written, linesOf, after⟩ := can.persist some_entry details
    rw [carried] at linesOf
    refine ⟨exits _ outcome, can.current, written, linesOf, ?_⟩
    rw [disk]
    exact after

end

/-- The disk with one file in its root. -/
def diskWith (text : String) : Disk := ⟨[(.ofNames ["types.json"], .file text.toUTF8)], .root⟩

/-- A run on a disk with one file. -/
def runOn (text : String) (environment : Variables) : Surroundings where
  workspace := ⟨diskWith text, ⟨1, ["home"]⟩⟩
  environment := environment
  channel := .new true
  clock reading := "12:0" ++ toString reading
  input := ""
  console := Table.console

theorem jsonValue_diskWith {text : String} {value : Json} (plain : '\r' ∉ text.toList)
    (parsed : Json.parse text = .ok value) :
    (diskWith text).jsonValue (.ofText "types.json") = .ok value :=
  Disk.jsonValue_of_parse (Disk.readText_of_readBytes rfl plain) parsed

theorem hasLog_diskWith (text : String) : (diskWith text).HasLog (.ofText ".") none none := by
  have there : (diskWith text).LogHome (.ofText ".") .root := ⟨rfl, rfl, by decide⟩
  exact .missing there rfl rfl rfl

/-- Without a file of variables, the settings of a run are those of its environment. -/
theorem Surroundings.prepare_of_environment {s : Surroundings} {settings : Settings}
    (loaded : s.workspace.loadVariables s.environment = .ok ⟨false, [], s.environment⟩)
    (set : Settings.ofVariables s.environment = .ok settings) : s.prepare = .ok ⟨settings, ""⟩ := by
  rw [prepare, loaded]
  dsimp only
  rw [set]
  rfl

/-- The file of a class of a module, and of two types without counterpart. -/
def threeTypes : String :=
  "[\x7b\"kind\":\"api\",\"simple_name\":\"Vertx\",\"name\":\"a.Vertx\",\"module_name\":\"a\"\x7d," ++
  "\x7b\"kind\":\"other\",\"simple_name\":\"Foo\",\"name\":\"a.Foo\"\x7d," ++
  "\x7b\"kind\":\"other\",\"simple_name\":\"Bar\",\"name\":\"a.Bar\"\x7d]"

def vertx : Descriptor := ⟨.api, "Vertx", "a.Vertx", some "a", none, [], false⟩

def foo : Descriptor := ⟨.other, "Foo", "a.Foo", none, none, [], false⟩

def bar : Descriptor := ⟨.other, "Bar", "a.Bar", none, none, [], false⟩

/-- The values in the file of the three types. -/
def threeValues : List Json :=
  [.obj [("kind", .str "api"), ("simple_name", .str "Vertx"), ("name", .str "a.Vertx"),
      ("module_name", .str "a")],
    .obj [("kind", .str "other"), ("simple_name", .str "Foo"), ("name", .str "a.Foo")],
    .obj [("kind", .str "other"), ("simple_name", .str "Bar"), ("name", .str "a.Bar")]]

/-- A run that is logged. -/
def loggedRun : Surroundings := runOn threeTypes [("TSDECL_DIAGNOSTICS_LOG", "true")]

/-- What the run logs. -/
def loggedLines : List String :=
  ["12:00 | unmapped-type | a.Foo\n", "12:01 | unmapped-type | a.Bar\n"]

set_option maxRecDepth 2000 in
/-- The class has to be imported, and the types without counterpart are logged, each at its time. -/
theorem run_translate_threeTypes :
    loggedRun.prepare = .ok ⟨⟨none, [], [], [], true⟩, ""⟩ ∧
      loggedRun.workspace.disk.jsonValue (.ofText "types.json") = .ok (.arr threeValues) ∧
      ((Command.translate "types.json" true ".").run loggedRun).outcome.output =
        "Vertx\timport\nany /* a.Foo */\tvisible\nany /* a.Bar */\tvisible\n" ∧
      ((Command.translate "types.json" true ".").run loggedRun).outcome.exitCode = 0 ∧
      ∃ home, ((Command.translate "types.json" true ".").run loggedRun).disk.LogFolder (.ofText ".") home
        (some (Disk.grown none (String.join loggedLines).toUTF8)) none := by
  have settings : loggedRun.prepare = .ok ⟨⟨none, [], [], [], true⟩, ""⟩ :=
    Surroundings.prepare_of_environment (by decide +kernel) (by decide +kernel)
  have read : loggedRun.workspace.disk.jsonValue (.ofText "types.json") = .ok (.arr threeValues) :=
    jsonValue_diskWith (by decide +kernel) rfl
  have has : loggedRun.workspace.disk.HasLog (.ofText ".") none none := hasLog_diskWith threeTypes
  obtain ⟨opened, home, made, folder⟩ := has.makeDirectories
  obtain ⟨types, typed, whole⟩ :=
    (run_translate settings read true ".").1 [vertx, foo, bar] (.cons rfl (.cons rfl (.cons rfl .nil)))
  obtain rfl : types = [.named "Vertx", .unmapped "a.Foo", .unmapped "a.Bar"] := by
    obtain _ | ⟨first, _ | ⟨second, _ | ⟨third, _ | _⟩⟩⟩ := typed
    cases first
    cases second
    cases third
    rfl
  obtain ⟨output, -, logged⟩ :=
    whole ["Vertx", "any /* a.Foo */", "any /* a.Bar */"] (by decide +kernel)
  obtain ⟨exits, -, lines, texts, after⟩ := logged rfl (by decide +kernel)
    (List.forall_mem_nil _) home none none ⟨opened, made, folder⟩
  have reported : [(⟨"12:00", Report.unmappedType, "a.Foo"⟩ : Diagnostic),
      ⟨"12:01", Report.unmappedType, "a.Bar"⟩].map Diagnostic.line = loggedLines.map Text.ofString := by
    decide +kernel
  obtain rfl : lines = loggedLines :=
    List.map_injective_iff.mpr (fun _ _ => Text.ofString_inj.mp) (texts.trans reported)
  rw [Disk.setAside, ite_self] at after
  exact ⟨settings, read, output.trans (by decide +kernel), exits, home, after⟩

/-- The file of an enumeration with a simple name, spelled as in JSON. -/
def enumerationNamed (name : String) : String :=
  "\x7b\"kind\":\"enum\",\"simple_name\":\"" ++ name ++ "\",\"name\":\"R\",\"module_name\":\"a\"\x7d"

/-- The value of an enumeration with a simple name. -/
def enumerationValue (name : Text) : Json :=
  .obj [("kind", .str "enum"), ("simple_name", .str name), ("name", .str "R"), ("module_name", .str "a")]

def enumeration (name : Text) : Descriptor := ⟨.enumeration, name, "R", some "a", none, [], false⟩

/-- A run on the file of an enumeration. -/
def enumerationRun (name : String) : Surroundings := runOn (enumerationNamed name) []

set_option maxRecDepth 2000 in
/-- A type is not always printed as its text: an escape sequence is lost, and half of a surrogate pair
cannot be printed at all. -/
theorem run_translate_unlike_text :
    ((enumerationRun "\\u001b[31mRed").prepare = .ok ⟨⟨none, [], [], [], false⟩, ""⟩ ∧
      (enumerationRun "\\u001b[31mRed").workspace.disk.jsonValue (.ofText "types.json") =
        .ok (enumerationValue "\x1b[31mRed") ∧
      Descriptor.ofJson (enumerationValue "\x1b[31mRed") = .valid (enumeration "\x1b[31mRed") ∧
      (enumeration "\x1b[31mRed").typeExpr = .ok (.named "\x1b[31mRed") ∧
      ((Command.translate "types.json" false ".").run
        (enumerationRun "\\u001b[31mRed")).outcome.output = "Red\n" ∧
      "Red\n" ≠ "\x1b[31mRed\n") ∧
    (enumerationRun "\\ud800").prepare = .ok ⟨⟨none, [], [], [], false⟩, ""⟩ ∧
      (enumerationRun "\\ud800").workspace.disk.jsonValue (.ofText "types.json") =
        .ok (enumerationValue ⟨[.half 0]⟩) ∧
      Descriptor.ofJson (enumerationValue ⟨[.half 0]⟩) = .valid (enumeration ⟨[.half 0]⟩) ∧
      (enumeration ⟨[.half 0]⟩).typeExpr = .ok (.named ⟨[.half 0]⟩) ∧
      ((Command.translate "types.json" false ".").run (enumerationRun "\\ud800")).outcome.output = "" ∧
      ((Command.translate "types.json" false ".").run
        (enumerationRun "\\ud800")).outcome.exitCode = 1 := by
  have settings : ∀ name, (enumerationRun name).workspace.loadVariables [] = .ok ⟨false, [], []⟩ →
      (enumerationRun name).prepare = .ok ⟨⟨none, [], [], [], false⟩, ""⟩ :=
    fun name loaded => Surroundings.prepare_of_environment loaded
      (show Settings.ofVariables [] = _ by decide +kernel)
  constructor
  · have prepared := settings "\\u001b[31mRed" (by decide +kernel)
    have read : (enumerationRun "\\u001b[31mRed").workspace.disk.jsonValue (.ofText "types.json") =
        .ok (enumerationValue "\x1b[31mRed") := jsonValue_diskWith (by decide +kernel) rfl
    have ended : (writeTypes false .empty [enumeration "\x1b[31mRed"]).fault = none := by decide +kernel
    obtain ⟨output, -⟩ := run_translate_of_written prepared read rfl false "." ended
    exact ⟨prepared, read, rfl, rfl, output.trans (by decide +kernel), by decide⟩
  · have prepared := settings "\\ud800" (by decide +kernel)
    have read : (enumerationRun "\\ud800").workspace.disk.jsonValue (.ofText "types.json") =
        .ok (enumerationValue ⟨[.half 0]⟩) := jsonValue_diskWith (by decide +kernel) rfl
    have ended : (writeTypes false .empty [enumeration ⟨[.half 0]⟩]).fault = some .unwritable := by
      decide +kernel
    obtain ⟨output, exits, -⟩ := run_translate_of_unwritable prepared read rfl false "." ended
    exact ⟨prepared, read, rfl, rfl, output.trans (by decide +kernel), exits⟩

end HostDecl
