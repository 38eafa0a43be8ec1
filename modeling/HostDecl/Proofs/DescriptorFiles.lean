import HostDecl.Proofs.LineBreaks
import HostDecl.Proofs.TypeCommand

/-!
# Descriptor files of any bytes

The command that writes the types of a file does its work, refuses the file, or is ended by a fault that
it is not prepared for. Which of these it is depends on the bytes of the file alone, once there are
settings and diagnostics are not logged.

**The law** (`run_translate_answers_iff`): the command answers, by its work or by a refusal that prints
nothing, exactly if none of three faults is in the bytes (`EndsCommand`). They are no text; they are a text
beyond a limit of the reader; or they describe types of which some text holds half of a surrogate pair. The
fault that ends the command is then that one, and the disk is as it was whatever happens.

The command is prepared for a text with a wrong syntax and for values that describe no type, and for
nothing else, although each of the three faults is one of the file as well.

**What it does not establish.** What is printed for a file that is accepted is not said here, and neither is
how the refusal is worded behind the name of the file.
-/

namespace HostDecl

/-- The fault with which a descriptor file of these bytes ends the command. -/
inductive EndsCommand (bytes : ByteArray) : Unprepared → Prop
  | encoding {fault : Text.Utf8.Fault} (decoded : Text.Utf8.decode bytes = .error fault) :
      EndsCommand bytes (.encoding fault)
  | beyond {text : String} {limit : Json.LimitFault} (whole : text.toUTF8 = bytes)
      (parsed : Json.parse text = .error (.beyond limit)) : EndsCommand bytes (.beyond limit)
  | unwritable {text : String} {value : Json} {ds : List Descriptor} {d : Descriptor}
      {type : TypeScript.TypeExpr} (whole : text.toUTF8 = bytes) (parsed : Json.parse text = .ok value)
      (accepted : descriptorsOf value = .valid ds) (mem : d ∈ ds) (typed : d.typeExpr = .ok type)
      (broken : ¬ type.render.IsString) : EndsCommand bytes .unwritable

/-- The text of the type of some descriptor is no string. -/
def SomeTypeBroken (ds : List Descriptor) : Prop :=
  ∃ d ∈ ds, ∃ type, d.typeExpr = .ok type ∧ ¬ type.render.IsString

/-- An outcome that refuses a descriptor file: nothing is printed but why, behind the warnings. -/
structure Outcome.RefusesFile (file : Path) (warnings : String) (o : Outcome) : Prop where
  exitCode : o.exitCode = 1
  output : o.output = ""
  fault : o.fault = none
  errors : ∃ reason : Text, o.errors = warnings ++
    echoed ("Error: " ++ ("invalid descriptor file " ++ file.text ++ ": " ++ reason : Text).spelled)

/-! ## Faults in the bytes -/

section

variable {text : String} {fault : Unprepared}

theorem endsCommand_of_undecoded {bytes : ByteArray} {found : Text.Utf8.Fault}
    (decoded : Text.Utf8.decode bytes = .error found) :
    EndsCommand bytes fault ↔ fault = .encoding found := by
  have noText : ∀ text : String, text.toUTF8 ≠ bytes := by
    intro text whole
    cases decoded.symm.trans (Text.Utf8.decodeWith_eq_ok.mpr whole)
  constructor
  · intro ends
    cases ends with
    | encoding again =>
      cases decoded.symm.trans again
      rfl
    | beyond whole => exact absurd whole (noText _)
    | unwritable whole => exact absurd whole (noText _)
  · rintro rfl
    exact .encoding decoded

theorem endsCommand_toUTF8_iff :
    EndsCommand text.toUTF8 fault ↔
      (∃ limit, Json.parse text = .error (.beyond limit) ∧ fault = .beyond limit) ∨
        ∃ value ds, Json.parse text = .ok value ∧ descriptorsOf value = .valid ds ∧
          SomeTypeBroken ds ∧ fault = .unwritable := by
  have decoded : Text.Utf8.decode text.toUTF8 = .ok text := Text.Utf8.decodeWith_toUTF8 _ _
  have own : ∀ {other : String}, other.toUTF8 = text.toUTF8 → other = text := by
    intro other whole
    cases decoded.symm.trans (Text.Utf8.decodeWith_eq_ok.mpr whole)
    rfl
  constructor
  · intro ends
    cases ends with
    | encoding again => cases decoded.symm.trans again
    | beyond whole parsed => exact .inl ⟨_, own whole ▸ parsed, rfl⟩
    | unwritable whole parsed accepted mem typed broken =>
      exact .inr ⟨_, _, own whole ▸ parsed, accepted, ⟨_, mem, _, typed, broken⟩, rfl⟩
  · rintro (⟨limit, parsed, rfl⟩ | ⟨value, ds, parsed, accepted, ⟨d, mem, type, typed, broken⟩, rfl⟩)
    · exact .beyond rfl parsed
    · exact .unwritable rfl parsed accepted mem typed broken

end

/-- Descriptors that are accepted can all be written unless the text of a type is no string. -/
theorem writeTypes_fault {value : Json} {ds : List Descriptor}
    (accepted : descriptorsOf value = .valid ds) (session : Bool) (fault : Unprepared) :
    (writeTypes session .empty ds).fault = some fault ↔ SomeTypeBroken ds ∧ fault = .unwritable := by
  obtain ⟨types, wellTyped⟩ := exists_types accepted
  have typed := wellTyped.imp fun _ _ => And.right
  have someBroken :
      (Text.writable (types.map TypeScript.TypeExpr.render)).length < ds.length ↔ SomeTypeBroken ds := by
    rw [typed.length_eq, ← List.length_map TypeScript.TypeExpr.render, Text.length_writable_lt_iff]
    constructor
    · rintro ⟨_, mem, broken⟩
      obtain ⟨type, among, rfl⟩ := List.mem_map.mp mem
      obtain ⟨d, there, its⟩ := Descriptor.exists_of_forall₂ typed.flip among
      exact ⟨d, there, type, its, broken⟩
    · rintro ⟨d, there, type, its, broken⟩
      obtain ⟨other, among, same⟩ := Descriptor.exists_of_forall₂ typed there
      cases its.symm.trans same
      exact ⟨_, List.mem_map_of_mem among, broken⟩
  rw [(writeTypes_eq session ImportLedger.met_empty typed).2.2, ← someBroken]
  split
  next less => simp [less, eq_comm]
  next all => simp [all]

/-- What is loaded from a file, and which faults are in its bytes: it is given up, or refused, or accepted
with types that remain to be written. -/
theorem loadDescriptors_of_readBytes {disk : Disk} {file : Path} {bytes : ByteArray}
    (held : disk.readBytes file = .ok bytes) :
    (∃ found, loadDescriptors disk file = .error (.stopped found) ∧
      ∀ fault, EndsCommand bytes fault ↔ fault = found) ∨
    (∃ reason : Text, loadDescriptors disk file =
        .error (.refused ("invalid descriptor file " ++ file.text ++ ": " ++ reason)) ∧
      ∀ fault, ¬ EndsCommand bytes fault) ∨
    ∃ value ds, loadDescriptors disk file = .ok ds ∧ descriptorsOf value = .valid ds ∧
      ∀ fault, EndsCommand bytes fault ↔ SomeTypeBroken ds ∧ fault = .unwritable := by
  cases decoded : Text.Utf8.decode bytes with
  | error found =>
    left
    refine ⟨.encoding found, ?_, fun fault => endsCommand_of_undecoded decoded⟩
    simp only [loadDescriptors, Disk.jsonValue, Disk.readText_eq held, decoded, TextFault.unprepared]
  | ok text =>
    obtain rfl := Text.Utf8.decodeWith_eq_ok.mp decoded
    rcases Json.cases_of_mapError_eq (Json.limit?_parse_unifyNewlines text) with
      ⟨value, read, parsed⟩ | ⟨fault, own, read, parsed, limit⟩
    · right
      have ends : ∀ fault, EndsCommand text.toUTF8 fault ↔ ∃ ds, descriptorsOf value = .valid ds ∧
          SomeTypeBroken ds ∧ fault = .unwritable := by
        intro fault
        rw [endsCommand_toUTF8_iff, parsed]
        simp
      cases outcome : descriptorsOf value with
      | invalid issues =>
        left
        refine ⟨issueReport (descriptorsModel value) issues, ?_, fun fault => ?_⟩
        · simp only [loadDescriptors, Disk.jsonValue, Disk.readText_eq held, decoded, read, outcome]
        · rw [ends, outcome]
          simp
      | valid ds =>
        right
        refine ⟨value, ds, ?_, outcome, fun fault => ?_⟩
        · simp only [loadDescriptors, Disk.jsonValue, Disk.readText_eq held, decoded, read, outcome]
        · rw [ends, outcome]
          simp
    · cases fault with
      | malformed fault line column position =>
        cases own with
        | beyond => cases limit
        | malformed =>
          right; left
          refine ⟨(Json.ReadFault.malformed fault line column position).message, ?_, fun fault => ?_⟩
          · simp only [loadDescriptors, Disk.jsonValue, Disk.readText_eq held, decoded, read]
          · rw [endsCommand_toUTF8_iff, parsed]
            simp
      | beyond found =>
        cases own with
        | malformed => cases limit
        | beyond =>
          cases limit
          left
          refine ⟨.beyond found, ?_, fun fault => ?_⟩
          · simp only [loadDescriptors, Disk.jsonValue, Disk.readText_eq held, decoded, read]
          · rw [endsCommand_toUTF8_iff, parsed]
            simp

/-! ## The command -/

section

variable {s : Surroundings} {prepared : Prepared} {file : String} {bytes : ByteArray}

/-- With settings, and without a log, a run depends on what is loaded from the file. -/
theorem run_translate_unlogged (settings : s.prepare = .ok prepared)
    (unlogged : prepared.settings.logs = false)
    (present : s.workspace.disk.pathExists (.ofText file) = .ok true) (session : Bool) (base : String) :
    let done := (Command.translate file session base).run s
    done.disk = s.workspace.disk ∧
      match loadDescriptors s.workspace.disk (.ofText file) with
      | .error outcome => done.outcome = outcome.warned prepared.warnings
      | .ok ds => done.outcome.fault = (writeTypes session .empty ds).fault ∧
          (done.outcome.exitCode = 0 ↔ done.outcome.fault = none) := by
  intro done
  simp only [done, Command.run, runTypes, present, settings]
  cases loadDescriptors s.workspace.disk (.ofText file) with
  | error outcome => exact ⟨rfl, rfl⟩
  | ok ds =>
    dsimp only
    cases (writeTypes session .empty ds).fault with
    | some fault => exact ⟨rfl, rfl, by simp⟩
    | none =>
      rw [unlogged]
      exact ⟨rfl, rfl, by simp⟩

/-- With settings, and without a log, the command leaves the disk as it was. Whatever the bytes of the file
are, it ends with the fault that is in them. It does its work or refuses the file exactly if there is
none. -/
theorem run_translate_answers_iff (settings : s.prepare = .ok prepared)
    (unlogged : prepared.settings.logs = false)
    (held : s.workspace.disk.readBytes (.ofText file) = .ok bytes) (session : Bool) (base : String) :
    let done := (Command.translate file session base).run s
    done.disk = s.workspace.disk ∧
      (∀ fault, done.outcome.fault = some fault ↔ EndsCommand bytes fault) ∧
      ((done.outcome.exitCode = 0 ∨
          done.outcome.RefusesFile (.ofText file) prepared.warnings) ↔
        ∀ fault, ¬ EndsCommand bytes fault) := by
  intro done
  have present := Disk.pathExists_of_readBytes held
  obtain ⟨disk, ended⟩ := run_translate_unlogged settings unlogged present session base
  refine ⟨disk, ?_⟩
  rcases loadDescriptors_of_readBytes held with
    ⟨found, load, ends⟩ | ⟨reason, load, ends⟩ | ⟨value, ds, load, accepted, ends⟩
  · rw [load] at ended
    have outcome : done.outcome = (Outcome.stopped found).warned prepared.warnings := ended
    rw [outcome]
    refine ⟨fun fault => ?_, ?_⟩
    · rw [ends, eq_comm]
      exact Option.some_inj
    · refine iff_of_false ?_ fun never => never found ((ends found).mpr rfl)
      rintro (exits | refuses)
      · cases exits
      · cases refuses.fault
  · rw [load] at ended
    have outcome : done.outcome = (Outcome.refused _).warned prepared.warnings := ended
    rw [outcome]
    refine ⟨fun fault => iff_of_false nofun (ends fault), iff_of_true (.inr ?_) ends⟩
    exact ⟨rfl, rfl, rfl, reason, rfl⟩
  · rw [load] at ended
    obtain ⟨fault, exits⟩ := ended
    have faults : ∀ fault, done.outcome.fault = some fault ↔ EndsCommand bytes fault := by
      intro other
      rw [ends, ← writeTypes_fault accepted session other, fault]
    refine ⟨faults, ?_⟩
    have answered : done.outcome.fault = none ↔ ∀ fault, ¬ EndsCommand bytes fault := by
      rw [Option.eq_none_iff_forall_ne_some]
      exact forall_congr' fun other => not_congr (faults other)
    rw [← answered, ← exits]
    constructor
    · rintro (zero | refuses)
      · exact zero
      · exact exits.mpr refuses.fault
    · exact .inl

end

/-- A run on a file of one byte, which starts no character. -/
def strayRun : Surroundings :=
  { runOn "" [] with
    workspace := ⟨⟨[(.ofNames ["types.json"], .file ⟨#[0xff]⟩)], .root⟩, ⟨1, ["home"]⟩⟩ }

/-- The command is ended by the byte, and does not say which file it is. -/
theorem run_translate_answers_iff_strayRun :
    strayRun.prepare = .ok ⟨⟨none, [], [], [], false⟩, ""⟩ ∧
      strayRun.workspace.disk.readBytes (.ofText "types.json") = .ok ⟨#[0xff]⟩ ∧
      ((Command.translate "types.json" false ".").run strayRun).outcome.fault =
        some (.encoding ⟨0xff, 0, 1, .invalidStart⟩) ∧
      ¬ (((Command.translate "types.json" false ".").run strayRun).outcome.exitCode = 0 ∨
        ((Command.translate "types.json" false ".").run strayRun).outcome.RefusesFile
          (.ofText "types.json") "") := by
  have settings : strayRun.prepare = .ok ⟨⟨none, [], [], [], false⟩, ""⟩ :=
    Surroundings.prepare_of_environment (by decide +kernel) (by decide +kernel)
  have held : strayRun.workspace.disk.readBytes (.ofText "types.json") = .ok ⟨#[0xff]⟩ := by rfl
  have ends : EndsCommand ⟨#[0xff]⟩ (.encoding ⟨0xff, 0, 1, .invalidStart⟩) :=
    .encoding (by decide +kernel)
  obtain ⟨-, fault, answers⟩ := run_translate_answers_iff settings rfl held false "."
  exact ⟨settings, held, (fault _).mpr ends, fun answered => answers.mp answered _ ends⟩

end HostDecl
