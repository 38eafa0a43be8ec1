import HostDecl.Command.Run
import HostDecl.Proofs.LogReading
import HostDecl.Proofs.ShownText

/-!
# Showing the log

The command that shows the log is asked for a number of diagnostics and for an event. It keeps the
diagnostics of that event and takes as many of them from the end, so those that were logged last.

**The law** (`Command.showLog_recent`): where some diagnostic is of the event, the command prints the last
ones of them in the order of the log, as many as it is asked for or all if there are not that many, a
line for each, and nothing else. Only being asked for none is different: then it prints all of them, for
what is left out in front is counted from the end, and none from there is the same as none from the front
(`recent_ofNat`).
-/

namespace HostDecl

/-! ## The last items -/

/-- Taking the last items of a list; for zero, all of them. -/
theorem recent_ofNat {α : Type} (n : Nat) (items : List α) :
    recent n items = if n = 0 then items else items.drop (items.length - n) := by
  rw [recent]
  by_cases none : n = 0
  · subst none
    rfl
  · have positive : (0 : Int) < n := by omega
    rw [if_pos positive, if_neg none, Int.toNat_natCast]

theorem recent_suffix {α : Type} (n : Nat) (items : List α) : recent n items <:+ items := by
  rw [recent_ofNat]
  split
  · exact List.suffix_refl items
  · exact List.drop_suffix _ _

theorem length_recent {α : Type} (n : Nat) (items : List α) :
    (recent n items).length = if n = 0 then items.length else min n items.length := by
  rw [recent_ofNat]
  split
  · rfl
  · rw [List.length_drop]
    omega

/-! ## What a diagnostic looks like -/

/-- No field of a diagnostic that is read from a log holds a line feed. -/
theorem noLineFeed_of_mem_diagnosticsOf {text : List Char} {entry : Diagnostic}
    (mem : entry ∈ diagnosticsOf text) :
    '\n' ∉ entry.timestamp.toList ∧ '\n' ∉ entry.event.toList ∧ '\n' ∉ entry.detail.spelled.toList := by
  obtain ⟨cs, read, noLineFeed, -⟩ := line_of_mem_diagnosticsOf mem
  have outside : '\n' ∉ Text.trim cs := fun among => noLineFeed (Text.mem_of_mem_trim among)
  rcases Diagnostic.ofLine?_eq_some read with ⟨detail, trimmed, is⟩ | ⟨trimmed, is⟩
  · have spelled : entry.detail.spelled.toList = detail := by
      rw [is, ← String.toList_ofList (l := detail), ← Text.ofString, Text.spelled_ofString]
    rw [trimmed, lineChars] at outside
    rw [spelled]
    simp only [List.mem_append, not_or] at outside
    exact ⟨outside.1, outside.2.2.1, outside.2.2.2.2⟩
  · rw [trimmed] at outside
    simp only [List.mem_append, not_or] at outside
    rw [is]
    exact ⟨outside.1, outside.2.2, by decide⟩

/-! ## The command -/

/-- The diagnostics of an event; all of them for the empty event. -/
def matching (event : String) (entries : List Diagnostic) : List Diagnostic :=
  entries.filter fun entry => event = "" ∨ entry.event = event

/-- A run prints the last `n` of some diagnostics, all of them if there are not that many, and does
nothing else. -/
def PrintsLast (n : Nat) (found : List Diagnostic) (s : Surroundings) (done : Finished) : Prop :=
  ∃ last, last <:+ found ∧ last.length = min n found.length ∧
    done = s.finish (.done (String.join (last.map Diagnostic.shown)))

theorem matching_eq (event : String) (entries : List Diagnostic) :
    (if event = "" then entries else entries.filter fun entry => entry.event == event) =
      matching event entries := by
  rw [matching]
  split
  next every => simp [every]
  next one => simp [one, beq_eq_decide]

theorem Command.run_showLog {s : Surroundings} {base text : String}
    (held : s.workspace.disk.readBytes (logFile (.ofText base)) = .ok text.toUTF8) (n : Int)
    (event : String) :
    let found := matching event (diagnosticsOf text.toList)
    (Command.showLog n event base).run s = s.finish (.done
      (if found = [] then nothingFound else String.join ((recent n found).map Diagnostic.shown))) := by
  intro found
  rw [run, runShow, Disk.readLog_of_readBytes held]
  dsimp only
  rw [matching_eq]
  split <;> rfl

/-- **The diagnostics logged last are shown**, as many as are asked for, except that none of them means
all. Each is one line, and it is shown as it is if the layout changes none of its characters. -/
theorem Command.showLog_recent {s : Surroundings} {base text : String}
    (held : s.workspace.disk.readBytes (logFile (.ofText base)) = .ok text.toUTF8) (n : Nat)
    (event : String) :
    let found := matching event (diagnosticsOf text.toList)
    let done := (Command.showLog n event base).run s
    (found ≠ [] → (PrintsLast n found s done ↔ n ≠ 0)) ∧
      (found ≠ [] → PrintsLast (if n = 0 then found.length else n) found s done) ∧
      (found = [] → done = s.finish (.done nothingFound)) ∧
      (∀ entry ∈ found, ∃ line, '\n' ∉ line ∧ entry.shown = String.ofList line ++ "\n") ∧
      ∀ entry ∈ found, Text.ShowsAsIs (entry.timestamp.toList.take 19) →
        Text.ShowsAsIs entry.event.toList → Text.ShowsAsIs entry.detail.spelled.toList →
          entry.shown = String.ofList (entry.timestamp.toList.take 19) ++ " " ++ entry.event ++ " " ++
            entry.detail.spelled ++ "\n" := by
  intro found done
  have prints : done = s.finish (.done
      (if found = [] then nothingFound else String.join ((recent n found).map Diagnostic.shown))) :=
    run_showLog held n event
  have oneLine : ∀ entry ∈ found, ∃ line, '\n' ∉ line ∧ entry.shown = String.ofList line ++ "\n" := by
    intro entry mem
    obtain ⟨timed, named, detailed⟩ := noLineFeed_of_mem_diagnosticsOf (List.mem_filter.mp mem).1
    exact Diagnostic.shown_oneLine timed named detailed
  have asked : found ≠ [] → PrintsLast (if n = 0 then found.length else n) found s done := by
    intro some_entry
    rw [if_neg some_entry] at prints
    refine ⟨recent n found, recent_suffix n found, ?_, prints⟩
    rw [length_recent]
    split
    · exact (Nat.min_self _).symm
    · rfl
  refine ⟨fun some_entry => ⟨?_, ?_⟩, asked, ?_, oneLine, ?_⟩
  · rintro ⟨last, -, short, only⟩ none
    -- nothing would be printed, but at least one line is
    obtain ⟨entry, others, split⟩ := List.exists_cons_of_ne_nil some_entry
    obtain ⟨line, -, shown⟩ := oneLine entry (split ▸ List.mem_cons_self)
    rw [none, Nat.zero_min, List.length_eq_zero_iff] at short
    rw [prints, if_neg some_entry, recent_ofNat, if_pos none, short, split, List.map_cons, shown] at only
    have outputs := congrArg (fun finished => finished.outcome.output.toList) only
    simp [Surroundings.finish, Outcome.done] at outputs
  · intro some_line
    have as_many := asked some_entry
    rwa [if_neg some_line] at as_many
  · intro nothing
    rw [prints, if_pos nothing]
  · intro entry _
    exact Diagnostic.shown_of_showsAsIs

/-- Of two diagnostics of an event the second is shown where one is asked for, and both where none is. -/
theorem Command.showLog_recent_twoEntries :
    let text := "2024-01-02T03:04:05.678901 | unmapped-type | b.B\n" ++
      "2024-01-02T03:04:06.000001 | unhandled-kind | x\n2024-01-02T03:04:07 | unmapped-type | a.A\n"
    let s : Surroundings := ⟨⟨.onlyLog text, ⟨1, ["home"]⟩⟩, [], .new true, fun _ => "12:03", "", Table.console⟩
    let found : List Diagnostic := [⟨"2024-01-02T03:04:05.678901", "unmapped-type", "b.B"⟩,
      ⟨"2024-01-02T03:04:07", "unmapped-type", "a.A"⟩]
    let done (n : Nat) := (Command.showLog n "unmapped-type" ".").run s
    s.workspace.disk.readBytes (logFile (.ofText ".")) = .ok text.toUTF8 ∧
      matching "unmapped-type" (diagnosticsOf text.toList) = found ∧
      (∀ entry ∈ found, Text.ShowsAsIs (entry.timestamp.toList.take 19) ∧
        Text.ShowsAsIs entry.event.toList ∧ Text.ShowsAsIs entry.detail.spelled.toList) ∧
      PrintsLast 1 found s (done 1) ∧ done 1 = s.finish (.done "2024-01-02T03:04:07 unmapped-type a.A\n") ∧
      ¬PrintsLast 0 found s (done 0) ∧ done 0 = s.finish (.done
        "2024-01-02T03:04:05 unmapped-type b.B\n2024-01-02T03:04:07 unmapped-type a.A\n") := by
  intro text s found done
  have held : s.workspace.disk.readBytes (logFile (.ofText ".")) = .ok text.toUTF8 :=
    Disk.readBytes_onlyLog text
  have are : matching "unmapped-type" (diagnosticsOf text.toList) = found := by decide +kernel
  have stay : ∀ entry ∈ found, Text.ShowsAsIs (entry.timestamp.toList.take 19) ∧
      Text.ShowsAsIs entry.event.toList ∧ Text.ShowsAsIs entry.detail.spelled.toList := by decide +kernel
  have some_entry : found ≠ [] := List.cons_ne_nil _ _
  obtain ⟨one, -⟩ := showLog_recent held 1 "unmapped-type"
  obtain ⟨none, all, -⟩ := showLog_recent held 0 "unmapped-type"
  rw [are] at one none all
  have lastOne := (one some_entry).mpr Nat.one_ne_zero
  refine ⟨held, are, stay, lastOne, ?_, fun last => (none some_entry).mp last rfl, ?_⟩
  · obtain ⟨last, suffix, length, prints⟩ := lastOne
    apply prints.trans
    rw [List.suffix_iff_eq_drop.mp suffix, length]
    rfl
  · obtain ⟨last, suffix, length, prints⟩ := all some_entry
    apply prints.trans
    rw [List.suffix_iff_eq_drop.mp suffix, length]
    rfl

end HostDecl
