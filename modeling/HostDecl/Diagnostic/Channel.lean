import HostDecl.Diagnostic.Report

/-!
# Diagnostic channels

A channel collects reports, each with the time at which it came, until they are written or cleared.
A channel that is not quiet also echoes each report as it comes.
-/

namespace HostDecl

/-- A report and the time at which it came. -/
structure Diagnostic where
  /-- The time, as a text. -/
  timestamp : String
  /-- The event. -/
  event : String
  /-- The name of what it concerns. -/
  detail : Text
  deriving DecidableEq, Repr

/-- A report at a time. -/
def Report.atTime (r : Report) (timestamp : String) : Diagnostic := ⟨timestamp, r.event, r.detail⟩

/-- Reports that come one after the other, each at its own reading of a clock. -/
def Report.stamped (clock : Nat → String) (reports : List Report) : List Diagnostic :=
  reports.mapIdx fun n r => r.atTime (clock n)

theorem Report.stamped_map {α : Type} (clock : Nat → String) (report : α → Report) (items : List α) :
    Report.stamped clock (items.map report) =
      items.mapIdx fun n item => (report item).atTime (clock n) := by
  apply List.ext_getElem
  · simp [stamped]
  · intro n _ _
    simp [stamped]

/-- What has been reported and not yet written. -/
structure Channel where
  /-- Whether reports are not echoed. -/
  quiet : Bool
  /-- The diagnostics, oldest first. -/
  entries : List Diagnostic
  deriving DecidableEq, Repr

namespace Channel

/-- A channel that has collected nothing. -/
def new (quiet : Bool) : Channel := ⟨quiet, []⟩

/-- Takes a report at a time: what is echoed, and the channel afterwards. -/
def report (c : Channel) (timestamp : String) (r : Report) : Text × Channel :=
  (if c.quiet then "" else r.line, { c with entries := c.entries ++ [r.atTime timestamp] })

/-- Takes reports, one after the other. The clock is read for each of them: `clock n` is what it shows
at the reading after `n` others. -/
def reportAll (c : Channel) (clock : Nat → String) : List Report → Text × Channel
  | [] => ("", c)
  | r :: rest =>
    let (echo, c) := c.report (clock 0) r
    let (more, c) := c.reportAll (fun n => clock (n + 1)) rest
    (echo ++ more, c)

/-- The details reported, for one event or for all. -/
def details (c : Channel) (event : Option String) : List Text :=
  (c.entries.filter fun entry => event.all fun e => entry.event == e).map Diagnostic.detail

/-- Forgets everything. -/
def clear (c : Channel) : Channel := { c with entries := [] }

/-- The reports come behind what the channel holds, and nothing else changes. -/
theorem reportAll_channel (c : Channel) (clock : Nat → String) (reports : List Report) :
    (c.reportAll clock reports).2 =
      { c with entries := c.entries ++ Report.stamped clock reports } := by
  induction reports generalizing c clock with
  | nil => simp [reportAll, Report.stamped]
  | cons r rest ih => simp [reportAll, report, ih, Report.stamped, List.mapIdx_cons]

end Channel

end HostDecl
