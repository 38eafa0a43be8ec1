import HostDecl.Diagnostic.Channel

/-!
# Summaries

How often each detail was reported for each event: events and details in the order in which they
first appear, and then the details of an event by falling count. Equal counts keep their order.
-/

namespace HostDecl

/-- Counts one more of a name. -/
def bump (name : Text) : List (Text × Nat) → List (Text × Nat)
  | [] => [(name, 1)]
  | (n, count) :: rest =>
    if n = name then (n, count + 1) :: rest else (n, count) :: bump name rest

/-- The counts of the details of each event. -/
abbrev Summary := List (String × List (Text × Nat))

namespace Summary

/-- Counts one more diagnostic. -/
def add (entry : Diagnostic) : Summary → Summary
  | [] => [(entry.event, [(entry.detail, 1)])]
  | (event, details) :: rest =>
    if event = entry.event then (event, bump entry.detail details) :: rest
    else (event, details) :: add entry rest

/-- The counts of diagnostics, everything in first-seen order. -/
def ofDiagnostics (entries : List Diagnostic) : Summary :=
  entries.foldl (fun summary entry => add entry summary) []

/-- The details of an event, the most frequent first. -/
def ranked (details : List (Text × Nat)) : List (Text × Nat) :=
  details.mergeSort fun a b => decide (b.2 ≤ a.2)

/-- A summary with the details of each event ranked. -/
def rankedAll (summary : Summary) : Summary :=
  summary.map fun (event, details) => (event, ranked details)

/-- The rows of a summary: events in ascending order, the details of each ranked, as they are shown. -/
def rows (summary : Summary) : List (String × String × Nat) :=
  (summary.mergeSort fun a b => decide (a.1 ≤ b.1)).flatMap fun (event, details) =>
    (ranked details).map fun (detail, count) => (event, detail.spelled, count)

end Summary

end HostDecl
