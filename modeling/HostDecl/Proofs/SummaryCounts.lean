import HostDecl.Command.Run
import HostDecl.Diagnostic.Table
import HostDecl.Proofs.FirstOccurrences
import HostDecl.Proofs.LogReading
import HostDecl.Proofs.ShownText
import Mathlib.Algebra.BigOperators.Group.List.Basic
import Mathlib.Algebra.GroupWithZero.Nat

/-!
# What a summary tells

A summary counts the diagnostics of a log. It has each event once, in the order in which the events came up
first, and below it each of its details once, with the number of the diagnostics that have the event and
the detail. No diagnostic is lost and none is made up, so the counts add up to the number of diagnostics.

**The law** (`Summary.listing_of_entries`): the listing of a summary tells these numbers, the details of an
event by falling count, those of one count in the order in which they came up first. The order of the
diagnostics decides about the order of the listing alone. The command hands the console the rows of the
listing with its events in ascending order, and there is one such order (`Summary.Ordered.unique`).

**What it does not establish.** What a console makes of its rows is not told. It may drop a control from a
detail, and then it shows one that was never counted (`Summary.shown_unlike_listing`).

Counting one diagnostic more is `upsert` on both levels of a summary. On a list that has each key once it
is told by the value of each key (`upsert_eraseDups`), and the summary of a list of diagnostics follows by
induction from its end (`Summary.ofDiagnostics_eq`).
-/

namespace HostDecl

/-! ## Counting one more -/

section Upsert

variable {κ ν : Type} [DecidableEq κ]

/-- Changes the value of a key; a key that is new comes last, with a first value. -/
def upsert (key : κ) (first : ν) (change : ν → ν) : List (κ × ν) → List (κ × ν)
  | [] => [(key, first)]
  | (k, value) :: rest =>
    if k = key then (k, change value) :: rest else (k, value) :: upsert key first change rest

variable {key : κ} {first : ν} {change : ν → ν} {value value' : κ → ν}

theorem upsert_of_not_mem {keys : List κ} (fresh : key ∉ keys) :
    upsert key first change (keys.map fun k => (k, value k)) =
      keys.map (fun k => (k, value k)) ++ [(key, first)] := by
  induction keys with
  | nil => rfl
  | cons k rest ih =>
    rw [List.mem_cons, not_or] at fresh
    obtain ⟨other, below⟩ := fresh
    rw [List.map_cons, upsert, if_neg (Ne.symm other), ih below, List.cons_append]

theorem upsert_of_mem {keys : List κ} (distinct : keys.Nodup) (mem : key ∈ keys)
    (others : ∀ k ∈ keys, k ≠ key → value' k = value k) (here : value' key = change (value key)) :
    upsert key first change (keys.map fun k => (k, value k)) = keys.map fun k => (k, value' k) := by
  induction keys with
  | nil => cases mem
  | cons k rest ih =>
    obtain ⟨onlyHere, distinct⟩ := List.nodup_cons.mp distinct
    rw [List.map_cons, upsert, List.map_cons]
    split
    next same =>
      subst same
      have below : ∀ other ∈ rest, (other, value other) = (other, value' other) := by
        intro other among
        rw [others other (List.mem_cons_of_mem _ among) (fun same => onlyHere (same ▸ among))]
      rw [here, List.map_congr_left below]
    next differ =>
      have among : key ∈ rest := (List.mem_cons.mp mem).resolve_left (Ne.symm differ)
      rw [others k List.mem_cons_self differ,
        ih distinct among fun other below => others other (List.mem_cons_of_mem _ below)]

/-- One more name, where each name stands with its value at its first occurrence. -/
theorem upsert_eraseDups {names : List κ} (others : ∀ k ∈ names, k ≠ key → value' k = value k)
    (again : key ∈ names → value' key = change (value key)) (fresh : key ∉ names → value' key = first) :
    upsert key first change (names.eraseDups.map fun k => (k, value k)) =
      (names ++ [key]).eraseDups.map fun k => (k, value' k) := by
  have kept : ∀ k ∈ names.eraseDups, k ≠ key → value' k = value k := by
    intro k mem
    exact others k (List.mem_eraseDups.mp mem)
  rw [eraseDups_concat]
  split
  next mem => exact upsert_of_mem (nodup_eraseDups names) (List.mem_eraseDups.mpr mem) kept (again mem)
  next new =>
    have notKept : key ∉ names.eraseDups := fun mem => new (List.mem_eraseDups.mp mem)
    have same : ∀ k ∈ names.eraseDups, (k, value k) = (k, value' k) := by
      intro k mem
      rw [kept k mem fun is => notKept (is ▸ mem)]
    rw [upsert_of_not_mem notKept, List.map_append, List.map_congr_left same, List.map_singleton, fresh new]

end Upsert

theorem bump_eq (name : Text) (counts : List (Text × Nat)) : bump name counts = upsert name 1 (· + 1) counts := by
  induction counts with
  | nil => rfl
  | cons first rest ih => rw [bump, upsert, ih]

theorem Summary.add_eq (entry : Diagnostic) (summary : Summary) :
    summary.add entry = upsert entry.event [(entry.detail, 1)] (bump entry.detail) summary := by
  induction summary with
  | nil => rfl
  | cons first rest ih => rw [add, upsert, ih]

/-! ## Sorting -/

section Sorting

variable {α : Type} {r : α → α → Prop} [DecidableRel r] (trans : ∀ {a b c}, r a b → r b c → r a c)
  (total : ∀ a b, r a b ∨ r b a)

include trans total

theorem pairwise_sorted (items : List α) : (items.mergeSort fun a b => decide (r a b)).Pairwise r := by
  apply List.Pairwise.imp (fun {_ _} before => of_decide_eq_true before)
  apply List.pairwise_mergeSort
  · intro a b c first second
    exact decide_eq_true (trans (of_decide_eq_true first) (of_decide_eq_true second))
  · intro a b
    rw [Bool.or_eq_true, decide_eq_true_eq, decide_eq_true_eq]
    exact total a b

/-- Sorting keeps what is in order already, so it changes no place among those items. -/
theorem sublist_sorted {part items : List α} (sorted : part.Pairwise r) (sublist : part.Sublist items) :
    part.Sublist (items.mergeSort fun a b => decide (r a b)) := by
  apply List.sublist_mergeSort _ _ (sorted.imp decide_eq_true) sublist
  · intro a b c first second
    exact decide_eq_true (trans (of_decide_eq_true first) (of_decide_eq_true second))
  · intro a b
    rw [Bool.or_eq_true, decide_eq_true_eq, decide_eq_true_eq]
    exact total a b

end Sorting

/-! ## What a list of diagnostics has -/

/-- How many diagnostics have an event and a detail. -/
def frequency (entries : List Diagnostic) (event : String) (detail : Text) : Nat :=
  entries.countP fun entry => entry.event = event ∧ entry.detail = detail

/-- The details that come with an event, in their order and with their repetitions. -/
def detailsOf (entries : List Diagnostic) (event : String) : List Text :=
  (entries.filter fun entry => entry.event = event).map Diagnostic.detail

/-- Each name with how often it stands in a list, in the order of the first occurrences. -/
def tally (names : List Text) : List (Text × Nat) := names.eraseDups.map fun name => (name, names.count name)

theorem count_detailsOf (entries : List Diagnostic) (event : String) (detail : Text) :
    (detailsOf entries event).count detail = frequency entries event detail := by
  rw [detailsOf, List.count_eq_countP, List.countP_map, List.countP_filter, frequency]
  apply List.countP_congr
  intro entry _
  simp [and_comm]

theorem detailsOf_concat (entries : List Diagnostic) (last : Diagnostic) (event : String) :
    detailsOf (entries ++ [last]) event =
      if last.event = event then detailsOf entries event ++ [last.detail] else detailsOf entries event := by
  rw [detailsOf, List.filter_append, List.map_append, ← detailsOf]
  split
  next same => rw [List.filter_cons_of_pos (by simpa using same), List.filter_nil, List.map_singleton]
  next other =>
    rw [List.filter_cons_of_neg (by simpa using other), List.filter_nil, List.map_nil, List.append_nil]

theorem bump_tally (names : List Text) (last : Text) : bump last (tally names) = tally (names ++ [last]) := by
  rw [bump_eq]
  apply upsert_eraseDups
  · intro name _ other
    simp [List.count_append, other.symm]
  · intro _
    simp [List.count_append]
  · intro fresh
    simp [List.count_append, List.count_eq_zero.mpr fresh]

namespace Summary

theorem ofDiagnostics_concat (entries : List Diagnostic) (last : Diagnostic) :
    ofDiagnostics (entries ++ [last]) = (ofDiagnostics entries).add last := by
  rw [ofDiagnostics, List.foldl_append]
  rfl

/-- **A summary tells of each event** how often each of its details came up. -/
theorem ofDiagnostics_eq (entries : List Diagnostic) :
    ofDiagnostics entries =
      (entries.map Diagnostic.event).eraseDups.map fun event => (event, tally (detailsOf entries event)) := by
  induction entries using List.reverseRecOn with
  | nil => rfl
  | append_singleton entries last ih =>
    rw [ofDiagnostics_concat, add_eq, ih, List.map_append, List.map_singleton]
    apply upsert_eraseDups
    · intro event _ other
      rw [detailsOf_concat, if_neg (Ne.symm other)]
    · intro _
      rw [detailsOf_concat, if_pos rfl, bump_tally]
    · intro fresh
      have none : detailsOf entries last.event = [] := by
        rw [detailsOf, List.map_eq_nil_iff, List.filter_eq_nil_iff]
        intro entry mem is
        exact fresh (List.mem_map.mpr ⟨entry, mem, by simpa using is⟩)
      rw [detailsOf_concat, if_pos rfl, none, ← bump_tally]
      rfl

/-! ## Ranking -/

theorem ranked_perm (details : List (Text × Nat)) : (ranked details).Perm details :=
  List.mergeSort_perm details _

section

variable (details : List (Text × Nat))

theorem ranked_falls : (ranked details).Pairwise fun a b => b.2 ≤ a.2 :=
  pairwise_sorted (r := fun a b : Text × Nat => b.2 ≤ a.2) (fun first second => Nat.le_trans second first)
    (fun a b => Nat.le_total b.2 a.2) details

/-- Details that fall already stay as they are. -/
theorem ranked_of_falls (falls : details.Pairwise fun a b => b.2 ≤ a.2) : ranked details = details :=
  List.mergeSort_of_pairwise (falls.imp decide_eq_true)

theorem rankedAll_of_falls {summary : Summary}
    (falls : ∀ group ∈ summary, group.2.Pairwise fun a b => b.2 ≤ a.2) : summary.rankedAll = summary := by
  have same : ∀ group ∈ summary, (group.1, ranked group.2) = group := by
    intro group mem
    rw [ranked_of_falls group.2 (falls group mem)]
  exact (List.map_congr_left same).trans (List.map_id summary)

/-- Details of one count keep their order. -/
theorem filter_ranked (count : Nat) :
    (ranked details).filter (·.2 = count) = details.filter (·.2 = count) := by
  have equal : (details.filter (·.2 = count)).Pairwise fun a b => b.2 ≤ a.2 := by
    apply List.pairwise_of_forall_mem_list
    intro a first b second
    have ofFirst : a.2 = count := by simpa using (List.mem_filter.mp first).2
    have ofSecond : b.2 = count := by simpa using (List.mem_filter.mp second).2
    omega
  have kept : (details.filter (·.2 = count)).Sublist (ranked details) :=
    sublist_sorted (r := fun a b : Text × Nat => b.2 ≤ a.2) (fun first second => Nat.le_trans second first)
      (fun a b => Nat.le_total b.2 a.2) equal List.filter_sublist
  have among := kept.filter (·.2 = count)
  rw [List.filter_filter] at among
  simp only [Bool.and_self] at among
  exact (among.eq_of_length ((ranked_perm details).filter _).length_eq.symm).symm

end

/-! ## The listing -/

/-- The number of diagnostics that the counts of a summary add up to. -/
def total (summary : Summary) : Nat := (summary.map fun group => (group.2.map Prod.snd).sum).sum

/-- A summary lists an event and a detail with a count. -/
def Lists (summary : Summary) (event : String) (detail : Text) (count : Nat) : Prop :=
  ∃ details, (event, details) ∈ summary ∧ (detail, count) ∈ details

theorem sum_bump (name : Text) (counts : List (Text × Nat)) :
    ((bump name counts).map Prod.snd).sum = (counts.map Prod.snd).sum + 1 := by
  induction counts with
  | nil => rfl
  | cons first rest ih =>
    rw [bump]
    split
    · simp only [List.map_cons, List.sum_cons]
      omega
    · simp only [List.map_cons, List.sum_cons, ih]
      omega

/-- A diagnostic more is one more in all. -/
theorem total_add (entry : Diagnostic) (summary : Summary) : (summary.add entry).total = summary.total + 1 := by
  unfold total
  induction summary with
  | nil => rfl
  | cons first rest ih =>
    rw [add]
    split
    · simp only [List.map_cons, List.sum_cons, sum_bump]
      omega
    · simp only [List.map_cons, List.sum_cons, ih]
      omega

theorem total_ofDiagnostics (entries : List Diagnostic) : (ofDiagnostics entries).total = entries.length := by
  induction entries using List.reverseRecOn with
  | nil => rfl
  | append_singleton entries last ih =>
    rw [ofDiagnostics_concat, total_add, ih, List.length_append, List.length_singleton]

theorem total_rankedAll (summary : Summary) : summary.rankedAll.total = summary.total := by
  rw [total, total, rankedAll, List.map_map]
  congr 1
  apply List.map_congr_left
  intro group _
  exact ((ranked_perm group.2).map Prod.snd).sum_eq

/-- What the ranked counts of the details of an event tell. -/
structure Ranks (counts : List (Text × Nat)) (entries : List Diagnostic) (event : String) : Prop where
  /-- Each detail stands there once. -/
  once : (counts.map Prod.fst).Nodup
  /-- It stands there with the number of the diagnostics that have it, if there is one. -/
  counted : ∀ detail count,
    (detail, count) ∈ counts ↔ 0 < count ∧ count = frequency entries event detail
  /-- The counts fall. -/
  falling : counts.Pairwise fun a b => b.2 ≤ a.2
  /-- The details of one count are in the order in which they came up first. -/
  ties : ∀ count, (counts.filter (·.2 = count)).map Prod.fst =
    (detailsOf entries event).eraseDups.filter (frequency entries event · = count)

/-- What the listing of a summary tells of diagnostics. -/
structure Tells (listing : Summary) (entries : List Diagnostic) : Prop where
  /-- Each event stands there once, in the order in which the events came up first. -/
  events : listing.map Prod.fst = (entries.map Diagnostic.event).eraseDups
  /-- The details of each event are ranked. -/
  details : ∀ event counts, (event, counts) ∈ listing → Ranks counts entries event
  /-- The counts add up to the number of diagnostics. -/
  conserved : listing.total = entries.length

theorem mem_tally {names : List Text} {name : Text} {count : Nat} :
    (name, count) ∈ tally names ↔ 0 < count ∧ count = names.count name := by
  constructor
  · intro mem
    obtain ⟨_, among, is⟩ := List.mem_map.mp mem
    cases is
    exact ⟨List.count_pos_iff.mpr (List.mem_eraseDups.mp among), rfl⟩
  · rintro ⟨positive, rfl⟩
    exact List.mem_map.mpr ⟨name, List.mem_eraseDups.mpr (List.count_pos_iff.mp positive), rfl⟩

theorem map_fst_tally (names : List Text) : (tally names).map Prod.fst = names.eraseDups := by
  rw [tally, List.map_map]
  exact List.map_id _

theorem ranks_tally (entries : List Diagnostic) (event : String) :
    Ranks (ranked (tally (detailsOf entries event))) entries event where
  once := by
    refine (((ranked_perm _).map Prod.fst).nodup_iff).mpr ?_
    rw [map_fst_tally]
    exact nodup_eraseDups _
  counted detail count := by
    rw [(ranked_perm _).mem_iff, mem_tally, count_detailsOf]
  falling := ranked_falls _
  ties count := by
    rw [filter_ranked, tally, List.filter_map, List.map_map]
    simp only [Function.comp_def, count_detailsOf]
    exact List.map_id _

theorem mem_rankedAll {entries : List Diagnostic} {event : String} {counts : List (Text × Nat)} :
    (event, counts) ∈ (ofDiagnostics entries).rankedAll ↔
      event ∈ entries.map Diagnostic.event ∧ counts = ranked (tally (detailsOf entries event)) := by
  rw [rankedAll, ofDiagnostics_eq, List.map_map]
  constructor
  · intro mem
    obtain ⟨_, among, is⟩ := List.mem_map.mp mem
    cases is
    exact ⟨List.mem_eraseDups.mp among, rfl⟩
  · rintro ⟨among, rfl⟩
    exact List.mem_map.mpr ⟨event, List.mem_eraseDups.mpr among, rfl⟩

theorem tells_rankedAll (entries : List Diagnostic) : Tells (ofDiagnostics entries).rankedAll entries where
  events := by
    rw [rankedAll, ofDiagnostics_eq, List.map_map, List.map_map]
    exact List.map_id _
  details event counts mem := by
    obtain ⟨_, rfl⟩ := mem_rankedAll.mp mem
    exact ranks_tally entries event
  conserved := by rw [total_rankedAll, total_ofDiagnostics]

/-- A listing has exactly the counts that are not zero. -/
theorem lists_iff {entries : List Diagnostic} {event : String} {detail : Text} {count : Nat} :
    (ofDiagnostics entries).rankedAll.Lists event detail count ↔
      0 < count ∧ count = frequency entries event detail := by
  constructor
  · rintro ⟨counts, mem, among⟩
    exact (((tells_rankedAll entries).details event counts mem).counted detail count).mp among
  · rintro ⟨positive, rfl⟩
    obtain ⟨entry, mem, is⟩ := List.countP_pos_iff.mp positive
    have ofEvent : entry.event = event := (of_decide_eq_true is).1
    refine ⟨_, mem_rankedAll.mpr ⟨List.mem_map.mpr ⟨entry, mem, ofEvent⟩, rfl⟩, ?_⟩
    exact ((ranks_tally entries event).counted detail _).mpr ⟨positive, rfl⟩

/-- The order of the diagnostics changes no count. -/
theorem lists_of_perm {entries others : List Diagnostic} (perm : others.Perm entries) (event : String)
    (detail : Text) (count : Nat) :
    (ofDiagnostics others).rankedAll.Lists event detail count ↔
      (ofDiagnostics entries).rankedAll.Lists event detail count := by
  rw [lists_iff, lists_iff, frequency, frequency, perm.countP_eq]

/-! ## The table -/

/-- The rows of a listing, in its order. -/
def cells (listing : Summary) : List (String × String × Nat) :=
  listing.flatMap fun (event, details) => details.map fun (detail, count) => (event, detail.spelled, count)

/-- A listing with its events in ascending order. -/
structure Ordered (listing ordered : Summary) : Prop where
  /-- Nothing else changes. -/
  same : ordered.Perm listing
  /-- An event stands below the smaller ones. -/
  ascending : (ordered.map Prod.fst).Pairwise (· < ·)

/-- There is one order at most. -/
theorem Ordered.unique {listing ordered others : Summary} (is : Ordered listing ordered)
    (too : Ordered listing others) : ordered = others := by
  have first := List.pairwise_map.mp is.ascending
  have second := List.pairwise_map.mp too.ascending
  apply List.Perm.eq_of_pairwise _ first second (is.same.trans too.same.symm)
  intro a b _ _ below above
  exact absurd above (String.lt_asymm below)

theorem rows_eq (entries : List Diagnostic) :
    ∃ ordered, Ordered (ofDiagnostics entries).rankedAll ordered ∧ (ofDiagnostics entries).rows = cells ordered := by
  have same := (List.mergeSort_perm (ofDiagnostics entries) fun a b => decide (a.1 ≤ b.1)).map
    fun group => (group.1, ranked group.2)
  refine ⟨_, ⟨same, ?_⟩, ?_⟩
  · have distinct : ((ofDiagnostics entries).rankedAll.map Prod.fst).Nodup := by
      rw [(tells_rankedAll entries).events]
      exact nodup_eraseDups _
    have apart := (same.map Prod.fst).nodup_iff.mpr distinct
    have below := pairwise_sorted (r := fun a b : String × List (Text × Nat) => a.1 ≤ b.1) String.le_trans
      (fun a b => String.le_total a.1 b.1) (ofDiagnostics entries)
    rw [List.map_map, List.nodup_iff_pairwise_ne, List.pairwise_map] at apart
    rw [List.map_map, List.pairwise_map]
    apply (below.and apart).imp
    rintro a b ⟨atMost, differ⟩
    exact Std.lt_of_le_of_ne atMost differ
  · rw [rows, cells, List.flatMap_map]

/-- The command hands the rows to the console. -/
theorem run_summarizeLog {s : Surroundings} {base : String} {entries : List Diagnostic}
    (read : s.workspace.disk.readLog (.ofText base) = .ok entries) :
    (Command.summarizeLog base).run s = s.finish
      (if entries = [] then .done nothingFound else .drawn (s.console (ofDiagnostics entries).rows)) := by
  rw [Command.run, runSummary, read]

/-- **A summary loses and invents nothing.** Its listing tells how often each event and detail came up,
whatever the order of the diagnostics; and the command that shows it hands the console the rows of this
listing, with the events in ascending order. -/
theorem listing_of_entries (entries : List Diagnostic) :
    let listing := (ofDiagnostics entries).rankedAll
    Tells listing entries ∧
      (∀ event detail count,
        listing.Lists event detail count ↔ 0 < count ∧ count = frequency entries event detail) ∧
      (∀ others, others.Perm entries → ∀ event detail count,
        (ofDiagnostics others).rankedAll.Lists event detail count ↔ listing.Lists event detail count) ∧
      ∃ ordered, Ordered listing ordered ∧
        ∀ (s : Surroundings) (base : String), s.workspace.disk.readLog (.ofText base) = .ok entries →
          (Command.summarizeLog base).run s =
            s.finish (if entries = [] then .done nothingFound else .drawn (s.console (cells ordered))) := by
  obtain ⟨ordered, is, rows⟩ := rows_eq entries
  refine ⟨tells_rankedAll entries, fun _ _ _ => lists_iff, fun _ perm => lists_of_perm perm, ordered, is, ?_⟩
  intro s base read
  rw [run_summarizeLog read, rows]

/-- A run on a disk with a log. -/
def runOnLog (text : String) : Surroundings where
  workspace := ⟨.onlyLog text, ⟨1, ["home"]⟩⟩
  environment := []
  channel := .new true
  clock _ := "12:03"
  input := ""
  console := Table.console

theorem readLog_runOnLog {text : String} {entries : List Diagnostic}
    (lines : diagnosticsOf text.toList = entries) :
    (runOnLog text).workspace.disk.readLog (.ofText ".") = .ok entries := by
  rw [← lines]
  exact Disk.readLog_of_readBytes (Disk.readBytes_onlyLog text)

/-- Two details with one count stand in the order in which they came up, and the events of the table in
ascending order. -/
theorem listing_of_entries_tie :
    let s := runOnLog
      "12:00 | unmapped-type | b.B\n12:01 | unhandled-kind | x\n12:02 | unmapped-type | a.A\n"
    let entries : List Diagnostic :=
      [⟨"12:00", "unmapped-type", "b.B"⟩, ⟨"12:01", "unhandled-kind", "x"⟩, ⟨"12:02", "unmapped-type", "a.A"⟩]
    let listing : Summary := [("unmapped-type", [("b.B", 1), ("a.A", 1)]), ("unhandled-kind", [("x", 1)])]
    let w : Table.Widths := ⟨14, 6, 5⟩
    s.workspace.disk.readLog (.ofText ".") = .ok entries ∧
      (ofDiagnostics entries).rankedAll = listing ∧
      (Command.summarizeLog ".").run s = s.finish (.done (Table.framed w
        [Table.rowLine w "unhandled-kind" "x" "1", Table.rowLine w "unmapped-type" "b.B" "1",
          Table.rowLine w "unmapped-type" "a.A" "1"])) := by
  intro s entries listing w
  have read : s.workspace.disk.readLog (.ofText ".") = .ok entries := readLog_runOnLog (by decide +kernel)
  have listed : (ofDiagnostics entries).rankedAll = listing := by
    rw [show ofDiagnostics entries = listing by decide +kernel]
    exact rankedAll_of_falls (by decide +kernel)
  obtain ⟨-, -, -, ordered, is, runs⟩ := listing_of_entries entries
  have order : ordered = listing.reverse :=
    is.unique ⟨listed ▸ listing.reverse_perm, by decide +kernel⟩
  have rows : cells ordered =
      [("unhandled-kind", "x", 1), ("unmapped-type", "b.B", 1), ("unmapped-type", "a.A", 1)] := by
    rw [order]
    decide +kernel
  have plain : ∀ row ∈ cells ordered, Text.AllPlain row.1.toList ∧ Text.AllPlain row.2.1.toList := by
    rw [rows]
    decide +kernel
  have widths : Table.widths (cells ordered) = w := by
    rw [rows]
    rfl
  have drawn : s.console (cells ordered) = .ok (Table.draw (cells ordered)) := rfl
  refine ⟨read, listed, ?_⟩
  rw [runs s "." read, if_neg (List.cons_ne_nil _ _), drawn, Table.draw_of_plain plain, widths, rows]
  rfl

theorem rows_singleton (entry : Diagnostic) :
    (ofDiagnostics [entry]).rows = [(entry.event, entry.detail.spelled, 1)] := by
  simp [ofDiagnostics, add, rows, ranked]

/-- What a console draws need not be the detail that was counted: a detail with a bell in it is shown as
the one without, which the log does not have. -/
theorem shown_unlike_listing :
    let s := runOnLog "12:00 | unmapped-type | a\x07b\n"
    let entries : List Diagnostic := [⟨"12:00", "unmapped-type", "a\x07b"⟩]
    let listing := (ofDiagnostics entries).rankedAll
    let w : Table.Widths := ⟨13, 6, 5⟩
    s.workspace.disk.readLog (.ofText ".") = .ok entries ∧
      listing.Lists "unmapped-type" "a\x07b" 1 ∧ ¬listing.Lists "unmapped-type" "ab" 1 ∧
      ((Command.summarizeLog ".").run s).outcome.output =
        Table.framed w [Table.rowLine w "unmapped-type" "ab" "1"] := by
  intro s entries listing w
  have read : s.workspace.disk.readLog (.ofText ".") = .ok entries := readLog_runOnLog (by decide +kernel)
  have shown : Table.draw [("unmapped-type", Text.spelled "a\x07b", 1)] =
      Table.draw [("unmapped-type", "ab", 1)] := by decide +kernel
  have plain : ∀ row ∈ [("unmapped-type", "ab", 1)],
      Text.AllPlain row.1.toList ∧ Text.AllPlain row.2.1.toList := by decide +kernel
  have widths : Table.widths [("unmapped-type", "ab", 1)] = w := rfl
  have ran : ((Command.summarizeLog ".").run s).outcome.output =
      Table.draw [("unmapped-type", Text.spelled "a\x07b", 1)] := by
    rw [run_summarizeLog read, if_neg (List.cons_ne_nil _ _), rows_singleton]
    rfl
  refine ⟨read, lists_iff.mpr (by decide +kernel),
    fun lists => absurd (lists_iff.mp lists) (by decide +kernel), ?_⟩
  rw [ran, shown, Table.draw_of_plain plain, widths]
  rfl

end Summary

end HostDecl
