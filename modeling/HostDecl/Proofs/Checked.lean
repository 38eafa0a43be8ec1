import HostDecl.Validation
import Mathlib.Data.List.Forall2

/-!
# Accepted values

When the combinators of validation accept. Each one is read backwards: an accepted whole gives the
accepted parts that it was made of. What a refused value reports is what its parts report, in their
order; and none of the combinators refuses without an issue if its parts do not.
-/

namespace HostDecl.Checked

variable {α β : Type}

/-- A function of a checked value is accepted with its argument. -/
theorem map_eq_valid {f : α → β} {c : Checked α} {b : β} :
    c.map f = .valid b ↔ ∃ a, c = .valid a ∧ f a = b := by
  cases c with
  | valid a => simp [map]
  | invalid issues => simp [map]

/-- An application is accepted where both its sides are. -/
theorem ap_eq_valid {c : Checked (α → β)} {x : Checked α} {b : β} :
    c.ap x = .valid b ↔ ∃ f a, c = .valid f ∧ x = .valid a ∧ f a = b := by
  cases c with
  | valid f => cases x <;> simp [ap]
  | invalid issues => cases x <;> simp [ap]

/-- One step further out the same values are accepted. -/
theorem under_eq_valid {step : Step} {c : Checked α} {a : α} :
    c.under step = .valid a ↔ c = .valid a := by
  cases c <;> simp [under]

/-- Items are accepted one by one. -/
theorem cons_eq_valid {i : Nat} {head : Checked α} {tail : Checked (List α)} {items : List α} :
    cons i head tail = .valid items ↔
      ∃ a rest, head = .valid a ∧ tail = .valid rest ∧ a :: rest = items := by
  rw [cons, ap_eq_valid]
  constructor
  · rintro ⟨_, rest, headed, tailed, rfl⟩
    obtain ⟨a, accepted, rfl⟩ := map_eq_valid.mp headed
    exact ⟨a, rest, under_eq_valid.mp accepted, tailed, rfl⟩
  · rintro ⟨a, rest, rfl, rfl, rfl⟩
    exact ⟨List.cons a, rest, rfl, rfl, rfl⟩

/-- A further rule accepts the accepted values that meet it. -/
theorem also_eq_valid {rule : α → Option Text} {c : Checked α} {a : α} :
    c.also rule = .valid a ↔ c = .valid a ∧ rule a = none := by
  cases c with
  | invalid issues => simp [also]
  | valid value =>
    cases broken : rule value with
    | none =>
      simp only [also, broken, valid.injEq]
      exact ⟨fun same => ⟨same, same ▸ broken⟩, And.left⟩
    | some text =>
      simp only [also, broken, refuse, reduceCtorEq, valid.injEq, false_iff, not_and]
      rintro rfl
      simp [broken]

/-- A required field is accepted where it is there and its value is accepted. -/
theorem required_eq_valid {key : Text} {read : Json → Checked α} {members : List (Text × Json)}
    {a : α} :
    Json.required key read members = .valid a ↔
      ∃ value, Json.member? key members = some value ∧ read value = .valid a := by
  unfold Json.required
  cases Json.member? key members with
  | none => simp
  | some value => simp [under_eq_valid]

/-- A field with a default is accepted where it is absent, and where its value is accepted. -/
theorem optional_eq_valid {key : Text} {default : α} {read : Json → Checked α}
    {members : List (Text × Json)} {a : α} :
    Json.optional key default read members = .valid a ↔
      (Json.member? key members = none ∧ default = a) ∨
        ∃ value, Json.member? key members = some value ∧ read value = .valid a := by
  unfold Json.optional
  cases Json.member? key members with
  | none => simp
  | some value => simp [under_eq_valid]

/-- A field that is there is accepted where its value is. -/
theorem optional_eq_valid_iff {key : Text} {default : α} {read : Json → Checked α}
    {members : List (Text × Json)} {value : Json} {a : α}
    (found : Json.member? key members = some value) :
    Json.optional key default read members = .valid a ↔ read value = .valid a := by
  rw [Json.optional, found]
  exact under_eq_valid

/-- A field with a default is accepted unless it is there and its value is refused. -/
theorem exists_optional_eq_valid {key : Text} (default : α) {read : Json → Checked α}
    {members : List (Text × Json)} :
    (∃ a, Json.optional key default read members = .valid a) ↔
      ∀ value, Json.member? key members = some value → ∃ a, read value = .valid a := by
  simp only [optional_eq_valid]
  cases Json.member? key members with
  | none => simp
  | some value => simp

/-- Items are accepted together where they are one by one. -/
theorem readItems_eq_valid {read : Json → Checked α} {i : Nat} {items : List Json}
    {results : List α} :
    Json.readItems read i items = .valid results ↔
      List.Forall₂ (fun item result => read item = .valid result) items results := by
  induction items generalizing i results with
  | nil => simp [Json.readItems, List.forall₂_nil_left_iff, eq_comm]
  | cons item rest ih =>
    rw [Json.readItems, cons_eq_valid, List.forall₂_cons_left_iff]
    simp only [ih, eq_comm]

/-- Arrays are read alike where their items are. -/
theorem readItems_congr {read : Json → Checked α} {items others : List Json}
    (alike : List.Forall₂ (fun item other => read item = read other) items others) (i : Nat) :
    Json.readItems read i items = Json.readItems read i others := by
  induction alike generalizing i with
  | nil => rfl
  | cons same _ ih => rw [Json.readItems, Json.readItems, same, ih]

theorem exists_readItems_eq_valid {read : Json → Checked α} {i : Nat} {items : List Json} :
    (∃ results, Json.readItems read i items = .valid results) ↔
      ∀ item ∈ items, ∃ result, read item = .valid result := by
  simp only [readItems_eq_valid]
  induction items with
  | nil => simp
  | cons item rest ih => simp [List.forall₂_cons_left_iff, ← ih]

/-- Texts written one by one are read back. -/
theorem readItems_map_str (i : Nat) (texts : List Text) :
    Json.readItems Json.readText i (texts.map Json.str) = .valid texts := by
  induction texts generalizing i with
  | nil => rfl
  | cons t rest ih => exact cons_eq_valid.mpr ⟨t, rest, rfl, ih (i + 1), rfl⟩

/-! ## Issues -/

theorem issues_map (f : α → β) (c : Checked α) : (c.map f).issues = c.issues := by
  cases c <;> rfl

theorem issues_under (step : Step) (c : Checked α) :
    (c.under step).issues =
      c.issues.map fun issue => ⟨step :: issue.location, issue.problem⟩ := by
  cases c <;> rfl

/-- An application has the issues of both its sides. -/
theorem issues_ap (c : Checked (α → β)) (x : Checked α) : (c.ap x).issues = c.issues ++ x.issues := by
  cases c <;> cases x <;> simp [ap, issues]

/-- Items have the issues of each of them, seen from its index. -/
theorem issues_readItems (read : Json → Checked α) (i : Nat) (items : List Json) :
    (Json.readItems read i items).issues =
      (items.zipIdx i).flatMap fun (item, j) => ((read item).under (.index j)).issues := by
  induction items generalizing i with
  | nil => rfl
  | cons item rest ih =>
    rw [Json.readItems, cons, issues_ap, issues_map, ih, List.zipIdx_cons, List.flatMap_cons]

/-- What is not accepted is refused with its issues. -/
theorem eq_invalid_issues {c : Checked α} (refused : ∀ a, c ≠ .valid a) : c = .invalid c.issues := by
  cases c with
  | valid a => exact absurd rfl (refused a)
  | invalid issues => rfl

/-- What has an issue is refused. -/
theorem eq_invalid_of_issues {c : Checked α} {issue : Issue} {rest : List Issue}
    (found : c.issues = issue :: rest) : c = .invalid (issue :: rest) := by
  cases c with
  | valid a => cases found
  | invalid issues => exact congrArg invalid found

theorem valid_ne_invalid_nil (a : α) : Checked.valid a ≠ .invalid [] := by simp

theorem refuse_ne_invalid_nil (problem : Problem) : (refuse problem : Checked α) ≠ .invalid [] := by
  simp [refuse]

theorem map_eq_invalid_nil {f : α → β} {c : Checked α} :
    c.map f = .invalid [] ↔ c = .invalid [] := by
  cases c <;> simp [map]

theorem under_eq_invalid_nil {step : Step} {c : Checked α} :
    c.under step = .invalid [] ↔ c = .invalid [] := by
  cases c <;> simp [under]

theorem ap_ne_invalid_nil {c : Checked (α → β)} {x : Checked α} (function : c ≠ .invalid [])
    (argument : x ≠ .invalid []) : c.ap x ≠ .invalid [] := by
  cases c <;> cases x <;> simp_all [ap]

theorem also_ne_invalid_nil {rule : α → Option Text} {c : Checked α} (value : c ≠ .invalid []) :
    c.also rule ≠ .invalid [] := by
  cases c with
  | invalid issues => exact value
  | valid a =>
    rw [also]
    split
    next => exact valid_ne_invalid_nil a
    next => exact refuse_ne_invalid_nil _

theorem required_ne_invalid_nil {key : Text} {read : Json → Checked α}
    (each : ∀ value, read value ≠ .invalid []) (members : List (Text × Json)) :
    Json.required key read members ≠ .invalid [] := by
  rw [Json.required]
  split
  next value _ => exact mt under_eq_invalid_nil.mp (each value)
  next => simp

theorem optional_ne_invalid_nil {key : Text} {default : α} {read : Json → Checked α}
    {members : List (Text × Json)}
    (each : ∀ value, Json.member? key members = some value → read value ≠ .invalid []) :
    Json.optional key default read members ≠ .invalid [] := by
  rw [Json.optional]
  split
  next value found => exact mt under_eq_invalid_nil.mp (each value found)
  next => exact valid_ne_invalid_nil default

theorem readOptional_ne_invalid_nil {read : Json → Checked α}
    (each : ∀ value, read value ≠ .invalid []) (value : Json) :
    Json.readOptional read value ≠ .invalid [] := by
  unfold Json.readOptional
  split
  next => exact valid_ne_invalid_nil none
  next => exact mt map_eq_invalid_nil.mp (each value)

theorem readItems_ne_invalid_nil {read : Json → Checked α} {items : List Json}
    (each : ∀ item ∈ items, read item ≠ .invalid []) (i : Nat) :
    Json.readItems read i items ≠ .invalid [] := by
  induction items generalizing i with
  | nil => exact valid_ne_invalid_nil []
  | cons item rest ih =>
    obtain ⟨first, others⟩ := List.forall_mem_cons.mp each
    refine ap_ne_invalid_nil (mt map_eq_invalid_nil.mp ?_) (ih others (i + 1))
    exact mt under_eq_invalid_nil.mp first

theorem readList_ne_invalid_nil {read : Json → Checked α}
    (each : ∀ value, read value ≠ .invalid []) (value : Json) :
    Json.readList read value ≠ .invalid [] := by
  unfold Json.readList
  split
  next => exact readItems_ne_invalid_nil (fun item _ => each item) 0
  next => exact refuse_ne_invalid_nil _

end HostDecl.Checked
