import HostDecl.Package.Naming
import HostDecl.Proofs.Parts
import Mathlib.Data.List.Induction

/-!
# The rows that name a package

A package name is a scope and a name, and each comes from the last row that has a say in it: the scope
from the last row of the module's group (`ScopeOf`), the name from the last row of the group that derives
one (`NameOf`). `Derives` says what a row derives from a module: its explicit name, or else the module's
name with or without the beginning that the row recognises.

**The law** (`packageName_of_last_rows`): the rows applied one after the other give the scope and the
name of these two rows. All else follows from it: rows of other groups do not count, wherever they stand,
and a table that is repeated names as it did.

A row that strips all of a module's name derives the empty name, which is no name: it leaves what earlier
rows derived, but it sets the scope.
-/

namespace HostDecl

/-! ## The last element with a property -/

section IsLast

variable {α : Type} {P : α → Prop}

/-- An element of a list with a property that no element behind it has. -/
def IsLast (P : α → Prop) (list : List α) (a : α) : Prop :=
  ∃ before behind, list = before ++ a :: behind ∧ P a ∧ ∀ b ∈ behind, ¬ P b

theorem IsLast.mem {list : List α} {a : α} (last : IsLast P list a) : a ∈ list := by
  obtain ⟨before, behind, rfl, -, -⟩ := last
  simp

theorem IsLast.holds {list : List α} {a : α} (last : IsLast P list a) : P a := by
  obtain ⟨-, -, -, holds, -⟩ := last
  exact holds

theorem forall_mem_concat {list : List α} {b : α} :
    (∀ a ∈ list ++ [b], P a) ↔ (∀ a ∈ list, P a) ∧ P b := by
  rw [List.forall_mem_append, List.forall_mem_singleton]

/-- The last element is in the second part of a list, or in the first if the second has none. -/
theorem isLast_append {front back : List α} {a : α} :
    IsLast P (front ++ back) a ↔ IsLast P back a ∨ (∀ b ∈ back, ¬ P b) ∧ IsLast P front a := by
  constructor
  · rintro ⟨before, behind, split, holds, none_behind⟩
    rcases List.append_eq_append_iff.mp split with
      ⟨middle, before_eq, back_eq⟩ | ⟨middle, front_eq, behind_eq⟩
    · exact .inl ⟨middle, behind, back_eq, holds, none_behind⟩
    · cases middle with
      | nil =>
        rw [List.nil_append] at behind_eq
        exact .inl ⟨[], behind, behind_eq.symm, holds, none_behind⟩
      | cons first middle =>
        rw [List.cons_append, List.cons.injEq] at behind_eq
        obtain ⟨rfl, rfl⟩ := behind_eq
        rw [List.forall_mem_append] at none_behind
        exact .inr ⟨none_behind.2, before, middle, front_eq, holds, none_behind.1⟩
  · rintro (⟨before, behind, rfl, holds, none_behind⟩ | ⟨none_back, before, behind, rfl, holds, none_behind⟩)
    · exact ⟨front ++ before, behind, (List.append_assoc ..).symm, holds, none_behind⟩
    · refine ⟨before, behind ++ back, List.append_assoc .., holds, ?_⟩
      rw [List.forall_mem_append]
      exact ⟨none_behind, none_back⟩

theorem isLast_singleton {a b : α} : IsLast P [b] a ↔ P b ∧ a = b := by
  constructor
  · intro last
    cases List.mem_singleton.mp last.mem
    exact ⟨last.holds, rfl⟩
  · rintro ⟨holds, rfl⟩
    exact ⟨[], [], rfl, holds, by simp⟩

theorem isLast_concat {list : List α} {a b : α} :
    IsLast P (list ++ [b]) a ↔ (P b ∧ a = b) ∨ ¬ P b ∧ IsLast P list a := by
  rw [isLast_append, isLast_singleton, List.forall_mem_singleton]

theorem IsLast.unique {list : List α} {a b : α} (first : IsLast P list a) (second : IsLast P list b) :
    a = b := by
  induction list using List.reverseRecOn with
  | nil => exact absurd first.mem List.not_mem_nil
  | append_singleton list last ih =>
    rcases isLast_concat.mp first with ⟨holds, rfl⟩ | ⟨fails, first⟩
    · rcases isLast_concat.mp second with ⟨-, rfl⟩ | ⟨fails, -⟩
      · rfl
      · exact absurd holds fails
    · rcases isLast_concat.mp second with ⟨holds, -⟩ | ⟨-, second⟩
      · exact absurd holds fails
      · exact ih first second

/-- A list that is repeated ends in the same element. -/
theorem isLast_repeated (list : List α) (count : Nat) (a : α) :
    IsLast P (List.replicate (count + 1) list).flatten a ↔ IsLast P list a := by
  induction count with
  | zero => simp
  | succ count ih =>
    rw [List.replicate_succ, List.flatten_cons, isLast_append, ih]
    constructor
    · rintro (last | ⟨none_repeated, last⟩)
      · exact last
      · exfalso
        refine none_repeated a ?_ last.holds
        exact (ih.mpr last).mem
    · exact .inl

end IsLast

/-! ## What a row derives -/

namespace PackageRow

/-- A row that has an explicit name for a module. -/
def Names (e : PackageRow) (moduleName name : Text) : Prop :=
  e.moduleName = some moduleName ∧ e.packageName = some name ∧ name ≠ ""

/-- What a row derives from the name of a module. -/
inductive Derives (e : PackageRow) (moduleName : Text) : Text → Prop
  | explicit {name : Text} (named : e.Names moduleName name) : Derives e moduleName name
  | stripped {start rest : Text} (unnamed : ∀ name, ¬ e.Names moduleName name)
    (recognised : e.modulePrefix = some start) (begins : moduleName = start ++ rest)
    (strips : e.stripsPrefix = true) : Derives e moduleName rest
  | whole {start rest : Text} (unnamed : ∀ name, ¬ e.Names moduleName name)
    (recognised : e.modulePrefix = some start) (begins : moduleName = start ++ rest)
    (keeps : e.stripsPrefix = false) : Derives e moduleName moduleName

variable {e : PackageRow} {moduleName : Text}

theorem explicitName_eq_iff {name : Text} (some_name : name ≠ "") :
    e.explicitName moduleName = name ↔ e.Names moduleName name := by
  unfold explicitName Names
  split
  next own given ownEq givenEq =>
    rw [ownEq, givenEq]
    split
    next same => simp [same, some_name]
    next other => simp [other, Ne.symm some_name]
  next missing =>
    constructor
    · intro empty
      exact absurd empty.symm some_name
    · rintro ⟨own, given, -⟩
      exact (missing _ _ own given).elim

theorem explicitName_eq_empty_iff :
    e.explicitName moduleName = "" ↔ ∀ name, ¬ e.Names moduleName name := by
  constructor
  · intro empty name named
    rw [(explicitName_eq_iff named.2.2).mpr named] at empty
    exact named.2.2 empty
  · intro unnamed
    by_contra some_name
    exact unnamed _ ((explicitName_eq_iff some_name).mp rfl)

/-- A text begins with another one if something is left behind it. -/
theorem isPrefixOf_points_iff {start t : Text} :
    start.points.isPrefixOf t.points = true ↔ ∃ rest : Text, t = start ++ rest := by
  rw [List.isPrefixOf_iff_prefix]
  constructor
  · rintro ⟨rest, points⟩
    refine ⟨⟨rest⟩, ?_⟩
    obtain ⟨_⟩ := t
    exact congrArg Text.mk points.symm
  · rintro ⟨rest, rfl⟩
    exact ⟨rest.points, rfl⟩

theorem drop_points_append (start rest : Text) :
    (⟨(start ++ rest).points.drop start.points.length⟩ : Text) = rest := by
  rw [Text.points_append, List.drop_left]

/-- A row derives at most one name that is not empty, and computes it. -/
theorem derives_iff {name : Text} (some_name : name ≠ "") :
    e.Derives moduleName name ↔ e.derivedName moduleName = name := by
  unfold derivedName
  constructor
  · intro derives
    cases derives with
    | explicit named =>
      have given := (explicitName_eq_iff some_name).mpr named
      rw [given, if_neg some_name]
    | @stripped start _ unnamed recognised begins strips =>
      rw [if_pos (explicitName_eq_empty_iff.mpr unnamed), prefixName, recognised]
      dsimp only
      rw [if_pos (isPrefixOf_points_iff.mpr ⟨_, begins⟩), if_pos strips, begins, drop_points_append]
    | @whole start rest unnamed recognised begins keeps =>
      rw [if_pos (explicitName_eq_empty_iff.mpr unnamed), prefixName, recognised]
      dsimp only
      rw [if_pos (isPrefixOf_points_iff.mpr ⟨_, begins⟩), if_neg (Bool.eq_false_iff.mp keeps)]
  · split
    next unnamed =>
      rw [explicitName_eq_empty_iff] at unnamed
      unfold prefixName
      split
      next => exact fun empty => absurd empty.symm some_name
      next start recognised =>
        split
        next begins =>
          obtain ⟨rest, begins⟩ := isPrefixOf_points_iff.mp begins
          split
          next strips =>
            rw [begins, drop_points_append]
            rintro rfl
            exact begins ▸ .stripped unnamed recognised begins strips
          next keeps =>
            rintro rfl
            exact .whole unnamed recognised begins (Bool.eq_false_iff.mpr keeps)
        next => exact fun empty => absurd empty.symm some_name
    next => exact fun given => .explicit ((explicitName_eq_iff some_name).mp given)

/-- A row that sets the scope of a module. -/
def Scopes (e : PackageRow) (m : HostModule) : Prop := e.group = m.group

/-- A row that sets the name of a module. -/
def SetsName (e : PackageRow) (m : HostModule) : Prop :=
  e.group = m.group ∧ ∃ name, e.Derives m.name name ∧ name ≠ ""

theorem setsName_iff {m : HostModule} :
    e.SetsName m ↔ e.group = m.group ∧ e.derivedName m.name ≠ "" := by
  apply and_congr_right'
  constructor
  · rintro ⟨name, derives, some_name⟩
    rw [(derives_iff some_name).mp derives]
    exact some_name
  · intro some_name
    exact ⟨_, (derives_iff some_name).mpr rfl, some_name⟩

end PackageRow

/-! ## Applying the rows -/

/-- The scope that rows give to a module. -/
inductive ScopeOf (rows : List PackageRow) (m : HostModule) : Text → Prop
  | last {e : PackageRow} (last : IsLast (PackageRow.Scopes · m) rows e) : ScopeOf rows m e.scope
  | absent (others : ∀ e ∈ rows, ¬ e.Scopes m) : ScopeOf rows m ""

/-- The name that rows give to a module. -/
inductive NameOf (rows : List PackageRow) (m : HostModule) : Text → Prop
  | last {e : PackageRow} {name : Text} (last : IsLast (PackageRow.SetsName · m) rows e)
    (derives : e.Derives m.name name) (some_name : name ≠ "") : NameOf rows m name
  | absent (others : ∀ e ∈ rows, ¬ e.SetsName m) : NameOf rows m m.name

theorem ScopeOf.unique {rows : List PackageRow} {m : HostModule} {one other : Text}
    (first : ScopeOf rows m one) (second : ScopeOf rows m other) : one = other := by
  cases first with
  | last last =>
    cases second with
    | last again => rw [last.unique again]
    | absent others => exact absurd last.holds (others _ last.mem)
  | absent others =>
    cases second with
    | last last => exact absurd last.holds (others _ last.mem)
    | absent => rfl

/-- A row of another group leaves the scope. -/
theorem ScopeOf.concat {rows : List PackageRow} {m : HostModule} {scope : Text} {e : PackageRow}
    (given : ScopeOf rows m scope) (other : ¬ e.Scopes m) : ScopeOf (rows ++ [e]) m scope := by
  cases given with
  | last last => exact .last (isLast_concat.mpr (.inr ⟨other, last⟩))
  | absent others =>
    apply ScopeOf.absent
    exact forall_mem_concat.mpr ⟨others, other⟩

theorem NameOf.unique {rows : List PackageRow} {m : HostModule} {one other : Text}
    (first : NameOf rows m one) (second : NameOf rows m other) : one = other := by
  cases first with
  | last last derives some_name =>
    cases second with
    | last again derivesAgain some_other =>
      cases last.unique again
      rw [← (PackageRow.derives_iff some_name).mp derives,
        (PackageRow.derives_iff some_other).mp derivesAgain]
    | absent others => exact absurd last.holds (others _ last.mem)
  | absent others =>
    cases second with
    | last last => exact absurd last.holds (others _ last.mem)
    | absent => rfl

/-- The rows of a table that is repeated are the rows of the table. -/
theorem forall_mem_repeated {α : Type} {P : α → Prop} {list : List α} (each : ∀ a ∈ list, P a)
    (count : Nat) : ∀ a ∈ (List.replicate count list).flatten, P a := by
  intro a mem
  obtain ⟨_, copied, mem⟩ := List.mem_flatten.mp mem
  cases List.eq_of_mem_replicate copied
  exact each a mem

theorem ScopeOf.repeated {rows : List PackageRow} {m : HostModule} {scope : Text}
    (given : ScopeOf rows m scope) (count : Nat) :
    ScopeOf (List.replicate (count + 1) rows).flatten m scope := by
  cases given with
  | last last => exact .last ((isLast_repeated rows count _).mpr last)
  | absent others => exact .absent (forall_mem_repeated others _)

theorem NameOf.repeated {rows : List PackageRow} {m : HostModule} {name : Text}
    (given : NameOf rows m name) (count : Nat) :
    NameOf (List.replicate (count + 1) rows).flatten m name := by
  cases given with
  | last last derives some_name =>
    exact .last ((isLast_repeated rows count _).mpr last) derives some_name
  | absent others => exact .absent (forall_mem_repeated others _)

namespace Naming

variable {rows : List PackageRow} {m : HostModule} {n : Naming}

/-- A scope and a name that stand for the rows that were applied. -/
structure Follows (rows : List PackageRow) (m : HostModule) (n : Naming) : Prop where
  scope : ScopeOf rows m n.scope
  unnamed : n.name = "" → ∀ e ∈ rows, ¬ e.SetsName m
  named : n.name ≠ "" → ∃ e, IsLast (PackageRow.SetsName · m) rows e ∧ e.Derives m.name n.name

theorem Follows.start (m : HostModule) : Follows [] m ⟨"", ""⟩ :=
  ⟨.absent (by simp), by simp, fun some_name => absurd rfl some_name⟩

theorem Follows.step (follows : Follows rows m n) (e : PackageRow) :
    Follows (rows ++ [e]) m (Naming.step m n e) := by
  unfold Naming.step
  by_cases group : e.group = m.group
  · rw [if_pos group]
    have scope : ScopeOf (rows ++ [e]) m e.scope := .last (isLast_concat.mpr (.inl ⟨group, rfl⟩))
    by_cases nothing : e.derivedName m.name = ""
    · -- The row sets the scope only.
      have silent : ¬ e.SetsName m := by
        rw [PackageRow.setsName_iff]
        exact fun sets => sets.2 nothing
      simp only [if_pos nothing]
      refine ⟨scope, ?_, ?_⟩
      · intro empty
        exact forall_mem_concat.mpr ⟨follows.unnamed empty, silent⟩
      · intro some_name
        obtain ⟨named, last, derives⟩ := follows.named some_name
        exact ⟨named, isLast_concat.mpr (.inr ⟨silent, last⟩), derives⟩
    · have sets : e.SetsName m := PackageRow.setsName_iff.mpr ⟨group, nothing⟩
      simp only [if_neg nothing]
      refine ⟨scope, fun empty => absurd empty nothing, ?_⟩
      intro some_name
      exact ⟨e, isLast_concat.mpr (.inl ⟨sets, rfl⟩), (PackageRow.derives_iff some_name).mpr rfl⟩
  · rw [if_neg group]
    have silent : ¬ e.SetsName m := fun sets => group sets.1
    refine ⟨follows.scope.concat group, ?_, ?_⟩
    · intro empty
      exact forall_mem_concat.mpr ⟨follows.unnamed empty, silent⟩
    · intro some_name
      obtain ⟨named, last, derives⟩ := follows.named some_name
      exact ⟨named, isLast_concat.mpr (.inr ⟨silent, last⟩), derives⟩

theorem Follows.foldl (rows : List PackageRow) (m : HostModule) :
    Follows rows m (rows.foldl (Naming.step m) ⟨"", ""⟩) := by
  induction rows using List.reverseRecOn with
  | nil => exact .start m
  | append_singleton rows e ih =>
    rw [List.foldl_append]
    exact ih.step e

end Naming

namespace PackageRules

/-- The rows give a scope and a name, of which the package name is made. -/
theorem exists_packageName (r : PackageRules) (m : HostModule) :
    ∃ scope name, ScopeOf r.rows m scope ∧ NameOf r.rows m name ∧
      r.packageName m = scope ++ name := by
  have follows := Naming.Follows.foldl r.rows m
  refine ⟨_, _, follows.scope, ?_, rfl⟩
  split
  next empty => exact .absent (follows.unnamed empty)
  next some_name =>
    obtain ⟨e, last, derives⟩ := follows.named some_name
    exact .last last derives some_name

theorem packageName_eq {r : PackageRules} {m : HostModule} {scope name : Text}
    (scopeGiven : ScopeOf r.rows m scope) (nameGiven : NameOf r.rows m name) :
    r.packageName m = scope ++ name := by
  obtain ⟨_, _, scopeAgain, nameAgain, made⟩ := r.exists_packageName m
  rw [made, scopeGiven.unique scopeAgain, nameGiven.unique nameAgain]

/-- Rows of other groups have no part in a name. -/
theorem packageName_filter (r : PackageRules) (m : HostModule) :
    packageName { r with rows := r.rows.filter (·.group = m.group) } m = r.packageName m := by
  have skips : (fun n (e : PackageRow) => if decide (e.group = m.group) then Naming.step m n e else n) =
      Naming.step m := by
    funext n e
    by_cases group : e.group = m.group
    · simp only [group, decide_true, if_true]
    · simp only [Naming.step, group, decide_false, if_false, Bool.false_eq_true]
  simp only [packageName, List.foldl_filter, skips]

/-- The package name of a module is the scope of the last row of its group and the name that the last row
that derives one derives, or the module's own name. So rows of other groups do not count, and a table
that is repeated names as it did; a row that sets the scope behind one that sets the name leaves the
name; and a module that has a name has one behind the scope. -/
theorem packageName_of_last_rows (r : PackageRules) (m : HostModule) :
    (∀ text, r.packageName m = text ↔
      ∃ scope name, ScopeOf r.rows m scope ∧ NameOf r.rows m name ∧ text = scope ++ name) ∧
    (∀ other : PackageRules,
      other.rows.filter (·.group = m.group) = r.rows.filter (·.group = m.group) →
        other.packageName m = r.packageName m) ∧
    (∀ count, packageName { r with rows := (List.replicate (count + 1) r.rows).flatten } m =
      r.packageName m) ∧
    (∀ (e f : PackageRow) (name : Text), e.group = m.group → e.Derives m.name name → name ≠ "" →
      f.group = m.group →
      ¬ f.SetsName m →
        packageName { r with rows := r.rows ++ [e] ++ [f] } m = f.scope ++ name) ∧
    (m.name ≠ "" → ∀ name, NameOf r.rows m name → name ≠ "") := by
  refine ⟨?law, ?others, ?repeated, ?apart, ?named⟩
  case law =>
    intro text
    constructor
    · rintro rfl
      exact r.exists_packageName m
    · rintro ⟨scope, name, scopeGiven, nameGiven, rfl⟩
      exact packageName_eq scopeGiven nameGiven
  case others =>
    intro other same
    rw [← packageName_filter r, ← packageName_filter other, same]
    rfl
  case repeated =>
    intro count
    obtain ⟨scope, name, scopeGiven, nameGiven, made⟩ := r.exists_packageName m
    rw [made]
    exact packageName_eq (scopeGiven.repeated count) (nameGiven.repeated count)
  case apart =>
    intro e f name group derives some_name groupBehind silent
    apply packageName_eq
    · exact .last (isLast_concat.mpr (.inl ⟨groupBehind, rfl⟩))
    · refine .last (isLast_concat.mpr (.inr ⟨silent, ?_⟩)) derives some_name
      exact isLast_concat.mpr (.inl ⟨⟨group, name, derives, some_name⟩, rfl⟩)
  case named =>
    intro some_name name given
    cases given with
    | last _ _ some_derived => exact some_derived
    | absent => exact some_name

/-- A row that names one module. -/
def namingRow : PackageRow := ⟨"io.vertx", "@first/", none, false, some "vertx-core", some "alpha"⟩

/-- A row with a scope that strips all of a module's name. -/
def strippingRow : PackageRow := ⟨"io.vertx", "@second/", some "vertx-core", true, none, none⟩

/-- The scope comes from one row and the name from the other. -/
theorem packageName_of_last_rows_apart :
    namingRow.Derives "vertx-core" "alpha" ∧
      ¬ strippingRow.SetsName ⟨"vertx-core", "io.vertx"⟩ ∧
      packageName ⟨[namingRow, strippingRow], [], []⟩ ⟨"vertx-core", "io.vertx"⟩ =
        "@second/" ++ ("alpha" : Text) := by
  have derives : namingRow.Derives "vertx-core" "alpha" := .explicit ⟨rfl, rfl, by decide⟩
  have silent : ¬ strippingRow.SetsName ⟨"vertx-core", "io.vertx"⟩ := by
    rw [PackageRow.setsName_iff]
    decide
  refine ⟨derives, silent, ?_⟩
  obtain ⟨-, -, -, apart, -⟩ := packageName_of_last_rows ⟨[], [], []⟩ ⟨"vertx-core", "io.vertx"⟩
  exact apart namingRow strippingRow "alpha" rfl derives (by decide) rfl silent

end PackageRules

end HostDecl
