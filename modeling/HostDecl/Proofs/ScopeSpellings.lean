import HostDecl.Proofs.DescriptorValues
import HostDecl.Proofs.PackageNames
import HostDecl.Settings.Basic

/-!
# Spellings of a scope

A scope is kept in one form (`IsKeptScope`), however a row spells it: with or without the sign in front and
the slash behind. What is kept as it is, is what has this form, so a row that is written and read again is the
same row.

**The law** (`rows_kept_once`): around a name that has neither mark itself, the four spellings are those that
are kept as the sign, the name and the slash. Package tables that differ only in how they spell such scopes are
read alike, issue for issue, and name every package alike.

**What it does not establish.** A name that begins with a sign or ends in a slash is not spelled in four ways:
the scope around `@x` is written `@@x/`, and `@x` alone is a spelling of the scope around `x`.
-/

namespace HostDecl

/-! ## Ends of texts -/

namespace Text

/-- Texts begin with a character if it stands in front of what is left of them. -/
theorem head?_eq_char_iff {t : Text} {c : Char} :
    t.points.head? = some (.char c) ↔ ∃ rest : Text, t = ofChars [c] ++ rest := by
  obtain ⟨points⟩ := t
  constructor
  · intro first
    obtain ⟨rest, rfl⟩ := List.head?_eq_some_iff.mp first
    exact ⟨⟨rest⟩, rfl⟩
  · rintro ⟨rest, same⟩
    rw [same]
    rfl

/-- Texts end in a character if it stands behind what is left of them. -/
theorem getLast?_eq_char_iff {t : Text} {c : Char} :
    t.points.getLast? = some (.char c) ↔ ∃ front : Text, t = front ++ ofChars [c] := by
  obtain ⟨points⟩ := t
  constructor
  · intro last
    obtain ⟨front, rfl⟩ := List.getLast?_eq_some_iff.mp last
    exact ⟨⟨front⟩, rfl⟩
  · rintro ⟨front, same⟩
    rw [same, points_append]
    exact List.getLast?_concat

theorem append_ne_empty {a b : Text} (some_text : a ≠ "") : a ++ b ≠ "" := by
  obtain ⟨points⟩ := a
  intro empty
  apply some_text
  exact congrArg Text.mk (List.append_eq_nil_iff.mp (congrArg Text.points empty)).1

/-- Text behind another one hides what the other one ends in. -/
theorem getLast?_append {a b : Text} (some_text : b ≠ "") :
    (a ++ b).points.getLast? = b.points.getLast? := by
  obtain ⟨points⟩ := b
  have some_point : points ≠ [] := fun none => some_text (congrArg Text.mk none)
  exact List.getLast?_append_of_ne_nil a.points some_point

/-- Text in front of another one hides what the other one begins with. -/
theorem head?_append {a b : Text} (some_text : a ≠ "") :
    (a ++ b).points.head? = a.points.head? := by
  obtain ⟨points⟩ := a
  have some_point : points ≠ [] := fun none => some_text (congrArg Text.mk none)
  exact List.head?_append_of_ne_nil points some_point

end Text

/-! ## Scopes -/

/-- The form of scopes that are kept: nothing, or from an at sign to a slash. -/
def IsKeptScope (scope : Text) : Prop := scope = "" ∨ ∃ inner : Text, scope = "@" ++ inner ++ "/"

/-- A name without the marks of a scope at its ends. -/
structure IsScopeName (name : Text) : Prop where
  some_name : name ≠ ""
  noSign : name.points.head? ≠ some (.char '@')
  noSlash : name.points.getLast? ≠ some (.char '/')

/-- The spellings of the scope around a name. -/
inductive SpellsScope (name : Text) : Text → Prop
  | bare : SpellsScope name name
  | signed : SpellsScope name ("@" ++ name)
  | ended : SpellsScope name (name ++ "/")
  | whole : SpellsScope name ("@" ++ name ++ "/")

/-- A scope with a sign in front if it has none. -/
def withSign (scope : Text) : Text := if scope.points.head? = some (.char '@') then scope else "@" ++ scope

/-- A scope with a slash behind if it has none. -/
def withSlash (scope : Text) : Text := if scope.points.getLast? = some (.char '/') then scope else scope ++ "/"

theorem normalScope_eq {scope : Text} (some_scope : scope ≠ "") :
    normalScope scope = withSlash (withSign scope) := by
  rw [normalScope, if_neg some_scope]
  rfl

theorem withSign_sign (rest : Text) : withSign ("@" ++ rest) = "@" ++ rest :=
  if_pos (Text.head?_eq_char_iff.mpr ⟨rest, rfl⟩)

theorem withSlash_slash (front : Text) : withSlash (front ++ "/") = front ++ "/" :=
  if_pos (Text.getLast?_eq_char_iff.mpr ⟨front, rfl⟩)

theorem withSign_cases (scope : Text) :
    ∃ rest, withSign scope = "@" ++ rest ∧ (scope = rest ∨ scope = "@" ++ rest) := by
  by_cases signed : scope.points.head? = some (.char '@')
  · obtain ⟨rest, rfl⟩ := Text.head?_eq_char_iff.mp signed
    exact ⟨rest, withSign_sign rest, .inr rfl⟩
  · exact ⟨scope, if_neg signed, .inl rfl⟩

theorem withSlash_cases (scope : Text) :
    ∃ front, withSlash scope = front ++ "/" ∧ (scope = front ∨ scope = front ++ "/") := by
  by_cases ended : scope.points.getLast? = some (.char '/')
  · obtain ⟨front, rfl⟩ := Text.getLast?_eq_char_iff.mp ended
    exact ⟨front, withSlash_slash front, .inr rfl⟩
  · exact ⟨scope, if_neg ended, .inl rfl⟩

/-- Every scope spells what it is kept as. -/
theorem exists_spells {scope : Text} (some_scope : scope ≠ "") :
    ∃ name, normalScope scope = "@" ++ name ++ "/" ∧ SpellsScope name scope := by
  rw [normalScope_eq some_scope]
  obtain ⟨rest, signed, spelled⟩ := withSign_cases scope
  obtain ⟨front, ended, same⟩ := withSlash_cases (withSign scope)
  rw [ended]
  rcases same with same | same
  · -- the slash is put behind
    obtain rfl : front = "@" ++ rest := same.symm.trans signed
    refine ⟨rest, rfl, ?_⟩
    rcases spelled with rfl | rfl
    · exact .bare
    · exact .signed
  · -- the slash is there, and it is not the sign
    obtain ⟨name, rfl, rfl⟩ : ∃ name : Text, front = "@" ++ name ∧ rest = name ++ "/" := by
      have split : CodePoint.char '@' :: rest.points = front.points ++ [.char '/'] :=
        congrArg Text.points (signed.symm.trans same)
      rcases List.cons_eq_append_iff.mp split with ⟨-, slash⟩ | ⟨points, front_eq, rest_eq⟩
      · exact absurd (List.cons.inj slash).1 (by decide)
      · exact ⟨⟨points⟩, congrArg Text.mk front_eq, congrArg Text.mk rest_eq⟩
    refine ⟨name, rfl, ?_⟩
    rcases spelled with rfl | rfl
    · exact .ended
    · exact .whole

theorem normalScope_kept (inner : Text) : normalScope ("@" ++ inner ++ "/") = "@" ++ inner ++ "/" := by
  have some_scope : ("@" : Text) ++ inner ++ "/" ≠ "" :=
    Text.append_ne_empty (Text.append_ne_empty (by decide))
  rw [normalScope_eq some_scope, Text.append_assoc, withSign_sign, ← Text.append_assoc, withSlash_slash]

/-- What is kept of a scope has the form of kept scopes. -/
theorem isKeptScope_normalScope (scope : Text) : IsKeptScope (normalScope scope) := by
  by_cases empty : scope = ""
  · rw [empty]
    exact .inl rfl
  · obtain ⟨name, kept, -⟩ := exists_spells empty
    exact .inr ⟨name, kept⟩

/-- The scopes that are kept as they are. -/
theorem normalScope_eq_self_iff {scope : Text} : normalScope scope = scope ↔ IsKeptScope scope := by
  constructor
  · intro same
    rw [← same]
    exact isKeptScope_normalScope scope
  · rintro (rfl | ⟨inner, rfl⟩)
    · rfl
    · exact normalScope_kept inner

/-- **The spellings of a scope** around a name without marks are the texts that are kept as that scope. -/
theorem spellsScope_iff {name scope : Text} (plain : IsScopeName name) :
    SpellsScope name scope ↔ normalScope scope = "@" ++ name ++ "/" := by
  obtain ⟨some_name, noSign, noSlash⟩ := plain
  constructor
  · intro spelled
    cases spelled with
    | bare =>
      have noSlash' : ("@" ++ name : Text).points.getLast? ≠ some (.char '/') := by
        rwa [Text.getLast?_append some_name]
      rw [normalScope_eq some_name, withSign, if_neg noSign, withSlash, if_neg noSlash']
    | signed =>
      have noSlash' : ("@" ++ name : Text).points.getLast? ≠ some (.char '/') := by
        rwa [Text.getLast?_append some_name]
      rw [normalScope_eq (Text.append_ne_empty (by decide)), withSign_sign, withSlash, if_neg noSlash']
    | ended =>
      have noSign' : (name ++ "/" : Text).points.head? ≠ some (.char '@') := by
        rwa [Text.head?_append some_name]
      rw [normalScope_eq (Text.append_ne_empty some_name), withSign, if_neg noSign', ← Text.append_assoc,
        withSlash_slash]
    | whole => exact normalScope_kept name
  · intro kept
    have some_scope : scope ≠ "" := by
      rintro rfl
      exact Text.append_ne_empty (Text.append_ne_empty (by decide)) kept.symm
    obtain ⟨other, keptOther, spelled⟩ := exists_spells some_scope
    have same := Text.append_left_cancel (Text.append_right_cancel (keptOther.symm.trans kept))
    rwa [← same]

/-! ## Rows -/

namespace PackageRow

/-- An object is accepted as a row where each field is. -/
theorem ofJson_obj_eq_valid {members : List (Text × Json)} {e : PackageRow} :
    ofJson (.obj members) = .valid e ↔
      Json.required "group" Json.readText members = .valid e.group ∧
      Json.optional "scope" ("" : Text) readScope members = .valid e.scope ∧
      Json.optional "prefix" none (Json.readOptional Json.readText) members = .valid e.modulePrefix ∧
      Json.optionalEither "stripPrefix" "strip_prefix" false Json.readBool members = .valid e.stripsPrefix ∧
      Json.optional "module" none (Json.readOptional Json.readText) members = .valid e.moduleName ∧
      Json.optional "name" none (Json.readOptional Json.readText) members = .valid e.packageName := by
  simp only [ofJson, Checked.ap_eq_valid, Checked.map_eq_valid]
  constructor
  · rintro ⟨_, _, ⟨_, _, ⟨_, _, ⟨_, _, ⟨_, _, ⟨_, group, rfl⟩, scope, rfl⟩, modulePrefix, rfl⟩, strips, rfl⟩,
      moduleName, rfl⟩, packageName, rfl⟩
    exact ⟨group, scope, modulePrefix, strips, moduleName, packageName⟩
  · obtain ⟨_, _, _, _, _, _⟩ := e
    rintro ⟨group, scope, modulePrefix, strips, moduleName, packageName⟩
    exact ⟨_, _, ⟨_, _, ⟨_, _, ⟨_, _, ⟨_, _, ⟨_, group, rfl⟩, scope, rfl⟩, modulePrefix, rfl⟩, strips, rfl⟩,
      moduleName, rfl⟩, packageName, rfl⟩

/-- The scope of an accepted row has the form of kept scopes. -/
theorem isKeptScope_of_ofJson {value : Json} {e : PackageRow} (accepted : ofJson value = .valid e) :
    IsKeptScope e.scope := by
  cases value with
  | obj members =>
    obtain ⟨-, scope, -⟩ := ofJson_obj_eq_valid.mp accepted
    rcases Checked.optional_eq_valid.mp scope with ⟨-, absent⟩ | ⟨value, -, read⟩
    · exact .inl absent.symm
    · obtain ⟨text, -, kept⟩ := Checked.map_eq_valid.mp read
      rw [← kept]
      exact isKeptScope_normalScope text
  | _ => cases accepted

theorem readScope_str (scope : Text) : readScope (.str scope) = .valid (normalScope scope) := rfl

/-- A row keeps what its scope is kept as. -/
theorem scope_of_ofJson {members : List (Text × Json)} {e : PackageRow} {scope : Text}
    (accepted : ofJson (.obj members) = .valid e) (given : Json.member? "scope" members = some (.str scope)) :
    e.scope = normalScope scope := by
  obtain ⟨-, kept, -⟩ := ofJson_obj_eq_valid.mp accepted
  rw [Checked.optional_eq_valid_iff given, readScope_str] at kept
  exact (Checked.valid.inj kept).symm

/-- A row is read back from what is written of it if its scope is a kept one. -/
theorem ofJson_toJson_iff {e : PackageRow} : ofJson e.toJson = .valid e ↔ IsKeptScope e.scope := by
  have text : ∀ t : Option Text, Json.readOptional Json.readText ((t.map Json.str).getD .null) = .valid t :=
    fun t => Descriptor.readModule_eq_valid.mpr rfl
  rw [← normalScope_eq_self_iff, toJson, ofJson_obj_eq_valid]
  constructor
  · rintro ⟨-, scope, -⟩
    have read : readScope (.str e.scope) = .valid e.scope := (Checked.optional_eq_valid_iff rfl).mp scope
    rw [readScope_str] at read
    exact Checked.valid.inj read
  · intro kept
    have read : readScope (.str e.scope) = .valid e.scope := by
      rw [readScope_str, kept]
    refine ⟨rfl, ?_, ?_, rfl, ?_, ?_⟩
    · exact (Checked.optional_eq_valid_iff rfl).mpr read
    · exact (Checked.optional_eq_valid_iff rfl).mpr (text e.modulePrefix)
    · exact (Checked.optional_eq_valid_iff rfl).mpr (text e.moduleName)
    · exact (Checked.optional_eq_valid_iff rfl).mpr (text e.packageName)

/-! ## Tables -/

/-- The keys of a row besides its scope. -/
def otherKeys : List Text := ["group", "prefix", "stripPrefix", "strip_prefix", "module", "name"]

/-- Two values for a row that differ at most in how they spell the scope around a name without marks. -/
inductive Respelled : Json → Json → Prop
  | same (value : Json) : Respelled value value
  | scope {members others : List (Text × Json)} {name first second : Text} (plain : IsScopeName name)
    (spells : SpellsScope name first) (spellsToo : SpellsScope name second)
    (given : Json.member? "scope" members = some (.str first))
    (givenToo : Json.member? "scope" others = some (.str second))
    (rest : ∀ key ∈ otherKeys, Json.member? key others = Json.member? key members) :
    Respelled (.obj members) (.obj others)

/-- Rows whose scopes are spelled in other ways are read alike. -/
theorem Respelled.ofJson_eq {value other : Json} (respelled : Respelled value other) :
    ofJson value = ofJson other := by
  cases respelled with
  | same => rfl
  | @scope members others name first second plain spells spellsToo given givenToo rest =>
    have scope : Json.optional "scope" ("" : Text) readScope others =
        Json.optional "scope" ("" : Text) readScope members := by
      rw [Json.optional, Json.optional, given, givenToo]
      dsimp only
      rw [readScope_str, readScope_str, (spellsScope_iff plain).mp spells, (spellsScope_iff plain).mp spellsToo]
    simp only [otherKeys, List.forall_mem_cons] at rest
    obtain ⟨group, modulePrefix, strips, stripsToo, moduleName, packageName, -⟩ := rest
    simp only [ofJson, scope, Json.required, Json.optionalEither]
    simp only [Json.optional, group, modulePrefix, strips, stripsToo, moduleName, packageName]

end PackageRow

open PackageRow in
/-- **Rows are kept once and for all.** The scope of an accepted row has the form of kept scopes, and the row is
read back from what is written of it; so are the rows whose scopes have this form, and no others. A scope that a
row gives is kept as the scope around a name without marks exactly if it is one of its four spellings. Tables
that differ in such spellings are read alike, alone and as a part of the settings, and their rules name every
package alike, whatever else the rules hold. -/
theorem rows_kept_once :
    (∀ value e, ofJson value = .valid e → IsKeptScope e.scope ∧ ofJson e.toJson = .valid e) ∧
    (∀ e, ofJson e.toJson = .valid e ↔ IsKeptScope e.scope) ∧
    (∀ name, IsScopeName name → ∀ members e scope, ofJson (.obj members) = .valid e →
      Json.member? "scope" members = some (.str scope) →
      (SpellsScope name scope ↔ e.scope = "@" ++ name ++ "/")) ∧
    ∀ values others, List.Forall₂ Respelled values others →
      (∀ i, Json.readItems ofJson i values = Json.readItems ofJson i others) ∧
      (∀ baseDir logs dependencies blacklist,
        Settings.ofArrays baseDir logs values dependencies blacklist =
          Settings.ofArrays baseDir logs others dependencies blacklist) ∧
      ∀ r s : PackageRules, Json.readItems ofJson 0 values = .valid r.rows →
        Json.readItems ofJson 0 others = .valid s.rows → ∀ m, r.packageName m = s.packageName m := by
  refine ⟨?once, fun e => ofJson_toJson_iff, ?spelled, ?tables⟩
  case once =>
    intro value e accepted
    have kept := isKeptScope_of_ofJson accepted
    exact ⟨kept, ofJson_toJson_iff.mpr kept⟩
  case spelled =>
    intro name plain members e scope accepted given
    rw [spellsScope_iff plain, scope_of_ofJson accepted given]
  case tables =>
    intro values others respelled
    have alike := Checked.readItems_congr (respelled.imp fun _ _ => Respelled.ofJson_eq)
    refine ⟨alike, ?settings, ?names⟩
    case settings =>
      intro baseDir logs dependencies blacklist
      simp only [Settings.ofArrays, Settings.field, alike 0]
    case names =>
      intro r s accepted acceptedToo m
      have rows : r.rows = s.rows := by
        rw [alike 0, acceptedToo] at accepted
        exact (Checked.valid.inj accepted).symm
      rw [PackageRules.packageName, PackageRules.packageName, rows]

/-- The members of a row that strips the beginning of a module's name. -/
def strippingMembers (scope : Text) : List (Text × Json) :=
  [("scope", .str scope), ("group", .str "io.vertx"), ("prefix", .str "vertx-"),
    ("stripPrefix", .bool true)]

/-- A scope without marks and the same scope with both of them. -/
theorem rows_kept_once_bothMarks :
    let row : PackageRow := ⟨"io.vertx", "@vertx/", some "vertx-", true, none, none⟩
    let values : List Json := [.obj (strippingMembers "vertx")]
    let others : List Json := [.obj (strippingMembers "@vertx/")]
    List.Forall₂ PackageRow.Respelled values others ∧
      Json.readItems PackageRow.ofJson 0 values = .valid [row] ∧
      PackageRow.ofJson row.toJson = .valid row ∧
      (⟨[row], [], []⟩ : PackageRules).packageName ⟨"vertx-core", "io.vertx"⟩ = "@vertx/core" ∧
      ∀ s : PackageRules, Json.readItems PackageRow.ofJson 0 others = .valid s.rows →
        s.packageName ⟨"vertx-core", "io.vertx"⟩ = "@vertx/core" := by
  intro row values others
  have plain : IsScopeName "vertx" := ⟨by decide, by decide, by decide⟩
  have respelled : List.Forall₂ PackageRow.Respelled values others := by
    refine .cons (.scope plain .bare .whole rfl rfl ?_) .nil
    simp [PackageRow.otherKeys, strippingMembers, Json.member?]
  have accepted : Json.readItems PackageRow.ofJson 0 values = .valid [row] := by rfl
  have named : (⟨[row], [], []⟩ : PackageRules).packageName ⟨"vertx-core", "io.vertx"⟩ = "@vertx/core" := by
    decide +kernel
  obtain ⟨-, written, -, tables⟩ := rows_kept_once
  obtain ⟨-, -, names⟩ := tables values others respelled
  refine ⟨respelled, accepted, (written row).mpr (.inr ⟨"vertx", by decide⟩), named, ?_⟩
  intro s acceptedToo
  rw [← names ⟨[row], [], []⟩ s accepted acceptedToo, named]

end HostDecl
