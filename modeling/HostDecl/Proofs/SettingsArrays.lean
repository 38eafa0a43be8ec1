import HostDecl.Settings.Basic
import HostDecl.Proofs.DescriptorValues
import HostDecl.Proofs.Parts

/-!
# The arrays of the settings

Three variables hold arrays. Either each of them holds one (`HoldsArray`) or some holds none, for one of
three reasons (`NoArray`); the rest of the variables has no part in whether there are settings.

**The laws.** There are settings exactly if all three hold arrays of good items. If there are none, the
fault is that of the first variable that holds no array, wherever the bad items stand, and every issue of
every item if all hold arrays (`ofVariables_faults`). A table of rows alone is accepted and refused as its
rows are one by one (`ofVariables_of_rows`).

**What has no name.** A fault of syntax and a value that is no array are reported under the name of their
variable. A text beyond a limit of the reader is not: its fault is the reader's own, and does not tell
which variable it was (`limit_fault_unnamed`).
-/

namespace HostDecl

/-! ## An array that is not read -/

namespace Json

/-- An array of one whole number, all of whose digits are ones. -/
def onesArray (count : Nat) : String := String.ofList ('[' :: List.replicate count '1' ++ [']'])

theorem foldl_step_ones (count position start read : Nat) (found : List Placed) :
    (List.replicate count '1').foldl Scan.step
        ⟨position, .number start false (.digits (List.replicate read '1')), found⟩ =
      ⟨position + count, .number start false (.digits (List.replicate (read + count) '1')),
        found⟩ := by
  induction count generalizing position read with
  | zero => rfl
  | succ count ih =>
    have step :
        Scan.step ⟨position, .number start false (.digits (List.replicate read '1')), found⟩ '1' =
          ⟨position + 1, .number start false (.digits (List.replicate (read + 1) '1')), found⟩ := rfl
    rw [List.replicate_succ, List.foldl_cons, step, ih, Nat.add_right_comm, Nat.add_assoc,
      Nat.add_right_comm, Nat.add_assoc]

theorem tokens_onesArray (more : Nat) :
    tokens (onesArray (more + 1)).toList =
      [⟨.openBracket, 0⟩, ⟨.whole false (List.replicate (more + 1) '1'), 1⟩,
        ⟨.closeBracket, more + 2⟩, ⟨.ending, more + 3⟩] := by
  have opened : Scan.step (Scan.step .start '[') '1' =
      ⟨2, .number 1 false (.digits (List.replicate 1 '1')), [⟨.openBracket, 0⟩]⟩ := rfl
  rw [tokens, onesArray, String.toList_ofList, List.replicate_succ, List.cons_append, List.cons_append,
    List.foldl_cons, List.foldl_cons, opened, List.foldl_append, foldl_step_ones, Nat.add_comm 1 more,
    Nat.add_comm 2 more]
  show [Placed.mk .openBracket 0, ⟨.whole false (List.replicate (more + 1) '1').reverse, 1⟩,
    ⟨.closeBracket, more + 2⟩, ⟨.ending, more + 3⟩] = _
  rw [List.reverse_replicate, List.replicate_succ]

theorem parse_onesArray {count : Nat} (tooMany : digitLimit < count) :
    parse (onesArray count) = .error (.beyond (.tooManyDigits count)) := by
  obtain ⟨more, rfl⟩ := Nat.exists_eq_add_one.mpr (Nat.zero_lt_of_lt tooMany)
  have unread : scalar? (.whole false (List.replicate (more + 1) '1')) =
      some (.error (.beyond (.tooManyDigits (more + 1)))) := by
    rw [scalar?, List.length_replicate, if_pos tooMany]
  have cut : ofChars (onesArray (more + 1)).toList =
      ofTokens (tokens (onesArray (more + 1)).toList) := by
    rw [onesArray, String.toList_ofList]
    rfl
  rw [parse, cut, tokens_onesArray]
  simp only [ofTokens, State.run, State.step, unread]
  rfl

end Json

namespace Settings

/-- The variables that hold arrays, in the order in which they are read. -/
def arrayVariables : List String :=
  [packageRowsVariable, optionalDependenciesVariable, classBlacklistVariable]

/-- The variables that the settings come from. -/
def readVariables : List String := baseDirVariable :: diagnosticsLogVariable :: arrayVariables

/-! ## What a variable holds -/

section Arrays

variable {vars : Variables} {name : String}

/-- A variable that holds an array, an empty one if it is absent or empty. -/
inductive HoldsArray (vars : Variables) (name : String) : List Json → Prop
  | absent (missing : vars.value? name = none) : HoldsArray vars name []
  | empty (given : vars.value? name = some "") : HoldsArray vars name []
  | array {text : String} {items : List Json} (given : vars.value? name = some text)
    (some_text : text ≠ "") (read : Json.parse text = .ok (.arr items)) : HoldsArray vars name items

/-- The fault of a variable that holds no array. -/
inductive NoArray (vars : Variables) (name : String) : SettingsFault → Prop
  | notJson {text : String} {fault : Json.SyntaxFault} {line column position : Nat}
    (given : vars.value? name = some text) (some_text : text ≠ "")
    (refused : Json.parse text = .error (.malformed fault line column position)) :
    NoArray vars name (.notJson name fault line column position)
  | beyond {text : String} {limit : Json.LimitFault} (given : vars.value? name = some text)
    (some_text : text ≠ "") (refused : Json.parse text = .error (.beyond limit)) :
    NoArray vars name (.beyond limit)
  | notArray {text : String} {value : Json} (given : vars.value? name = some text)
    (some_text : text ≠ "") (read : Json.parse text = .ok value) (other : ∀ items, value ≠ .arr items) :
    NoArray vars name (.notArray name)

theorem holdsArray_or_noArray (vars : Variables) (name : String) :
    (∃ items, HoldsArray vars name items ∧ arrayIn vars name = .ok items) ∨
      ∃ fault, NoArray vars name fault ∧ arrayIn vars name = .error fault := by
  unfold arrayIn
  split
  next missing => exact .inl ⟨[], .absent missing, rfl⟩
  next text given =>
    split
    next empty =>
      rw [empty] at given
      exact .inl ⟨[], .empty given, rfl⟩
    next some_text =>
      split
      next refused => exact .inr ⟨_, .notJson given some_text refused, rfl⟩
      next refused => exact .inr ⟨_, .beyond given some_text refused, rfl⟩
      next items read => exact .inl ⟨items, .array given some_text read, rfl⟩
      next value other read => exact .inr ⟨_, .notArray given some_text read other, rfl⟩

theorem arrayIn_eq_ok {items : List Json} :
    arrayIn vars name = .ok items ↔ HoldsArray vars name items := by
  constructor
  · intro held
    rcases holdsArray_or_noArray vars name with ⟨_, holds, same⟩ | ⟨_, -, fails⟩
    · cases held.symm.trans same
      exact holds
    · cases held.symm.trans fails
  · intro holds
    unfold arrayIn
    cases holds with
    | absent missing => rw [missing]
    | empty given => rw [given]; rfl
    | array given some_text read => simp only [given, if_neg some_text, read]

theorem arrayIn_eq_error {fault : SettingsFault} :
    arrayIn vars name = .error fault ↔ NoArray vars name fault := by
  constructor
  · intro fails
    rcases holdsArray_or_noArray vars name with ⟨_, -, held⟩ | ⟨_, lacks, same⟩
    · cases fails.symm.trans held
    · cases fails.symm.trans same
      exact lacks
  · intro lacks
    unfold arrayIn
    cases lacks with
    | notJson given some_text refused | beyond given some_text refused =>
      simp only [given, if_neg some_text, refused]
    | @notArray text value given some_text read other =>
      simp only [given, if_neg some_text, read]

/-- The three variables hold arrays. -/
structure HoldsArrays (vars : Variables) (rows dependencies blacklist : List Json) : Prop where
  rows : HoldsArray vars packageRowsVariable rows
  dependencies : HoldsArray vars optionalDependenciesVariable dependencies
  blacklist : HoldsArray vars classBlacklistVariable blacklist

/-- The values of a variable that stand for an empty array. -/
def Vacant (value : Option String) : Prop := value = none ∨ value = some "" ∨ value = some "[]"

theorem Vacant.arrayIn (vacant : Vacant (vars.value? name)) : arrayIn vars name = .ok [] := by
  rw [arrayIn_eq_ok]
  rcases vacant with missing | empty | brackets
  · exact .absent missing
  · exact .empty empty
  · exact .array brackets (by decide) (by rfl)

end Arrays

/-! ## Items -/

/-- A value that is a row of the package table. -/
def IsRow (item : Json) : Prop := ∃ row, PackageRow.ofJson item = .valid row

/-- A value that is a text. -/
def IsText (item : Json) : Prop := ∃ text, item = .str text

/-- Every issue of the items of a field, in the order of the items, each seen from the field. -/
def fieldIssues {α : Type} (name : String) (read : Json → Checked α) (items : List Json) :
    List Issue :=
  items.zipIdx.flatMap fun (item, i) =>
    (read item).issues.map fun issue => ⟨.key name :: .index i :: issue.location, issue.problem⟩

/-- Arrays of good items. -/
def GoodItems (rows dependencies blacklist : List Json) : Prop :=
  (∀ item ∈ rows, IsRow item) ∧ (∀ item ∈ dependencies, IsText item) ∧ ∀ item ∈ blacklist, IsText item

/-- Every issue of the items of the three fields, one field after the other. -/
def itemIssues (rows dependencies blacklist : List Json) : List Issue :=
  fieldIssues "scope_registry" PackageRow.ofJson rows ++
    fieldIssues "optional_dependencies" Json.readText dependencies ++
    fieldIssues "class_blacklist" Json.readText blacklist

theorem fieldIssues_nil {α : Type} (name : String) (read : Json → Checked α) :
    fieldIssues name read [] = [] := rfl

section Fields

variable {α : Type} {name : String} {read : Json → Checked α} {items : List Json}

theorem field_eq_valid {results : List α} :
    field name read items = .valid results ↔
      List.Forall₂ (fun item result => read item = .valid result) items results :=
  Checked.under_eq_valid.trans Checked.readItems_eq_valid

theorem exists_field_eq_valid :
    (∃ results, field name read items = .valid results) ↔
      ∀ item ∈ items, ∃ result, read item = .valid result := by
  simp only [field, Checked.under_eq_valid]
  exact Checked.exists_readItems_eq_valid

theorem issues_field (name : String) (read : Json → Checked α) (items : List Json) :
    (field name read items).issues = fieldIssues name read items := by
  rw [field, Checked.issues_under, Checked.issues_readItems, List.map_flatMap, fieldIssues]
  simp only [Checked.issues_under, List.map_map]
  rfl

end Fields

/-- The items of a field of texts are texts. -/
theorem field_readText_eq_valid {name : String} {items : List Json} {texts : List Text} :
    field name Json.readText items = .valid texts ↔ items = texts.map .str := by
  rw [field_eq_valid]
  simp only [Descriptor.readText_eq_valid]
  rw [← List.forall₂_map_right_iff, List.forall₂_eq_eq_eq]

theorem isText_iff {item : Json} : IsText item ↔ ∃ text, Json.readText item = .valid text := by
  simp only [IsText, Descriptor.readText_eq_valid]

section OfArrays

variable {baseDir : Option Path} {logs : Bool} {rows dependencies blacklist : List Json}

theorem ofArrays_eq_valid {s : Settings} :
    ofArrays baseDir logs rows dependencies blacklist = .valid s ↔
      field "scope_registry" PackageRow.ofJson rows = .valid s.rows ∧
        field "optional_dependencies" Json.readText dependencies = .valid s.optional ∧
        field "class_blacklist" Json.readText blacklist = .valid s.leftOut ∧
        s.baseDir = baseDir ∧ s.logs = logs := by
  constructor
  · intro accepted
    obtain ⟨_, leftOut, inner, third, rfl⟩ := Checked.ap_eq_valid.mp accepted
    obtain ⟨_, optional, table, second, rfl⟩ := Checked.ap_eq_valid.mp inner
    obtain ⟨read, first, rfl⟩ := Checked.map_eq_valid.mp table
    exact ⟨first, second, third, rfl, rfl⟩
  · rintro ⟨first, second, third, rfl, rfl⟩
    rw [ofArrays, first, second, third]
    rfl

theorem exists_ofArrays_eq_valid :
    (∃ s, ofArrays baseDir logs rows dependencies blacklist = .valid s) ↔
      GoodItems rows dependencies blacklist := by
  simp only [ofArrays_eq_valid, GoodItems, isText_iff, IsRow]
  rw [← exists_field_eq_valid, ← exists_field_eq_valid, ← exists_field_eq_valid]
  constructor
  · rintro ⟨s, first, second, third, -⟩
    exact ⟨⟨_, first⟩, ⟨_, second⟩, ⟨_, third⟩⟩
  · rintro ⟨⟨read, first⟩, ⟨optional, second⟩, ⟨leftOut, third⟩⟩
    exact ⟨⟨baseDir, read, optional, leftOut, logs⟩, first, second, third, rfl, rfl⟩

theorem issues_ofArrays (baseDir : Option Path) (logs : Bool)
    (rows dependencies blacklist : List Json) :
    (ofArrays baseDir logs rows dependencies blacklist).issues =
      itemIssues rows dependencies blacklist := by
  rw [ofArrays, Checked.issues_ap, Checked.issues_ap, Checked.issues_map, issues_field, issues_field,
    issues_field, itemIssues]

end OfArrays

/-! ## Acceptance and faults -/

/-- A variable that holds no array, or holds an array with a bad item. -/
inductive Faulty (vars : Variables) (name : String) (IsItem : Json → Prop) : Prop
  | noArray {fault : SettingsFault} (lacks : NoArray vars name fault)
  | badItem {items : List Json} {item : Json} (array : HoldsArray vars name items)
    (mem : item ∈ items) (bad : ¬ IsItem item)

/-- The fault of variables that make no settings: that of the first variable that holds no array, and if
all hold arrays, every issue of the items. -/
inductive FaultOf (vars : Variables) : SettingsFault → Prop
  | noArray {before behind : List String} {name : String} {fault : SettingsFault}
    (place : arrayVariables = before ++ name :: behind)
    (arrays : ∀ earlier ∈ before, ∃ items, HoldsArray vars earlier items)
    (lacks : NoArray vars name fault) : FaultOf vars fault
  | badItems {rows dependencies blacklist : List Json}
    (held : HoldsArrays vars rows dependencies blacklist)
    (bad : ¬ GoodItems rows dependencies blacklist) :
    FaultOf vars (.invalid (itemIssues rows dependencies blacklist))

section OfVariables

variable {vars other : Variables}

theorem not_faulty_iff {name : String} {IsItem : Json → Prop} :
    ¬ Faulty vars name IsItem ↔ ∃ items, HoldsArray vars name items ∧ ∀ item ∈ items, IsItem item := by
  constructor
  · intro sound
    rcases holdsArray_or_noArray vars name with ⟨items, holds, -⟩ | ⟨_, lacks, -⟩
    · refine ⟨items, holds, ?_⟩
      intro item mem
      by_contra bad
      exact sound (.badItem holds mem bad)
    · exact (sound (.noArray lacks)).elim
  · rintro ⟨items, holds, good⟩ (lacks | ⟨held, mem, bad⟩)
    · cases (arrayIn_eq_ok.mpr holds).symm.trans (arrayIn_eq_error.mpr lacks)
    · cases (arrayIn_eq_ok.mpr holds).symm.trans (arrayIn_eq_ok.mpr held)
      exact bad (good _ mem)

theorem ofVariables_of_valid {rows dependencies blacklist : List Json} {s : Settings}
    (held : HoldsArrays vars rows dependencies blacklist)
    (accepted : ofArrays (baseDirIn vars) (diagnosticsLogIn vars) rows dependencies blacklist =
      .valid s) : ofVariables vars = .ok s := by
  simp only [ofVariables, arrayIn_eq_ok.mpr held.rows, arrayIn_eq_ok.mpr held.dependencies,
    arrayIn_eq_ok.mpr held.blacklist, accepted]

theorem ofVariables_of_invalid {rows dependencies blacklist : List Json} {issues : List Issue}
    (held : HoldsArrays vars rows dependencies blacklist)
    (refused : ofArrays (baseDirIn vars) (diagnosticsLogIn vars) rows dependencies blacklist =
      .invalid issues) : ofVariables vars = .error (.invalid issues) := by
  simp only [ofVariables, arrayIn_eq_ok.mpr held.rows, arrayIn_eq_ok.mpr held.dependencies,
    arrayIn_eq_ok.mpr held.blacklist, refused]

theorem ofVariables_of_noArray {before behind : List String} {name : String} {fault : SettingsFault}
    (place : arrayVariables = before ++ name :: behind)
    (arrays : ∀ earlier ∈ before, ∃ items, HoldsArray vars earlier items)
    (lacks : NoArray vars name fault) : ofVariables vars = .error fault := by
  simp only [← arrayIn_eq_ok] at arrays
  rw [← arrayIn_eq_error] at lacks
  unfold ofVariables
  -- By how many variables stand in front of it: none, one or two.
  rcases before with _ | ⟨first, _ | ⟨second, _ | ⟨third, rest⟩⟩⟩
  · cases place
    rw [lacks]
  · cases place
    obtain ⟨rows, rowsHeld⟩ := arrays _ List.mem_cons_self
    simp only [rowsHeld, lacks]
  · cases place
    obtain ⟨⟨rows, rowsHeld⟩, later⟩ := List.forall_mem_cons.mp arrays
    obtain ⟨dependencies, dependenciesHeld⟩ := later _ List.mem_cons_self
    simp only [rowsHeld, dependenciesHeld, lacks]
  · simp [arrayVariables] at place

/-- Either all of some variables hold arrays, or one of them is the first that holds none. -/
theorem arrays_or_first (vars : Variables) (names : List String) :
    (∀ name ∈ names, ∃ items, HoldsArray vars name items) ∨
      ∃ before name behind fault, names = before ++ name :: behind ∧
        (∀ earlier ∈ before, ∃ items, HoldsArray vars earlier items) ∧ NoArray vars name fault := by
  induction names with
  | nil => exact .inl nofun
  | cons name names ih =>
    rcases holdsArray_or_noArray vars name with ⟨items, holds, -⟩ | ⟨fault, lacks, -⟩
    · rcases ih with all | ⟨before, first, behind, fault, rfl, arrays, lacks⟩
      · exact .inl (List.forall_mem_cons.mpr ⟨⟨items, holds⟩, all⟩)
      · refine .inr ⟨name :: before, first, behind, fault, rfl, ?_, lacks⟩
        exact List.forall_mem_cons.mpr ⟨⟨items, holds⟩, arrays⟩
    · exact .inr ⟨[], name, names, fault, rfl, nofun, lacks⟩

theorem ofVariables_of_faultOf {fault : SettingsFault} (has : FaultOf vars fault) :
    ofVariables vars = .error fault := by
  cases has with
  | noArray place arrays lacks => exact ofVariables_of_noArray place arrays lacks
  | badItems held bad =>
    rw [← exists_ofArrays_eq_valid, not_exists] at bad
    rw [ofVariables_of_invalid held (Checked.eq_invalid_issues bad), issues_ofArrays]

theorem arrays_or_faultOf (vars : Variables) :
    (∃ rows dependencies blacklist, HoldsArrays vars rows dependencies blacklist ∧
      GoodItems rows dependencies blacklist) ∨ ∃ fault, FaultOf vars fault := by
  rcases arrays_or_first vars arrayVariables with all | ⟨_, _, _, fault, place, arrays, lacks⟩
  · obtain ⟨rows, rowsHeld⟩ := all packageRowsVariable (by simp [arrayVariables])
    obtain ⟨dependencies, dependenciesHeld⟩ :=
      all optionalDependenciesVariable (by simp [arrayVariables])
    obtain ⟨blacklist, blacklistHeld⟩ := all classBlacklistVariable (by simp [arrayVariables])
    have held : HoldsArrays vars rows dependencies blacklist :=
      ⟨rowsHeld, dependenciesHeld, blacklistHeld⟩
    by_cases good : GoodItems rows dependencies blacklist
    · exact .inl ⟨rows, dependencies, blacklist, held, good⟩
    · exact .inr ⟨_, .badItems held good⟩
  · exact .inr ⟨fault, .noArray place arrays lacks⟩

/-- Arrays of good items make settings. -/
theorem ofVariables_of_goodItems {rows dependencies blacklist : List Json}
    (held : HoldsArrays vars rows dependencies blacklist)
    (good : GoodItems rows dependencies blacklist) :
    ∃ s, ofArrays (baseDirIn vars) (diagnosticsLogIn vars) rows dependencies blacklist = .valid s ∧
      ofVariables vars = .ok s := by
  obtain ⟨s, accepted⟩ := exists_ofArrays_eq_valid.mpr good
  exact ⟨s, accepted, ofVariables_of_valid held accepted⟩

/-- There are no settings exactly if the variables have a fault, and it is the fault that is given. -/
theorem ofVariables_eq_error_iff {fault : SettingsFault} :
    ofVariables vars = .error fault ↔ FaultOf vars fault := by
  constructor
  · intro fails
    rcases arrays_or_faultOf vars with ⟨_, _, _, held, good⟩ | ⟨own, has⟩
    · obtain ⟨_, -, made⟩ := ofVariables_of_goodItems held good
      cases fails.symm.trans made
    · cases fails.symm.trans (ofVariables_of_faultOf has)
      exact has
  · exact ofVariables_of_faultOf

/-- Settings that are made are made of three arrays of good items. -/
theorem arrays_of_ofVariables {s : Settings} (made : ofVariables vars = .ok s) :
    ∃ rows dependencies blacklist, HoldsArrays vars rows dependencies blacklist ∧
      GoodItems rows dependencies blacklist ∧
      ofArrays (baseDirIn vars) (diagnosticsLogIn vars) rows dependencies blacklist = .valid s := by
  rcases arrays_or_faultOf vars with ⟨rows, dependencies, blacklist, held, good⟩ | ⟨_, has⟩
  · obtain ⟨_, accepted, same⟩ := ofVariables_of_goodItems held good
    cases made.symm.trans same
    exact ⟨rows, dependencies, blacklist, held, good, accepted⟩
  · cases made.symm.trans (ofVariables_of_faultOf has)

theorem exists_ofVariables_eq_ok :
    (∃ s, ofVariables vars = .ok s) ↔
      ¬ Faulty vars packageRowsVariable IsRow ∧ ¬ Faulty vars optionalDependenciesVariable IsText ∧
        ¬ Faulty vars classBlacklistVariable IsText := by
  simp only [not_faulty_iff]
  constructor
  · rintro ⟨s, made⟩
    obtain ⟨rows, dependencies, blacklist, held, ⟨first, second, third⟩, -⟩ :=
      arrays_of_ofVariables made
    exact ⟨⟨rows, held.rows, first⟩, ⟨dependencies, held.dependencies, second⟩,
      ⟨blacklist, held.blacklist, third⟩⟩
  · rintro ⟨⟨rows, rowsHeld, first⟩, ⟨dependencies, dependenciesHeld, second⟩,
      ⟨blacklist, blacklistHeld, third⟩⟩
    obtain ⟨s, -, made⟩ := ofVariables_of_goodItems ⟨rowsHeld, dependenciesHeld, blacklistHeld⟩
      ⟨first, second, third⟩
    exact ⟨s, made⟩

theorem exists_ofVariables_eq_error :
    (∃ fault, ofVariables vars = .error fault) ↔
      Faulty vars packageRowsVariable IsRow ∨ Faulty vars optionalDependenciesVariable IsText ∨
        Faulty vars classBlacklistVariable IsText := by
  have refused : (∃ fault, ofVariables vars = .error fault) ↔ ¬ ∃ s, ofVariables vars = .ok s := by
    cases ofVariables vars with
    | ok s => simp
    | error fault => simp
  rw [refused, exists_ofVariables_eq_ok, not_and_or, not_and_or, not_not, not_not, not_not]

/-- Settings depend on what five variables hold, and not on how an array is left empty. -/
theorem ofVariables_congr
    (same : ∀ name ∈ readVariables, other.value? name = vars.value? name ∨
      name ∈ arrayVariables ∧ Vacant (vars.value? name) ∧ Vacant (other.value? name)) :
    ofVariables other = ofVariables vars := by
  have arrays : ∀ name ∈ arrayVariables, arrayIn other name = arrayIn vars name := by
    intro name listed
    rcases same name (List.mem_cons_of_mem _ (List.mem_cons_of_mem _ listed)) with
      equal | ⟨-, vacant, otherVacant⟩
    · rw [arrayIn, equal, ← arrayIn]
    · rw [vacant.arrayIn, otherVacant.arrayIn]
  have plain : ∀ name ∈ readVariables, name ∉ arrayVariables →
      other.value? name = vars.value? name := by
    intro name listed unlisted
    exact (same name listed).resolve_right fun vacant => unlisted vacant.1
  have baseDir : baseDirIn other = baseDirIn vars := by
    rw [baseDirIn, plain baseDirVariable (by decide) (by decide), ← baseDirIn]
  have logs : diagnosticsLogIn other = diagnosticsLogIn vars := by
    rw [diagnosticsLogIn, plain diagnosticsLogVariable (by decide) (by decide), ← diagnosticsLogIn]
  rw [ofVariables, ofVariables, arrays packageRowsVariable (by decide),
    arrays optionalDependenciesVariable (by decide), arrays classBlacklistVariable (by decide), baseDir,
    logs]

end OfVariables

/-! ## Texts beyond a limit -/

/-- The letter that the names of the variables begin with is not in the wording of a limit. -/
theorem notMem_message (limit : Json.LimitFault) : 'T' ∉ limit.message.toList := by
  cases limit with
  | tooManyDigits count =>
    show 'T' ∉ ("Exceeds the limit (" ++ toString Json.digitLimit ++
      " digits) for integer string conversion: value has " ++ toString count ++
      " digits; use sys.set_int_max_str_digits() to increase the limit").toList
    simp only [String.toList_append, List.mem_append, not_or]
    have number : ∀ n : Nat, 'T' ∉ (toString n).toList := Text.notMem_toString (by decide)
    exact ⟨⟨⟨⟨by decide, number _⟩, by decide⟩, number _⟩, by decide⟩
  | tooDeep isObject =>
    show 'T' ∉ ("maximum recursion depth exceeded while decoding a JSON " ++
      (if isObject then "object" else "array") ++ " from a unicode string").toList
    simp only [String.toList_append, List.mem_append, not_or]
    cases isObject <;> exact ⟨⟨by decide, by decide⟩, by decide⟩

theorem not_occursIn_beyond (limit : Json.LimitFault) (report : List Issue → Text) {name : String}
    (listed : name ∈ arrayVariables) :
    ¬ (name : Text).OccursIn ((SettingsFault.beyond limit).message report) := by
  have capital : ∀ name ∈ arrayVariables, 'T' ∈ name.toList := by decide
  exact Text.not_occursIn_of_notMem (capital name listed) (notMem_message limit)

/-! ## The laws -/

/-- There are settings unless one of the three variables is faulty. The fault is that of the first
variable that holds no array, and if all hold arrays, every issue of their items. A variable that holds no
array is named in its fault, except for a text beyond a limit of the reader. The texts of the settings are
those of their arrays, and nothing counts but what the five variables hold, where an array may be left
empty in three ways. -/
theorem ofVariables_faults (vars : Variables) :
    ((∃ fault, ofVariables vars = .error fault) ↔
      Faulty vars packageRowsVariable IsRow ∨ Faulty vars optionalDependenciesVariable IsText ∨
        Faulty vars classBlacklistVariable IsText) ∧
    (∀ fault, ofVariables vars = .error fault ↔ FaultOf vars fault) ∧
    (∀ name fault, NoArray vars name fault →
      (∃ reason : Text, ∀ report, fault.message report = (name : Text) ++ reason) ∨
        ∃ limit, fault = .beyond limit ∧ ∀ report, ∀ other ∈ arrayVariables,
          ¬ (other : Text).OccursIn (fault.message report)) ∧
    (∀ s, ofVariables vars = .ok s →
      (∃ rows, HoldsArray vars packageRowsVariable rows ∧
        List.Forall₂ (fun item row => PackageRow.ofJson item = .valid row) rows s.rows) ∧
      HoldsArray vars optionalDependenciesVariable (s.optional.map .str) ∧
      HoldsArray vars classBlacklistVariable (s.leftOut.map .str)) ∧
    ∀ other : Variables,
      (∀ name ∈ readVariables, other.value? name = vars.value? name ∨
        name ∈ arrayVariables ∧ Vacant (vars.value? name) ∧ Vacant (other.value? name)) →
        ofVariables other = ofVariables vars := by
  refine ⟨exists_ofVariables_eq_error, fun fault => ofVariables_eq_error_iff, ?named, ?made,
    fun other => ofVariables_congr⟩
  case named =>
    intro name fault lacks
    cases lacks with
    | notJson => exact .inl ⟨_, fun report => Text.append_assoc ..⟩
    | notArray => exact .inl ⟨_, fun report => rfl⟩
    | beyond => exact .inr ⟨_, rfl, fun report other => not_occursIn_beyond _ report⟩
  case made =>
    intro s made
    obtain ⟨rows, dependencies, blacklist, held, -, accepted⟩ := arrays_of_ofVariables made
    obtain ⟨first, second, third, -, -⟩ := ofArrays_eq_valid.mp accepted
    rw [field_readText_eq_valid] at second third
    rw [← second, ← third]
    exact ⟨⟨rows, held.rows, field_eq_valid.mp first⟩, held.dependencies, held.blacklist⟩

/-- Three variables, none of which is as it should be. -/
def lateArray : Variables :=
  [(packageRowsVariable, "[7]"), (optionalDependenciesVariable, "\x7b\x7d"), (classBlacklistVariable, "[")]

/-- The object that is no array counts, not the bad row in front of it and not the syntax behind it. -/
theorem ofVariables_faults_lateArray :
    NoArray lateArray optionalDependenciesVariable (.notArray optionalDependenciesVariable) ∧
      ofVariables lateArray = .error (.notArray optionalDependenciesVariable) ∧
      ∃ reason : Text, ∀ report,
        (SettingsFault.notArray optionalDependenciesVariable).message report =
          (optionalDependenciesVariable : Text) ++ reason := by
  have rowsHeld : HoldsArray lateArray packageRowsVariable [.int 7] :=
    .array rfl (by decide) (by rfl)
  have lacks : NoArray lateArray optionalDependenciesVariable (.notArray optionalDependenciesVariable) :=
    .notArray rfl (by decide) (by rfl) (fun items => Json.noConfusion)
  obtain ⟨-, fault, named, -⟩ := ofVariables_faults lateArray
  refine ⟨lacks, (fault _).mpr ?_, ?_⟩
  · have earlier : ∀ name ∈ [packageRowsVariable], ∃ items, HoldsArray lateArray name items :=
      List.forall_mem_singleton.mpr ⟨_, rowsHeld⟩
    exact .noArray rfl earlier lacks
  · rcases named _ _ lacks with given | ⟨_, limit, -⟩
    · exact given
    · cases limit

/-- A text beyond a limit is a fault that is none of the items, and that names no variable. -/
theorem limit_fault_unnamed :
    ∃ fault, ofVariables [(optionalDependenciesVariable, Json.onesArray 4301)] = .error fault ∧
      (∀ issues, fault ≠ .invalid issues) ∧
      ∀ report, ∀ name ∈ arrayVariables, ¬ (name : Text).OccursIn (fault.message report) := by
  refine ⟨.beyond (.tooManyDigits 4301), ?_, nofun, fun report name => not_occursIn_beyond _ report⟩
  have refused := Json.parse_onesArray (show Json.digitLimit < 4301 by decide)
  have some_text : Json.onesArray 4301 ≠ "" := by
    intro empty
    rw [empty] at refused
    cases refused
  have rowsHeld : HoldsArray [(optionalDependenciesVariable, Json.onesArray 4301)]
      packageRowsVariable [] := .absent rfl
  have lacks : NoArray [(optionalDependenciesVariable, Json.onesArray 4301)]
      optionalDependenciesVariable (.beyond (.tooManyDigits 4301)) := .beyond rfl some_text refused
  have earlier : ∀ name ∈ [packageRowsVariable],
      ∃ items, HoldsArray [(optionalDependenciesVariable, Json.onesArray 4301)] name items :=
    List.forall_mem_singleton.mpr ⟨_, rowsHeld⟩
  exact ofVariables_of_noArray rfl earlier lacks

/-- A table of rows is accepted if its rows are, one by one, and its packages are named by these rows. If
it is refused, its issues are those of its rows, one row after the other, each seen from its index. -/
theorem ofVariables_of_rows {vars : Variables} {text : String} {items : List Json}
    (given : vars.value? packageRowsVariable = some text)
    (array : Json.parse text = .ok (.arr items))
    (noDependencies : vars.value? optionalDependenciesVariable = none)
    (noBlacklist : vars.value? classBlacklistVariable = none) :
    ((∃ s, ofVariables vars = .ok s) ↔ ∀ item ∈ items, ∃ row, PackageRow.ofJson item = .valid row) ∧
    (∀ s, ofVariables vars = .ok s →
      List.Forall₂ (fun item row => PackageRow.ofJson item = .valid row) items s.packages.rows ∧
      ∀ direct : PackageRules,
        List.Forall₂ (fun item row => PackageRow.ofJson item = .valid row) items direct.rows →
          s.packages.rows = direct.rows ∧ ∀ m, s.packages.packageName m = direct.packageName m) ∧
    ∀ fault, ofVariables vars = .error fault →
      fault = .invalid (fieldIssues "scope_registry" PackageRow.ofJson items) := by
  have some_text : text ≠ "" := by
    rintro rfl
    cases array
  have held : HoldsArrays vars items [] [] :=
    ⟨.array given some_text array, .absent noDependencies, .absent noBlacklist⟩
  have good_iff : GoodItems items [] [] ↔ ∀ item ∈ items, IsRow item := by simp [GoodItems]
  cases checked : ofArrays (baseDirIn vars) (diagnosticsLogIn vars) items [] [] with
  | valid s =>
    rw [ofVariables_of_valid held checked]
    have good := exists_ofArrays_eq_valid.mp ⟨s, checked⟩
    obtain ⟨read, -⟩ := ofArrays_eq_valid.mp checked
    refine ⟨⟨fun _ => good_iff.mp good, fun _ => ⟨s, rfl⟩⟩, ?_, nofun⟩
    rintro _ ⟨⟩
    refine ⟨field_eq_valid.mp read, ?_⟩
    intro direct each
    have same : s.packages.rows = direct.rows :=
      Checked.valid.inj (read.symm.trans (field_eq_valid.mpr each))
    refine ⟨same, ?_⟩
    intro m
    rw [PackageRules.packageName, same, ← PackageRules.packageName]
  | invalid issues =>
    rw [ofVariables_of_invalid held checked]
    have refused : ¬ ∀ item ∈ items, IsRow item := by
      intro good
      obtain ⟨s, accepted⟩ := exists_ofArrays_eq_valid.mpr (good_iff.mpr good)
      cases checked.symm.trans accepted
    have all := issues_ofArrays (baseDirIn vars) (diagnosticsLogIn vars) items [] []
    rw [checked, itemIssues, fieldIssues_nil, fieldIssues_nil, List.append_nil, List.append_nil] at all
    refine ⟨⟨?_, fun good => absurd good refused⟩, ?_, ?_⟩
    · rintro ⟨_, ⟨⟩⟩
    · rintro _ ⟨⟩
    · rintro _ ⟨⟩
      exact congrArg SettingsFault.invalid all

/-- Rows that strip a beginning, in the two spellings of the key. -/
def spelledRows : String :=
  "[\x7b\"group\":\"g\",\"prefix\":\"v-\",\"stripPrefix\":true\x7d," ++
    "\x7b\"group\":\"g\",\"prefix\":\"w-\",\"strip_prefix\":1,\"scope\":\"a\"\x7d]"

/-- The packages of these rows. -/
def spelledPackages : PackageRules :=
  ⟨[⟨"g", "", some "v-", true, none, none⟩, ⟨"g", "@a/", some "w-", true, none, none⟩], [], []⟩

/-- A good row with two bad ones behind it. -/
def looseRows : String := "[\x7b\"group\":\"g\"\x7d,\x7b\"scope\":\"a\"\x7d,7]"

set_option maxRecDepth 4000 in
/-- Rows in both spellings are accepted and name alike, and loose ones are refused row by row. -/
theorem ofVariables_of_rows_bothSpellings :
    (∃ s, ofVariables [(packageRowsVariable, spelledRows)] = .ok s ∧
      s.packages.packageName ⟨"v-core", "g"⟩ = "@a/core" ∧
      s.packages.packageName ⟨"w-core", "g"⟩ = "@a/core") ∧
    ofVariables [(packageRowsVariable, looseRows)] =
      .error (.invalid [⟨[.key "scope_registry", .index 1, .key "group"], .missing⟩,
        ⟨[.key "scope_registry", .index 2], .notObject "RegistryEntry"⟩]) := by
  constructor
  · have given : Variables.value? [(packageRowsVariable, spelledRows)] packageRowsVariable =
        some spelledRows := rfl
    have parsed : Json.parse spelledRows = .ok (.arr
        [.obj [("group", .str "g"), ("prefix", .str "v-"), ("stripPrefix", .bool true)],
          .obj [("group", .str "g"), ("prefix", .str "w-"), ("strip_prefix", .int 1),
            ("scope", .str "a")]]) := by rfl
    obtain ⟨accepted, rows, -⟩ := ofVariables_of_rows given parsed rfl rfl
    have first : PackageRow.ofJson
        (.obj [("group", .str "g"), ("prefix", .str "v-"), ("stripPrefix", .bool true)]) =
        .valid ⟨"g", "", some "v-", true, none, none⟩ := by rfl
    have second : PackageRow.ofJson
        (.obj [("group", .str "g"), ("prefix", .str "w-"), ("strip_prefix", .int 1),
          ("scope", .str "a")]) = .valid ⟨"g", "@a/", some "w-", true, none, none⟩ := by rfl
    obtain ⟨s, made⟩ := accepted.mpr (by simp [first, second])
    obtain ⟨-, named⟩ := (rows s made).2 spelledPackages (.cons first (.cons second .nil))
    refine ⟨s, made, ?_, ?_⟩
    · rw [named]
      decide
    · rw [named]
      decide
  · have given : Variables.value? [(packageRowsVariable, looseRows)] packageRowsVariable =
        some looseRows := rfl
    have parsed : Json.parse looseRows = .ok (.arr
        [.obj [("group", .str "g")], .obj [("scope", .str "a")], .int 7]) := by rfl
    obtain ⟨accepted, -, refused⟩ := ofVariables_of_rows given parsed rfl rfl
    cases outcome : ofVariables [(packageRowsVariable, looseRows)] with
    | ok s =>
      obtain ⟨row, valid⟩ := accepted.mp ⟨s, outcome⟩ (.int 7) (by simp)
      cases valid
    | error fault =>
      rw [refused fault outcome]
      rfl

end Settings

end HostDecl
