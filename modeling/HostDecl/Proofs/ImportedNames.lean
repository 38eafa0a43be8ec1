import HostDecl.Proofs.ImportHistory
import HostDecl.Proofs.Typing

/-!
# The names that are imported

A ledger tells types apart by their simple names as they are given. The text of a type has the simple name
without its arguments. The two agree on `Vertx`; they do not agree on `Pair<Integer,Long>` and
`Pair<String,String>`, which are two keys and one name.

**One import for each spelling** (`one_import_iff_one_spelling`): of the references to one name of one
module, those ask for an import that are the first with their spelling, as far as the ledger has not
recorded them before. So the name is imported at most once exactly if these references spell it in one way.

A module may have slashes in its name, and then a key can be read in two ways. The premise that simple
names have none is what makes a key belong to one module; without it there are no more imports than
spellings, but there can be fewer.
-/

namespace HostDecl

open TypeScript

/-! ## Keys -/

/-- What stands behind the last separator. -/
theorem eq_of_append_separator {α : Type} {separator : α} {front behind front' behind' : List α}
    (last : separator ∉ behind) (last' : separator ∉ behind')
    (same : front ++ separator :: behind = front' ++ separator :: behind') :
    front = front' ∧ behind = behind' := by
  -- a longer front would have the other separator behind it
  have aligned : ∀ {front behind front' behind' : List α}, separator ∉ behind → ∀ more,
      front' = front ++ more → separator :: behind = more ++ separator :: behind' →
      front = front' ∧ behind = behind' := by
    intro front behind front' behind' last more longer same
    cases more with
    | nil =>
      rw [List.nil_append] at same
      cases same
      exact ⟨by rw [longer, List.append_nil], rfl⟩
    | cons first others =>
      cases same
      exact absurd (by simp) last
  rcases List.append_eq_append_iff.mp same with ⟨more, longer, rest⟩ | ⟨more, longer, rest⟩
  · exact aligned last more longer rest
  · obtain ⟨fronts, behinds⟩ := aligned last' more longer rest
    exact ⟨fronts.symm, behinds.symm⟩

namespace Descriptor

/-- The simple name has no slash in it. -/
def HasFlatName (d : Descriptor) : Prop := .char '/' ∉ d.simpleName.points

theorem importKey_points (d : Descriptor) :
    d.importKey.points = (d.moduleName.getD "None").points ++ .char '/' :: d.simpleName.points := by
  rw [importKey]
  simp only [Text.points_append, List.append_assoc]
  rfl

/-- In one module, keys are simple names. -/
theorem importKey_eq_iff {d e : Descriptor} {module : Text} (inside : d.moduleName = some module)
    (inside' : e.moduleName = some module) :
    d.importKey = e.importKey ↔ d.simpleName = e.simpleName := by
  constructor
  · intro same
    have points := congrArg Text.points same
    rw [importKey_points, importKey_points, inside, inside', List.append_cancel_left_eq,
      List.cons.injEq] at points
    exact congrArg Text.mk points.2
  · intro same
    rw [importKey, importKey, inside, inside', same]

/-- Without slashes in simple names, a key can be read in one way: the slash that was put into it is its last
one. -/
theorem importKey_eq_iff_of_flat {d e : Descriptor} (flat : d.HasFlatName) (flat' : e.HasFlatName) :
    d.importKey = e.importKey ↔
      d.moduleName.getD "None" = e.moduleName.getD "None" ∧ d.simpleName = e.simpleName := by
  constructor
  · intro same
    have points := congrArg Text.points same
    rw [importKey_points, importKey_points] at points
    obtain ⟨modules, names⟩ := eq_of_append_separator flat flat' points
    exact ⟨congrArg Text.mk modules, congrArg Text.mk names⟩
  · rintro ⟨modules, names⟩
    rw [importKey, importKey, modules, names]

/-- Without slashes in simple names, a key belongs to one module. -/
theorem moduleName_eq_of_importKey_eq {d e : Descriptor} {module module' : Text}
    (inside : d.moduleName = some module) (inside' : e.moduleName = some module')
    (flat : d.HasFlatName) (flat' : e.HasFlatName) (same : d.importKey = e.importKey) :
    module = module' := by
  have modules := ((importKey_eq_iff_of_flat flat flat').mp same).1
  rwa [inside, inside'] at modules

/-- A class of a module under a name: the simple name without arguments is that name. -/
def isNamed (module name : Text) (d : Descriptor) : Bool :=
  d.moduleName = some module && d.bareSimpleName = name

theorem isNamed_iff {module name : Text} {d : Descriptor} :
    d.isNamed module name = true ↔ d.moduleName = some module ∧ d.bareSimpleName = name := by
  rw [isNamed, Bool.and_eq_true, decide_eq_true_eq, decide_eq_true_eq]

/-- The text of a type has its simple name without arguments, unless the type has an alias, or declares
parameters and comes without arguments. -/
theorem typeExpr_of_unaliased {d : Descriptor} (wellFormed : d.WellFormed) (api : d.kind = .api)
    (unaliased : alias? d.bareName = none) (plain : d.hasArguments = true ∨ d.typeParameters = []) :
    ∃ type, d.typeExpr = .ok type ∧ (type = .named d.bareSimpleName ∨
      ∃ arguments, type = .generic (.named d.bareSimpleName) arguments) := by
  obtain ⟨_, typed, types, rfl⟩ := wellFormed.typed (Q := fun d type => ∃ types, type = d.shape types)
    fun _ types _ _ _ => ⟨types, rfl⟩
  refine ⟨_, typed, ?_⟩
  have base : aliasOr d.bareName d.bareSimpleName = .named d.bareSimpleName := by
    rw [aliasOr, unaliased]
  simp only [shape, api, base]
  split
  next => exact .inr ⟨types, rfl⟩
  next bare => exact .inl (if_pos (by simp [plain.resolve_left bare]))

end Descriptor

namespace ImportLedger

variable {ι : Type}

/-! ## Imports -/

/-- The references that ask for an import, of references made one after the other. -/
def imports (l : ImportLedger ι) : List (ι × Descriptor) → List (ι × Descriptor)
  | [] => []
  | (label, d) :: rest =>
    let (visible, after) := l.refer label d
    if visible then after.imports rest else (label, d) :: after.imports rest

/-- References to a name of a module. -/
def named (module name : Text) (calls : List (ι × Descriptor)) : List (ι × Descriptor) :=
  calls.filter fun call => call.2.isNamed module name

/-- The spellings of names, one for each reference. -/
def spellings (calls : List (ι × Descriptor)) : List Text := calls.map fun call => call.2.simpleName

/-- The references whose keys a ledger has not recorded. -/
def unrecorded (l : ImportLedger ι) (calls : List (ι × Descriptor)) : List (ι × Descriptor) :=
  calls.filter fun call => call.2.importKey ∉ l.keys

/-- A reference that changes nothing asks for nothing; any other one asks for an import, and its key is
recorded. -/
theorem refer_cases (l : ImportLedger ι) (label : ι) (d : Descriptor) :
    ((d.moduleName = none ∨ d.importKey ∈ l.keys) ∧ l.refer label d = (true, l)) ∨
      ∃ module after, d.moduleName = some module ∧ d.importKey ∉ l.keys ∧
        l.refer label d = (false, after) ∧ after.keys = l.keys ++ [d.importKey] := by
  have keys := keys_add l label d
  rw [add_eq] at keys
  cases inside : d.moduleName with
  | none => exact .inl ⟨.inl rfl, by simp only [refer, inside]⟩
  | some module =>
    simp only [refer, inside, add_eq]
    split at keys
    next there => exact .inl ⟨.inr there, by rw [if_pos there]; rfl⟩
    next absent => exact .inr ⟨module, _, rfl, absent, by rw [if_neg absent]; rfl, keys⟩

theorem imports_sublist (l : ImportLedger ι) (calls : List (ι × Descriptor)) :
    (l.imports calls).Sublist calls := by
  induction calls generalizing l with
  | nil => exact .refl _
  | cons call rest ih =>
    rw [imports]
    dsimp only
    split
    · exact (ih _).cons _
    · exact (ih _).cons_cons _

/-- No key is imported twice, and none that was recorded before. -/
theorem imports_keys (l : ImportLedger ι) (calls : List (ι × Descriptor)) :
    (offeredKeys (l.imports calls)).Nodup ∧
      ∀ key ∈ offeredKeys (l.imports calls), key ∉ l.keys := by
  induction calls generalizing l with
  | nil => exact ⟨List.nodup_nil, fun _ mem => nomatch mem⟩
  | cons call rest ih =>
    obtain ⟨label, d⟩ := call
    rcases l.refer_cases label d with ⟨-, eq⟩ | ⟨module, after, -, absent, eq, keys⟩
    · simp only [imports, eq]
      exact ih l
    · obtain ⟨nodup, fresh⟩ := ih after
      rw [keys] at fresh
      simp only [imports, eq]
      refine ⟨List.nodup_cons.mpr ⟨fun again => ?_, nodup⟩, List.forall_mem_cons.mpr ⟨absent, ?_⟩⟩
      · exact fresh _ again (List.mem_append_right _ (List.mem_singleton_self _))
      · exact fun key mem there => fresh key mem (List.mem_append_left _ there)

theorem named_cons_of_pos {module name : Text} {call : ι × Descriptor}
    (mine : call.2.isNamed module name = true) (rest : List (ι × Descriptor)) :
    named module name (call :: rest) = call :: named module name rest :=
  List.filter_cons_of_pos mine

theorem named_cons_of_neg {module name : Text} {call : ι × Descriptor}
    (other : ¬call.2.isNamed module name = true) (rest : List (ι × Descriptor)) :
    named module name (call :: rest) = named module name rest :=
  List.filter_cons_of_neg other

theorem unrecorded_cons_of_mem {l : ImportLedger ι} {call : ι × Descriptor}
    (there : call.2.importKey ∈ l.keys) (rest : List (ι × Descriptor)) :
    l.unrecorded (call :: rest) = l.unrecorded rest :=
  List.filter_cons_of_neg (by simp [there])

theorem unrecorded_cons_of_not_mem {l : ImportLedger ι} {call : ι × Descriptor}
    (absent : call.2.importKey ∉ l.keys) (rest : List (ι × Descriptor)) :
    l.unrecorded (call :: rest) = call :: l.unrecorded rest :=
  List.filter_cons_of_pos (by simp [absent])

/-- One more key leaves out the references that have it. -/
theorem unrecorded_of_keys {l after : ImportLedger ι} {key : Text} (keys : after.keys = l.keys ++ [key])
    (calls : List (ι × Descriptor)) :
    after.unrecorded calls = (l.unrecorded calls).filter fun call => call.2.importKey ≠ key := by
  rw [unrecorded, unrecorded, List.filter_filter]
  refine List.filter_congr fun call _ => ?_
  simp only [keys, List.mem_append, List.mem_singleton, not_or, ne_eq, Bool.decide_and,
    Bool.and_comm]

/-- Imports of one name are spelled differently. -/
theorem nodup_spellings_imports (l : ImportLedger ι) (calls : List (ι × Descriptor))
    (module name : Text) : (spellings (named module name (l.imports calls))).Nodup := by
  have keys : (offeredKeys (named module name (l.imports calls))).Nodup :=
    (l.imports_keys calls).1.sublist (List.filter_sublist.map _)
  refine List.Nodup.map_on ?_ (List.Nodup.of_map _ keys)
  intro a first b second same
  have inside := (Descriptor.isNamed_iff.mp (List.mem_filter.mp first).2).1
  have inside' := (Descriptor.isNamed_iff.mp (List.mem_filter.mp second).2).1
  exact List.inj_on_of_nodup_map keys first second
    ((Descriptor.importKey_eq_iff inside inside').mpr same)

/-- An import is an import of a reference whose key is not recorded. -/
theorem spellings_imports_subset (l : ImportLedger ι) (calls : List (ι × Descriptor))
    (module name : Text) : ∀ spelling ∈ spellings (named module name (l.imports calls)),
      spelling ∈ spellings (l.unrecorded (named module name calls)) := by
  intro spelling mem
  obtain ⟨call, there, rfl⟩ := List.mem_map.mp mem
  obtain ⟨imported, mine⟩ := List.mem_filter.mp there
  have unrecorded := (l.imports_keys calls).2 _ (List.mem_map_of_mem imported)
  refine List.mem_map_of_mem (List.mem_filter.mpr ⟨List.mem_filter.mpr ⟨?_, mine⟩, ?_⟩)
  · exact (l.imports_sublist calls).subset imported
  · exact decide_eq_true unrecorded

/-- **The imports of a name are the first references of each spelling**, among those that the ledger has
not recorded. -/
theorem spellings_imports {l : ImportLedger ι} {calls : List (ι × Descriptor)}
    (flat : ∀ call ∈ calls, call.2.HasFlatName) (module name : Text) :
    spellings (named module name (l.imports calls)) =
      (spellings (l.unrecorded (named module name calls))).eraseDups := by
  induction calls generalizing l with
  | nil => rfl
  | cons call rest ih =>
    obtain ⟨label, d⟩ := call
    obtain ⟨flatFirst, flatRest⟩ := List.forall_mem_cons.mp flat
    rcases l.refer_cases label d with ⟨kept, eq⟩ | ⟨home, after, inside, absent, eq, keys⟩
    · -- the reference is to another name, or its key is recorded
      have same : l.unrecorded (named module name ((label, d) :: rest)) =
          l.unrecorded (named module name rest) := by
        by_cases mine : d.isNamed module name = true
        · rw [named_cons_of_pos mine]
          refine unrecorded_cons_of_mem (kept.resolve_left fun outside => ?_) _
          rw [(Descriptor.isNamed_iff.mp mine).1] at outside
          cases outside
        · rw [named_cons_of_neg mine]
      rw [same, ← ih flatRest]
      simp only [imports, eq, if_true]
    · have imported : l.imports ((label, d) :: rest) = (label, d) :: after.imports rest := by
        simp only [imports, eq, Bool.false_eq_true, if_false]
      rw [imported]
      by_cases mine : d.isNamed module name = true
      · -- of the later references of the name, those with this spelling are recorded now
        obtain ⟨here, -⟩ := Descriptor.isNamed_iff.mp mine
        have unseen : spellings (after.unrecorded (named module name rest)) =
            (spellings (l.unrecorded (named module name rest))).filter
              fun spelling => !spelling == d.simpleName := by
          rw [unrecorded_of_keys keys, spellings, spellings, List.filter_map]
          refine congrArg _ (List.filter_congr fun call mem => ?_)
          have there := (Descriptor.isNamed_iff.mp
            (List.mem_filter.mp (List.mem_filter.mp mem).1).2).1
          simp [Descriptor.importKey_eq_iff there here, beq_eq_decide]
        rw [named_cons_of_pos mine, named_cons_of_pos mine, unrecorded_cons_of_not_mem absent]
        simp only [spellings, List.map_cons, List.eraseDups_cons]
        exact congrArg _ ((ih flatRest).trans (congrArg List.eraseDups unseen))
      · -- the key of another name is none of theirs
        rw [named_cons_of_neg mine, named_cons_of_neg mine, ih flatRest, unrecorded_of_keys keys,
          List.filter_eq_self.mpr]
        intro call mem
        have group := List.mem_filter.mp (List.mem_filter.mp mem).1
        obtain ⟨there, called⟩ := Descriptor.isNamed_iff.mp group.2
        refine decide_eq_true fun same => mine (Descriptor.isNamed_iff.mpr ?_)
        have one_module := Descriptor.moduleName_eq_of_importKey_eq there inside
          (flatRest call group.1) flatFirst same
        subst one_module
        have one_spelling := (Descriptor.importKey_eq_iff there inside).mp same
        refine ⟨inside, ?_⟩
        rw [← called, Descriptor.bareSimpleName, Descriptor.bareSimpleName, one_spelling]

/-- **One import for each spelling.** Of the references to a name of a module, no two that spell it alike
ask for an import, and none whose key is recorded. Where simple names have no slashes, each of the other
spellings is imported, in the order of their first references; so there is one import at most exactly if
there is one spelling at most. The name is the one in the text of an accepted type that has no alias. -/
theorem one_import_iff_one_spelling (l : ImportLedger ι) (calls : List (ι × Descriptor))
    (module name : Text) :
    let asked := named module name (l.imports calls)
    let fresh := spellings (l.unrecorded (named module name calls))
    ((spellings asked).Nodup ∧ ∀ spelling ∈ spellings asked, spelling ∈ fresh) ∧
    ((∀ call ∈ calls, call.2.HasFlatName) → spellings asked = fresh.eraseDups ∧
      (asked.length ≤ 1 ↔ ∀ a ∈ fresh, ∀ b ∈ fresh, a = b)) ∧
    ∀ value d, Descriptor.ofJson value = .valid d → d.kind = .api → d.isNamed module name = true →
      alias? d.bareName = none → d.hasArguments = true ∨ d.typeParameters = [] →
      ∃ type, d.typeExpr = .ok type ∧
        (type = .named name ∨ ∃ arguments, type = .generic (.named name) arguments) := by
  intro asked fresh
  refine ⟨⟨nodup_spellings_imports l calls module name, ?_⟩, fun flat => ?_, ?_⟩
  · exact spellings_imports_subset l calls module name
  · have firsts := spellings_imports (l := l) flat module name
    refine ⟨firsts, ?_⟩
    rw [← length_eraseDups_le_one_iff, ← firsts, spellings, List.length_map]
  · intro value d accepted api mine unaliased plain
    obtain ⟨-, rfl⟩ := Descriptor.isNamed_iff.mp mine
    exact Descriptor.typeExpr_of_unaliased (Descriptor.wellFormed_of_ofJson accepted) api unaliased
      plain

/-- A number type. -/
def boxed (simpleName name : String) : Descriptor :=
  ⟨.boxedPrimitive, simpleName, name, none, none, [], false⟩

/-- A pair of two types, whose simple name mentions them. -/
def pairOf (first second : Descriptor) : Descriptor :=
  ⟨.api, "Pair<" ++ first.name ++ "," ++ second.name ++ ">",
    "io.acme.Pair<" ++ first.name ++ "," ++ second.name ++ ">", some "acme", some [first, second],
    ["A", "B"], false⟩

/-- A pair of numbers. -/
def numbers : Descriptor :=
  pairOf (boxed "Integer" "java.lang.Integer") (boxed "Long" "java.lang.Long")

/-- A pair of texts. -/
def texts : Descriptor := pairOf ambient ambient

theorem wellFormed_numbers : numbers.WellFormed := by
  refine .parameterized (by decide) rfl rfl (List.forall_mem_cons.mpr ⟨?_, ?_⟩)
  · exact .leaf (by decide) rfl
  · exact List.forall_mem_singleton.mpr (.leaf (by decide) rfl)

/-- Both pairs ask for an import of the one name that their texts have. -/
theorem one_import_iff_one_spelling_pairs :
    let calls := [("first", numbers), ("second", texts)]
    let asked := named "acme" "Pair" (ImportLedger.empty.imports calls)
    (∀ call ∈ calls, call.2.HasFlatName) ∧
      spellings asked = ["Pair<java.lang.Integer,java.lang.Long>",
        "Pair<java.lang.String,java.lang.String>"] ∧ ¬asked.length ≤ 1 ∧
      Descriptor.ofJson numbers.toJson = .valid numbers ∧
      ∃ type, numbers.typeExpr = .ok type ∧
        (type = .named "Pair" ∨ ∃ arguments, type = .generic (.named "Pair") arguments) := by
  intro calls asked
  have flat : ∀ call ∈ calls, call.2.HasFlatName := by
    simp only [calls, List.forall_mem_cons, Descriptor.HasFlatName]
    exact ⟨by decide, by decide, List.forall_mem_nil _⟩
  have accepted := Descriptor.ofJson_toJson wellFormed_numbers
  obtain ⟨-, imported, printed⟩ := one_import_iff_one_spelling .empty calls "acme" "Pair"
  obtain ⟨firsts, short⟩ := imported flat
  refine ⟨flat, firsts.trans (by decide), fun few => ?_, accepted, ?_⟩
  · exact absurd (short.mp few numbers.simpleName (by decide) texts.simpleName (by decide)) (by decide)
  · exact printed _ numbers accepted rfl (by decide) (by decide) (.inl rfl)

end ImportLedger

end HostDecl
