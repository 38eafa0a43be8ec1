import HostDecl.Proofs.DocumentEntries

/-!
# Look-ups that fail

A look-up fails if its type has no table yet and the document of the type cannot be had or is refused,
wherever in the document, and whatever was read of it by then.

**A failed look-up leaves nothing but its record** (`failed_lookUp_leaves_no_trace`): the caches and the
files are as before, so every continuation of the run is the one that there would have been without it.
As long as nobody touches the document, the type is refused again with the same fault, whichever accessor
asks. Once the document is replaced by one that is accepted, or is removed, the next look-up of the type
answers from what is there then.

What carries this is that one condition on the cache and on the files makes a look-up fail
(`table_eq_error`), and that no step changes either side of it but an edit of the document itself
(`Refusing.step`).

**What it does not establish.** The files change between look-ups only. A document that changes while it
is being read is not covered.
-/

namespace HostDecl

/-! ## When a document loads -/

/-- Two disks show the same at a path. -/
structure SameFile (p : Path) (d other : Disk) : Prop where
  pathExists : other.pathExists p = d.pathExists p
  readBytes : other.readBytes p = d.readBytes p

/-- Loading a document depends on nothing but what its path shows. -/
theorem loadOverrides_congr {d other : Disk} {base : Path} {typeName : String}
    (same : SameFile (documentPath base typeName) d other) :
    loadOverrides other base typeName = loadOverrides d base typeName := by
  have text : other.sideText base (documentName typeName) =
      d.sideText base (documentName typeName) := by
    simp only [Disk.sideText, Disk.readText]
    rw [← documentPath, same.pathExists, same.readBytes]
  rw [loadOverrides, loadOverrides, text]

/-- The text that is included for a document that is there. -/
theorem sideText_of_readText {disk : Disk} {base : Path} {typeName text : String}
    (present : disk.pathExists (documentPath base typeName) = .ok true)
    (read : disk.readText (documentPath base typeName) = .ok text) :
    disk.sideText base (documentName typeName) =
      .ok (String.ofList (withBlankLine text.toList)) := by
  rw [documentPath] at present read
  simp only [Disk.sideText, present, read]

/-- A document whose members can be read loads. -/
theorem loadOverrides_of_documentMembers {disk : Disk} {base : Path} {typeName : String}
    {members : List (Text × Json)} {table : OverrideTable}
    (document : DocumentMembers disk base typeName members)
    (read : OverrideTable.ofMembers (documentName typeName) members = .ok table) :
    loadOverrides disk base typeName = .ok table := by
  cases document with
  | missing absent =>
    cases read
    rw [documentPath] at absent
    have nothing : disk.sideText base (documentName typeName) = .ok "" := by
      simp only [Disk.sideText, absent]
    rw [loadOverrides, nothing]
    rfl
  | blank present given blank =>
    cases read
    simp only [loadOverrides, sideText_of_readText present given, String.toList_ofList,
      allBlank_withBlankLine, blank, if_true]
  | object present given notBlank parsed =>
    simp only [loadOverrides, sideText_of_readText present given, String.toList_ofList,
      allBlank_withBlankLine, notBlank, OverrideTable.ofText_of_parse parsed, read]
    rfl

namespace OverrideCache

/-! ## When a look-up fails -/

/-- A table more is a type more. -/
theorem mem_keptTypes_keep {c : OverrideCache} {typeName : String} {table : OverrideTable}
    {other : String} :
    other ∈ (c.keep typeName table).keptTypes ↔ other ∈ c.keptTypes ∨ other = typeName := by
  rw [keptTypes_keep, List.mem_append, List.mem_singleton]

/-- A type has no table exactly if none is kept and its document does not load. -/
theorem table_eq_error {c : OverrideCache} {d : Disk} {typeName : String} {fault : LookupFault} :
    c.table d typeName = .error fault ↔
      typeName ∉ c.keptTypes ∧ loadOverrides d c.base typeName = .error fault := by
  rw [← lookup_eq_none_iff_notMem_keptTypes, OverrideCache.table]
  cases c.tables.lookup typeName with
  | some table => simp
  | none => cases loadOverrides d c.base typeName <;> simp

/-- All accessors fail alike, about all methods. -/
theorem lookUp_eq_error {c : OverrideCache} {d : Disk} {accessor : Accessor} {typeName : String}
    {method : Text} {fault : LookupFault} :
    c.lookUp d accessor typeName method = .error fault ↔ c.table d typeName = .error fault := by
  rw [lookUp_eq]
  cases c.table d typeName <;> simp [Except.map]

/-- The first answer about a type is what its document says, and the type is kept from then on. -/
theorem lookUp_of_documentMembers {c : OverrideCache} {d : Disk} {typeName : String}
    {members : List (Text × Json)} (unknown : typeName ∉ c.keptTypes)
    (document : DocumentMembers d c.base typeName members)
    (good : ∀ member ∈ members, IsEntry member.2) (accessor : Accessor) (method : Text) :
    ∃ said after, MembersSay members method said ∧
      c.lookUp d accessor typeName method = .ok (accessor.read said, after) ∧
      after.keptTypes = c.keptTypes ++ [typeName] := by
  obtain ⟨table, read⟩ : ∃ table,
      OverrideTable.ofMembers (documentName typeName) members = .ok table :=
    OverrideTable.exists_ofMembers_eq_ok.mpr good
  have had : c.table d typeName = .ok (table, c.keep typeName table) := by
    rw [OverrideCache.table, lookup_eq_none_iff_notMem_keptTypes.mpr unknown,
      loadOverrides_of_documentMembers document read]
    rfl
  refine ⟨table.lookup method, c.keep typeName table, OverrideTable.lookup_ofMembers read method, ?_,
    keptTypes_keep c typeName table⟩
  rw [lookUp_eq, had]
  rfl

/-! ## Runs -/

section Runs

variable {ι : Type} [DecidableEq ι] {w : World ι} {cache : ι} {typeName : String}
  {fault : LookupFault}

/-- A failed look-up is recorded, and that is all. -/
theorem World.step_of_failed {accessor : Accessor} {method : Text}
    (failed : (w.caches cache).lookUp w.disk accessor typeName method = .error fault) :
    w.step (.lookUp cache accessor typeName method) =
      { w with
        history := w.history ++ [⟨w.disk, cache, accessor, typeName, method, .error fault⟩] } := by
  rw [World.step, failed]

/-- What a step does does not depend on what is recorded. -/
theorem World.step_with_history (w : World ι) (s : Step ι) :
    ∃ (last : World ι) (records : List (Record ι)), ∀ history,
      ({ w with history := history } : World ι).step s =
        { last with history := history ++ records } := by
  cases s with
  | edit after =>
    refine ⟨{ w with disk := after }, [], fun history => ?_⟩
    rw [List.append_nil]
    rfl
  | lookUp cache accessor typeName method =>
    cases outcome : (w.caches cache).lookUp w.disk accessor typeName method with
    | error fault =>
      refine ⟨w, [⟨w.disk, cache, accessor, typeName, method, .error fault⟩], fun history => ?_⟩
      exact World.step_of_failed (w := { w with history := history }) outcome
    | ok answer =>
      obtain ⟨answer, after⟩ := answer
      refine ⟨{ w with caches := Function.update w.caches cache after },
        [⟨w.disk, cache, accessor, typeName, method, .ok answer⟩], fun history => ?_⟩
      simp only [World.step, outcome]

/-- Nor does a run. -/
theorem World.run_with_history (w : World ι) (steps : List (Step ι)) :
    ∃ (last : World ι) (records : List (Record ι)), ∀ history,
      ({ w with history := history } : World ι).run steps =
        { last with history := history ++ records } := by
  induction steps generalizing w with
  | nil => exact ⟨w, [], fun history => by rw [List.append_nil]; rfl⟩
  | cons s rest ih =>
    obtain ⟨next, first, stepped⟩ := w.step_with_history s
    obtain ⟨last, others, ran⟩ := ih next
    refine ⟨last, first ++ others, fun history => ?_⟩
    rw [World.run, List.foldl_cons, stepped, ← World.run, ran, List.append_assoc]

/-- A look-up leaves the files alone, and each cache as it is, except that the cache that is asked may
keep the type that is asked about, if its document loads. -/
theorem World.step_lookUp (w : World ι) (asked : ι) (accessor : Accessor) (other : String)
    (method : Text) (cache : ι) :
    (w.step (.lookUp asked accessor other method)).disk = w.disk ∧
      ((w.step (.lookUp asked accessor other method)).caches cache = w.caches cache ∨
        ∃ table, cache = asked ∧ loadOverrides w.disk (w.caches cache).base other = .ok table ∧
          (w.step (.lookUp asked accessor other method)).caches cache =
            (w.caches cache).keep other table) := by
  cases had : (w.caches asked).table w.disk other with
  | error fault =>
    rw [World.step_of_failed (lookUp_eq_error.mpr had)]
    exact ⟨rfl, .inl rfl⟩
  | ok answer =>
    obtain ⟨table, after⟩ := answer
    simp only [World.step, lookUp_eq, had, Except.map, true_and]
    by_cases here : cache = asked
    · subst here
      rw [Function.update_self]
      rcases table_eq_ok had with ⟨-, rfl⟩ | ⟨-, load, rfl⟩
      · exact .inl rfl
      · exact .inr ⟨table, rfl, load, rfl⟩
    · exact .inl (Function.update_of_ne here _ _)

/-- A type that a cache is not asked about is not kept. -/
theorem World.notMem_keptTypes_run {w : World ι} (unknown : typeName ∉ (w.caches cache).keptTypes)
    {steps : List (Step ι)}
    (unasked : ∀ accessor method, .lookUp cache accessor typeName method ∉ steps) :
    typeName ∉ ((w.run steps).caches cache).keptTypes := by
  induction steps generalizing w with
  | nil => exact unknown
  | cons s rest ih =>
    refine ih (w := w.step s) ?_ fun accessor method mem =>
      unasked accessor method (List.mem_cons_of_mem s mem)
    cases s with
    | edit d => exact unknown
    | lookUp asked accessor other method =>
      rcases (w.step_lookUp asked accessor other method cache).2 with same | ⟨table, rfl, -, more⟩
      · rw [same]
        exact unknown
      · rw [more, mem_keptTypes_keep]
        rintro (kept | rfl)
        · exact unknown kept
        · exact unasked accessor method List.mem_cons_self

/-- A cache refuses a type with a fault. -/
def Refusing (cache : ι) (typeName : String) (fault : LookupFault) (w : World ι) : Prop :=
  (w.caches cache).table w.disk typeName = .error fault

/-- A type that is refused stays refused unless its document is changed: a look-up of the type fails,
and any other one keeps another type or is another cache's. -/
theorem Refusing.step (refusing : Refusing cache typeName fault w) {s : Step ι}
    (untouched : ∀ d, s = .edit d →
      loadOverrides d (w.caches cache).base typeName = .error fault) :
    Refusing cache typeName fault (w.step s) := by
  obtain ⟨unknown, refused⟩ := table_eq_error.mp refusing
  cases s with
  | edit d => exact table_eq_error.mpr ⟨unknown, untouched d rfl⟩
  | lookUp asked accessor other method =>
    obtain ⟨files, same | ⟨table, -, load, more⟩⟩ := w.step_lookUp asked accessor other method cache
    · rw [Refusing, files, same]
      exact refusing
    · rw [Refusing, files, more]
      refine table_eq_error.mpr ⟨?_, refused⟩
      rw [mem_keptTypes_keep]
      rintro (kept | rfl)
      · exact unknown kept
      · cases load.symm.trans refused

/-- So it does in a run. -/
theorem Refusing.run {bases : ι → Path} (faithful : Faithful bases w)
    (refusing : Refusing cache typeName fault w) {steps : List (Step ι)}
    (untouched : ∀ d, .edit d ∈ steps → loadOverrides d (bases cache) typeName = .error fault) :
    Refusing cache typeName fault (w.run steps) := by
  induction steps generalizing w with
  | nil => exact refusing
  | cons s rest ih =>
    refine ih (w := w.step s) (faithful.step s) (refusing.step fun d edit => ?_) fun d mem =>
      untouched d (List.mem_cons_of_mem s mem)
    rw [faithful.base]
    exact untouched d (edit ▸ List.mem_cons_self)

/-- A look-up fails only where the type has no table and what stands in the place of its document cannot
be read as entries. It changes nothing but the history, and whatever follows is as it would be without
it. The type is refused alike until its document changes. When the document can be read, or is gone, the
next look-up of the type answers what it says by then. -/
theorem failed_lookUp_leaves_no_trace (bases : ι → Path) (disk : Disk) (steps : List (Step ι))
    (cache : ι) (accessor : Accessor) (typeName : String) (method : Text) (fault : LookupFault)
    (failed : (((World.start bases disk).run steps).caches cache).lookUp
      ((World.start bases disk).run steps).disk accessor typeName method = .error fault) :
    let w := (World.start bases disk).run steps
    let after := w.step (.lookUp cache accessor typeName method)
    (typeName ∉ (w.caches cache).keptTypes ∧
      ¬ ∃ members, DocumentMembers w.disk (bases cache) typeName members ∧
        ∀ member ∈ members, IsEntry member.2) ∧
    after = { w with
      history := w.history ++ [⟨w.disk, cache, accessor, typeName, method, .error fault⟩] } ∧
    (∀ more, ∃ (last : World ι) (records : List (Record ι)),
      w.run more = { last with history := w.history ++ records } ∧
      after.run more = { last with history := after.history ++ records }) ∧
    (∀ more, (∀ d, .edit d ∈ more → SameFile (documentPath (bases cache) typeName) w.disk d) →
      typeName ∉ ((after.run more).caches cache).keptTypes ∧
      ∀ accessor method, ((after.run more).caches cache).lookUp (after.run more).disk accessor
        typeName method = .error fault) ∧
    (∀ more, (∀ accessor method, .lookUp cache accessor typeName method ∉ more) →
      typeName ∉ ((after.run more).caches cache).keptTypes) ∧
    ∀ more members, typeName ∉ ((after.run more).caches cache).keptTypes →
      DocumentMembers (after.run more).disk (bases cache) typeName members →
      (∀ member ∈ members, IsEntry member.2) →
      ∀ accessor method, ∃ said kept, MembersSay members method said ∧
        ((after.run more).caches cache).lookUp (after.run more).disk accessor typeName method =
          .ok (accessor.read said, kept) ∧
        kept.keptTypes = ((after.run more).caches cache).keptTypes ++ [typeName] := by
  intro w after
  have faithful : Faithful bases w := (Faithful.start bases disk).run steps
  have recorded : after = { w with
      history := w.history ++ [⟨w.disk, cache, accessor, typeName, method, .error fault⟩] } :=
    World.step_of_failed failed
  have faithfulAfter : Faithful bases after := faithful.step _
  have refusing : Refusing cache typeName fault w := lookUp_eq_error.mp failed
  have refusingAfter : Refusing cache typeName fault after := by
    rw [recorded]
    exact refusing
  obtain ⟨unknown, refused⟩ := table_eq_error.mp refusing
  rw [faithful.base] at refused
  refine ⟨⟨unknown, ?unread⟩, recorded, ?same, ?again, ?unasked, ?recovered⟩
  case unread =>
    rintro ⟨members, document, good⟩
    rw [← faithful.base] at document
    obtain ⟨_, _, -, answered, -⟩ := lookUp_of_documentMembers unknown document good accessor method
    cases failed.symm.trans answered
  case same =>
    intro more
    obtain ⟨last, records, ran⟩ := w.run_with_history more
    refine ⟨last, records, ran w.history, ?_⟩
    rw [recorded]
    exact ran _
  case again =>
    intro more untouched
    have still : Refusing cache typeName fault (after.run more) :=
      refusingAfter.run faithfulAfter fun d mem =>
        (loadOverrides_congr (untouched d mem)).trans refused
    exact ⟨(table_eq_error.mp still).1, fun _ _ => lookUp_eq_error.mpr still⟩
  case unasked =>
    intro more unasked
    exact World.notMem_keptTypes_run (table_eq_error.mp refusingAfter).1 unasked
  case recovered =>
    intro more members fresh document good accessor method
    refine lookUp_of_documentMembers fresh ?_ good accessor method
    rw [(faithfulAfter.run more).base]
    exact document

end Runs

/-- A disk with a document whose second entry is none. -/
def brokenDisk : Disk :=
  emptyDisk.put (Location.root.child (documentName "Vertx"))
    (.file "\x7b\"close\":\"()\",\"size\":7\x7d".toUTF8)

/-- The first entry of the document is never seen, and the document that is put in its place is. -/
theorem failed_lookUp_leaves_no_trace_brokenDocument :
    let w := (World.start (fun _ : Bool => .here) brokenDisk).run [.lookUp true .entry "Set" "add"]
    let after := w.step (.lookUp true .arguments "Vertx" "close")
    (w.caches true).lookUp w.disk .arguments "Vertx" "close" =
        .error (.document (.wrongKind "Vertx.override.json" "size" "int")) ∧
      (after.caches true).keptTypes = ["Set"] ∧
      ∃ kept, ((after.run [.edit writtenDisk]).caches true).lookUp writtenDisk .arguments "Vertx"
          "close" = .ok (.text (some "(done: boolean)"), kept) ∧
        kept.keptTypes = ["Set", "Vertx"] := by
  intro w after
  have failed : (w.caches true).lookUp w.disk .arguments "Vertx" "close" =
      .error (.document (.wrongKind "Vertx.override.json" "size" "int")) := by rfl
  obtain ⟨-, recorded, -, -, unasked, recovered⟩ :=
    failed_lookUp_leaves_no_trace (fun _ : Bool => .here) brokenDisk
      [.lookUp true .entry "Set" "add"] true .arguments "Vertx" "close" _ failed
  have kept : (after.caches true).keptTypes = ["Set"] := by
    rw [show after = _ from recorded]
    rfl
  have read : writtenDisk.readText (documentPath .here "Vertx") =
      .ok "\x7b\"close\":\"(done: boolean)\"\x7d" := by rfl
  have document : DocumentMembers writtenDisk .here "Vertx" [("close", .str "(done: boolean)")] :=
    .object (by rfl) read (by rfl) (by rfl)
  obtain ⟨said, later, meant, answered, types⟩ := recovered [.edit writtenDisk] _
    (unasked [.edit writtenDisk] (by simp)) document
    (by simpa using ⟨_, EntryOf.bare "(done: boolean)"⟩) .arguments "close"
  have entry : MembersSay [("close", .str "(done: boolean)")] "close"
      (some ⟨some "(done: boolean)", none, false⟩) := .entry rfl (.bare _)
  cases meant.unique entry
  refine ⟨failed, kept, later, answered, types.trans ?_⟩
  change (after.caches true).keptTypes ++ ["Vertx"] = _
  rw [kept]
  rfl

end OverrideCache

end HostDecl
