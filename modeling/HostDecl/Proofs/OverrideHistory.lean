import HostDecl.Proofs.FirstOccurrences
import HostDecl.Proofs.OverrideDocument
import Mathlib.Logic.Function.Basic

/-!
# Look-ups and the history behind them

Any number of caches look documents up while the files change under them. `run` takes such a run step
by step and keeps a record of every look-up: the files it found, what was asked and what came of it.
The caches are not needed to say what a look-up answers; the records are enough.

**The document of a type is the first one answered from** (`lookUp_explained_by_history`): a look-up
that does not fail answers what the document of its type said when its cache first answered about the
type, whichever accessor asked then and whatever happened since.

A failed look-up leaves no trace in any cache, so the first look-up that counts is the first that does
not fail. A document that is missing or blank counts: its empty table is kept like any other.
-/

namespace HostDecl

namespace OverrideCache

/-! ## Look-ups -/

/-- The ways to ask about a method. -/
inductive Accessor where
  | entry
  | arguments
  | returnType
  deriving DecidableEq, Repr

/-- What a look-up answers. -/
inductive Answer where
  | entry (found : Option MethodOverride)
  | text (found : Option Text)
  deriving DecidableEq, Repr

/-- The answer of an accessor about a method that a document says something about. A bare text says
nothing about the return type. -/
def Accessor.read : Accessor → Option MethodOverride → Answer
  | .entry, said => .entry said
  | .arguments, said => .text (said.bind MethodOverride.arguments)
  | .returnType, said =>
    .text (said.bind fun entry => if entry.fromObject then entry.returnType else none)

/-- The answer of a look-up, and the cache afterwards. -/
def lookUp (c : OverrideCache) (d : Disk) (accessor : Accessor) (typeName : String) (method : Text) :
    Except LookupFault (Answer × OverrideCache) :=
  match accessor with
  | .entry => (c.entry d typeName method).map fun (found, after) => (.entry found, after)
  | .arguments => (c.arguments d typeName method).map fun (found, after) => (.text found, after)
  | .returnType => (c.returnType d typeName method).map fun (found, after) => (.text found, after)

/-- All accessors answer from the table of the type, and all leave the cache that the table does. -/
theorem lookUp_eq (c : OverrideCache) (d : Disk) (accessor : Accessor) (typeName : String)
    (method : Text) :
    c.lookUp d accessor typeName method =
      (c.table d typeName).map fun (table, after) =>
        (accessor.read (table.lookup method), after) := by
  cases accessor with
  | entry =>
    rw [lookUp, entry]
    cases c.table d typeName <;> rfl
  | arguments =>
    rw [lookUp, arguments, entry]
    cases c.table d typeName <;> rfl
  | returnType =>
    rw [lookUp, returnType, entry]
    cases c.table d typeName <;> rfl

/-- The cache with one more table. -/
def keep (c : OverrideCache) (typeName : String) (table : OverrideTable) : OverrideCache :=
  { c with tables := c.tables ++ [(typeName, table)] }

theorem base_keep (c : OverrideCache) (typeName : String) (table : OverrideTable) :
    (c.keep typeName table).base = c.base := rfl

theorem keptTypes_keep (c : OverrideCache) (typeName : String) (table : OverrideTable) :
    (c.keep typeName table).keptTypes = c.keptTypes ++ [typeName] := List.map_append

/-- A table kept for a new type changes nothing for the others. -/
theorem lookup_keep {c : OverrideCache} {typeName : String}
    (unknown : c.tables.lookup typeName = none) (table : OverrideTable) (other : String) :
    (c.keep typeName table).tables.lookup other =
      if other = typeName then some table else c.tables.lookup other := by
  rw [keep, List.lookup_append]
  split
  next same =>
    subst same
    rw [unknown, Option.none_or, List.lookup_cons_self]
  next different =>
    rw [List.lookup_cons, beq_false_of_ne different]
    exact Option.or_none

/-- A table that is had was kept already, or was loaded now and is kept behind the others. -/
theorem table_eq_ok {c after : OverrideCache} {d : Disk} {typeName : String} {table : OverrideTable}
    (had : c.table d typeName = .ok (table, after)) :
    (c.tables.lookup typeName = some table ∧ after = c) ∨
      (c.tables.lookup typeName = none ∧ loadOverrides d c.base typeName = .ok table ∧
        after = c.keep typeName table) := by
  unfold OverrideCache.table at had
  split at had
  next kept =>
    cases had
    exact .inl ⟨kept, rfl⟩
  next unknown =>
    split at had
    next loaded =>
      cases had
      exact .inr ⟨unknown, loaded, rfl⟩
    next => cases had

/-- A type is kept exactly if its table is. -/
theorem lookup_eq_none_iff_notMem_keptTypes {c : OverrideCache} {typeName : String} :
    c.tables.lookup typeName = none ↔ typeName ∉ c.keptTypes := by
  rw [List.lookup_eq_none_iff, keptTypes, List.mem_map]
  constructor
  · rintro absent ⟨entry, mem, rfl⟩
    exact absurd (absent entry mem) (by simp)
  · intro absent entry mem
    exact bne_iff_ne.mpr fun same => absent ⟨entry, mem, same.symm⟩

/-! ## Runs -/

section Runs

variable {ι : Type} [DecidableEq ι]

/-- A look-up that was made: the files at that moment, what was asked of which cache, and what came
of it. -/
structure Record (ι : Type) where
  disk : Disk
  cache : ι
  accessor : Accessor
  typeName : String
  method : Text
  outcome : Except LookupFault Answer

/-- The files, the caches, and the look-ups made so far, oldest first. -/
structure World (ι : Type) where
  disk : Disk
  caches : ι → OverrideCache
  history : List (Record ι)

/-- What happens: files are written or removed in any way, or a cache is asked. -/
inductive Step (ι : Type) where
  | edit (after : Disk)
  | lookUp (cache : ι) (accessor : Accessor) (typeName : String) (method : Text)

namespace World

/-- The beginning: every cache has a directory and has kept nothing. -/
def start (bases : ι → Path) (disk : Disk) : World ι := ⟨disk, fun cache => .new (bases cache), []⟩

/-- The world after a step. A failed look-up changes no cache. -/
def step (w : World ι) : Step ι → World ι
  | .edit after => { w with disk := after }
  | .lookUp cache accessor typeName method =>
    let record := Record.mk w.disk cache accessor typeName method
    match (w.caches cache).lookUp w.disk accessor typeName method with
    | .ok (answer, after) =>
      { w with
        caches := Function.update w.caches cache after
        history := w.history ++ [record (.ok answer)] }
    | .error fault => { w with history := w.history ++ [record (.error fault)] }

/-- The world after steps. -/
def run (w : World ι) (steps : List (Step ι)) : World ι := steps.foldl step w

end World

/-- Whether a look-up was an answer of a cache about a type. -/
def Record.isAnswer (cache : ι) (typeName : String) (record : Record ι) : Bool :=
  record.cache = cache && record.typeName = typeName && record.outcome.isOk

/-- The types that a cache has answered about, in the order of the first answers. -/
def answeredTypes (cache : ι) (history : List (Record ι)) : List String :=
  ((history.filter fun record => record.cache = cache && record.outcome.isOk).map
    Record.typeName).eraseDups

/-- A type is answered about if one of the look-ups answered about it. -/
theorem mem_answeredTypes {cache : ι} {typeName : String} {history : List (Record ι)} :
    typeName ∈ answeredTypes cache history ↔
      ∃ record ∈ history, record.isAnswer cache typeName = true := by
  simp only [answeredTypes, List.mem_eraseDups, List.mem_map, List.mem_filter, Record.isAnswer,
    Bool.and_eq_true, decide_eq_true_eq]
  constructor
  · rintro ⟨record, ⟨mem, asked, answered⟩, rfl⟩
    exact ⟨record, mem, ⟨asked, rfl⟩, answered⟩
  · rintro ⟨record, mem, ⟨asked, rfl⟩, answered⟩
    exact ⟨record, ⟨mem, asked, answered⟩, rfl⟩

/-- One more look-up adds its type at the end, if it is the cache's first answer about it. -/
theorem answeredTypes_concat (cache : ι) (history : List (Record ι)) (record : Record ι) :
    answeredTypes cache (history ++ [record]) =
      if record.isAnswer cache record.typeName = true ∧
          record.typeName ∉ answeredTypes cache history then
        answeredTypes cache history ++ [record.typeName]
      else answeredTypes cache history := by
  have asked : record.isAnswer cache record.typeName =
      (decide (record.cache = cache) && record.outcome.isOk) := by simp [Record.isAnswer]
  rw [asked]
  unfold answeredTypes
  rw [List.filter_append]
  cases answer : decide (record.cache = cache) && record.outcome.isOk with
  | false =>
    rw [List.filter_singleton, answer, if_neg (fun both => Bool.false_ne_true both.1)]
    exact congrArg _ (congrArg _ (List.append_nil _))
  | true =>
    rw [List.filter_singleton, answer, List.map_append]
    simp only [true_and, cond_true, List.map_cons, List.map_nil, eraseDups_concat,
      List.mem_eraseDups, ite_not]

theorem nodup_answeredTypes (cache : ι) (history : List (Record ι)) :
    (answeredTypes cache history).Nodup := nodup_eraseDups _

/-- The first answer stays the first. -/
theorem find?_isAnswer_append {cache : ι} {typeName : String} {history : List (Record ι)}
    {first : Record ι} (found : history.find? (Record.isAnswer cache typeName) = some first)
    (later : List (Record ι)) :
    (history ++ later).find? (Record.isAnswer cache typeName) = some first := by
  rw [List.find?_append, found, Option.some_or]

/-- A table kept in one cache changes nothing for the others. -/
theorem lookup_update_keep {caches : ι → OverrideCache} {asked : ι} {typeName : String}
    (unknown : (caches asked).tables.lookup typeName = none) (table : OverrideTable) (cache : ι)
    (other : String) :
    (Function.update caches asked ((caches asked).keep typeName table) cache).tables.lookup other =
      if cache = asked ∧ other = typeName then some table else (caches cache).tables.lookup other := by
  by_cases here : cache = asked
  · subst here
    simp only [Function.update_self, lookup_keep unknown, true_and]
  · rw [Function.update_of_ne here, if_neg fun both => here both.1]

/-- All that a step can do: change the files; record a failed look-up; record an answer, with the
cache left as the table of the type leaves it. -/
theorem World.step_cases (w : World ι) (s : Step ι) :
    (∃ after, w.step s = { w with disk := after }) ∨
      (∃ record fault, record.outcome = .error fault ∧
        w.step s = { w with history := w.history ++ [record] }) ∨
      ∃ record table after, record.disk = w.disk ∧
        (w.caches record.cache).table w.disk record.typeName = .ok (table, after) ∧
        record.outcome = .ok (record.accessor.read (table.lookup record.method)) ∧
        w.step s =
          { w with
            caches := Function.update w.caches record.cache after
            history := w.history ++ [record] } := by
  cases s with
  | edit after => exact .inl ⟨after, rfl⟩
  | lookUp cache accessor typeName method =>
    refine .inr ?_
    cases had : (w.caches cache).table w.disk typeName with
    | error fault =>
      refine .inl ⟨⟨w.disk, cache, accessor, typeName, method, .error fault⟩, fault, rfl, ?_⟩
      simp only [World.step, lookUp_eq, had, Except.map]
    | ok answer =>
      obtain ⟨table, after⟩ := answer
      refine .inr ⟨⟨w.disk, cache, accessor, typeName, method,
        .ok (accessor.read (table.lookup method))⟩, table, after, rfl, had, rfl, ?_⟩
      simp only [World.step, lookUp_eq, had, Except.map]

/-- The caches say no more than the history does: a table that is kept is the one that the first
answer about its type loaded, and every answer is from such a table. -/
structure Faithful (bases : ι → Path) (w : World ι) : Prop where
  base : ∀ cache, (w.caches cache).base = bases cache
  types : ∀ cache, (w.caches cache).keptTypes = answeredTypes cache w.history
  loaded : ∀ cache typeName table, (w.caches cache).tables.lookup typeName = some table →
    ∃ first, w.history.find? (Record.isAnswer cache typeName) = some first ∧
      loadOverrides first.disk (bases cache) typeName = .ok table
  answers : ∀ record ∈ w.history, ∀ answer, record.outcome = .ok answer →
    ∃ table, (w.caches record.cache).tables.lookup record.typeName = some table ∧
      answer = record.accessor.read (table.lookup record.method)

namespace Faithful

variable {bases : ι → Path} {w : World ι}

theorem start (bases : ι → Path) (disk : Disk) : Faithful bases (World.start bases disk) where
  base _ := rfl
  types _ := rfl
  loaded _ _ _ kept := nomatch kept
  answers _ mem := nomatch mem

/-- A look-up that changes no cache, because it fails or because its table is kept. -/
theorem record_of_kept (faithful : Faithful bases w) {record : Record ι}
    (kept : ∀ answer, record.outcome = .ok answer →
      ∃ table, (w.caches record.cache).tables.lookup record.typeName = some table ∧
        answer = record.accessor.read (table.lookup record.method)) :
    Faithful bases { w with history := w.history ++ [record] } where
  base := faithful.base
  types cache := by
    rw [answeredTypes_concat, if_neg, faithful.types]
    rintro ⟨asked, fresh⟩
    -- The type of an answer is kept already, so it is not a new one.
    simp only [Record.isAnswer, Bool.and_eq_true, decide_eq_true_eq] at asked
    obtain ⟨⟨rfl, -⟩, isOk⟩ := asked
    cases outcome : record.outcome with
    | error fault =>
      rw [outcome] at isOk
      cases isOk
    | ok answer =>
      obtain ⟨table, known, -⟩ := kept answer outcome
      rw [← faithful.types, ← lookup_eq_none_iff_notMem_keptTypes, known] at fresh
      cases fresh
  loaded cache typeName table known := by
    obtain ⟨first, found, load⟩ := faithful.loaded cache typeName table known
    exact ⟨first, find?_isAnswer_append found _, load⟩
  answers other mem answer outcome := by
    rcases List.mem_append.mp mem with mem | mem
    · exact faithful.answers other mem answer outcome
    · cases List.mem_singleton.mp mem
      exact kept answer outcome

/-- A look-up that is its cache's first answer about a type, and keeps the table for the later ones. -/
theorem record_of_loaded (faithful : Faithful bases w) {record : Record ι} {table : OverrideTable}
    (now : record.disk = w.disk)
    (unknown : (w.caches record.cache).tables.lookup record.typeName = none)
    (load : loadOverrides w.disk (w.caches record.cache).base record.typeName = .ok table)
    (outcome : record.outcome = .ok (record.accessor.read (table.lookup record.method))) :
    Faithful bases
      { w with
        caches := Function.update w.caches record.cache
          ((w.caches record.cache).keep record.typeName table)
        history := w.history ++ [record] } := by
  have fresh : record.typeName ∉ answeredTypes record.cache w.history := by
    rw [← faithful.types]
    exact lookup_eq_none_iff_notMem_keptTypes.mp unknown
  have isAnswer : record.isAnswer record.cache record.typeName = true := by
    simp [Record.isAnswer, outcome, Except.isOk, Except.toBool]
  constructor
  case base =>
    intro cache
    by_cases here : cache = record.cache
    · subst here
      rw [← faithful.base]
      simp only [Function.update_self, base_keep]
    · simp only [Function.update_of_ne here, faithful.base]
  case types =>
    intro cache
    by_cases here : cache = record.cache
    · subst here
      simp only [Function.update_self, keptTypes_keep, faithful.types]
      rw [answeredTypes_concat, if_pos ⟨isAnswer, fresh⟩]
    · have notAsked : ¬ record.isAnswer cache record.typeName = true := by
        simp [Record.isAnswer, Ne.symm here]
      simp only [Function.update_of_ne here, faithful.types]
      rw [answeredTypes_concat, if_neg fun both => notAsked both.1]
  case loaded =>
    intro cache typeName found known
    rw [lookup_update_keep unknown] at known
    split at known
    next new =>
      obtain ⟨rfl, rfl⟩ := new
      cases known
      refine ⟨record, ?_, ?_⟩
      · -- No earlier look-up answered about the type.
        rw [List.find?_append, List.find?_eq_none.mpr, Option.none_or, List.find?_singleton,
          isAnswer, if_pos rfl]
        intro earlier mem answered
        exact fresh (mem_answeredTypes.mpr ⟨earlier, mem, answered⟩)
      · rw [now, ← faithful.base]
        exact load
    next =>
      obtain ⟨first, first_found, load⟩ := faithful.loaded cache typeName found known
      exact ⟨first, find?_isAnswer_append first_found _, load⟩
  case answers =>
    intro other mem answer answered
    rcases List.mem_append.mp mem with mem | mem
    · obtain ⟨found, known, eq⟩ := faithful.answers other mem answer answered
      refine ⟨found, ?_, eq⟩
      rw [lookup_update_keep unknown, if_neg, known]
      rintro ⟨sameCache, sameType⟩
      rw [sameCache, sameType, unknown] at known
      cases known
    · cases List.mem_singleton.mp mem
      rw [outcome] at answered
      cases answered
      exact ⟨table, by rw [lookup_update_keep unknown, if_pos ⟨rfl, rfl⟩], rfl⟩

/-- Every step keeps the caches faithful. -/
theorem step (faithful : Faithful bases w) (s : Step ι) : Faithful bases (w.step s) := by
  rcases w.step_cases s with ⟨after, eq⟩ | ⟨record, fault, failed, eq⟩ |
    ⟨record, table, after, now, had, outcome, eq⟩
  · rw [eq]
    exact ⟨faithful.base, faithful.types, faithful.loaded, faithful.answers⟩
  · rw [eq]
    refine faithful.record_of_kept fun answer outcome => ?_
    rw [failed] at outcome
    cases outcome
  · rw [eq]
    rcases table_eq_ok had with ⟨known, rfl⟩ | ⟨unknown, load, rfl⟩
    · rw [Function.update_eq_self]
      refine faithful.record_of_kept fun answer answered => ?_
      rw [outcome] at answered
      cases answered
      exact ⟨table, known, rfl⟩
    · exact faithful.record_of_loaded now unknown load outcome

/-- Every run does. -/
theorem run (faithful : Faithful bases w) (steps : List (Step ι)) : Faithful bases (w.run steps) := by
  induction steps generalizing w with
  | nil => exact faithful
  | cons s rest ih => exact ih (faithful.step s)

end Faithful

/-- A step leaves a cache as it is, or keeps one more table in it. -/
theorem World.caches_step (w : World ι) (s : Step ι) (cache : ι) :
    (w.step s).caches cache = w.caches cache ∨
      ∃ typeName table, (w.step s).caches cache = (w.caches cache).keep typeName table := by
  rcases w.step_cases s with ⟨after, eq⟩ | ⟨record, fault, -, eq⟩ |
    ⟨record, table, after, -, had, -, eq⟩
  · exact .inl (by rw [eq])
  · exact .inl (by rw [eq])
  · have updated : (w.step s).caches = Function.update w.caches record.cache after := by rw [eq]
    rw [updated]
    by_cases here : cache = record.cache
    · subst here
      rw [Function.update_self]
      rcases table_eq_ok had with ⟨-, rfl⟩ | ⟨-, -, rfl⟩
      · exact .inl rfl
      · exact .inr ⟨record.typeName, table, rfl⟩
    · exact .inl (Function.update_of_ne here _ _)

/-- A step keeps tables only behind those that are kept already. -/
theorem World.keptTypes_prefix_step (w : World ι) (s : Step ι) (cache : ι) :
    (w.caches cache).keptTypes <+: ((w.step s).caches cache).keptTypes := by
  rcases w.caches_step s cache with same | ⟨typeName, table, more⟩
  · exact ⟨[], by rw [same, List.append_nil]⟩
  · exact ⟨[typeName], by rw [more, keptTypes_keep]⟩

/-- So does a run. -/
theorem World.keptTypes_prefix_run (w : World ι) (steps : List (Step ι)) (cache : ι) :
    (w.caches cache).keptTypes <+: ((w.run steps).caches cache).keptTypes := by
  induction steps generalizing w with
  | nil => exact List.prefix_refl _
  | cons s rest ih => exact (w.keptTypes_prefix_step s cache).trans (ih (w.step s))

/-- Every answer is what the document of its type said at the moment of the cache's first answer about
the type; and a cache keeps exactly the types that it has answered about, in the order of the first
answers, each once, and later steps only add to them at the end. -/
theorem lookUp_explained_by_history (bases : ι → Path) (disk : Disk) (steps : List (Step ι)) :
    let w := (World.start bases disk).run steps
    (∀ record ∈ w.history, ∀ answer, record.outcome = .ok answer →
      ∃ first said,
        w.history.find? (Record.isAnswer record.cache record.typeName) = some first ∧
        (∀ other, DocumentSays first.disk (bases record.cache) record.typeName record.method other ↔
          other = said) ∧
        answer = record.accessor.read said) ∧
    ∀ cache,
      (w.caches cache).keptTypes = answeredTypes cache w.history ∧
      (w.caches cache).keptTypes.Nodup ∧
      ∀ more, (w.caches cache).keptTypes <+: ((w.run more).caches cache).keptTypes := by
  intro w
  have faithful : Faithful bases w := (Faithful.start bases disk).run steps
  constructor
  · intro record mem answer answered
    obtain ⟨table, known, eq⟩ := faithful.answers record mem answer answered
    obtain ⟨first, found, load⟩ := faithful.loaded _ _ _ known
    exact ⟨first, table.lookup record.method, found,
      documentSays_iff_of_loadOverrides load record.method, eq⟩
  · intro cache
    refine ⟨faithful.types cache, ?_, fun more => w.keptTypes_prefix_run more cache⟩
    rw [faithful.types cache]
    exact nodup_answeredTypes cache w.history

end Runs

/-- A disk with nothing on it. -/
def emptyDisk : Disk := ⟨[], .root⟩

/-- A disk with a document that says something about one method. -/
def writtenDisk : Disk :=
  emptyDisk.put (Location.root.child (documentName "Vertx"))
    (.file "\x7b\"close\":\"(done: boolean)\"\x7d".toUTF8)

/-- A document is asked for before it is written. The cache that asked then says nothing about the
method ever after; another cache finds the document. -/
def lateDocument : List (Step Bool) :=
  [.lookUp true .arguments "Vertx" "close", .edit writtenDisk,
    .lookUp true .entry "Vertx" "close", .lookUp false .arguments "Vertx" "close"]

/-- The second answer of the first cache is what its document said before it was written. -/
theorem lookUp_explained_by_history_lateDocument :
    let w := (World.start (fun _ => .here) emptyDisk).run lateDocument
    w.history[1]? =
        some ⟨writtenDisk, true, .entry, "Vertx", "close", .ok (.entry none)⟩ ∧
      ∃ first, w.history.find? (Record.isAnswer true "Vertx") = some first ∧
        first.disk = emptyDisk ∧ DocumentSays first.disk .here "Vertx" "close" none := by
  intro w
  have second : w.history[1]? =
      some ⟨writtenDisk, true, .entry, "Vertx", "close", .ok (.entry none)⟩ := by rfl
  obtain ⟨first, said, found, exactly, answer⟩ :=
    (lookUp_explained_by_history (fun _ : Bool => .here) emptyDisk lateDocument).1 _
      (List.mem_of_getElem? second) _ rfl
  refine ⟨second, first, found, ?_, ?_⟩
  · have early : w.history.find? (Record.isAnswer true "Vertx") =
        some ⟨emptyDisk, true, .arguments, "Vertx", "close", .ok (.text none)⟩ := by rfl
    cases early.symm.trans found
    rfl
  · cases answer
    exact (exactly none).mpr rfl

end OverrideCache

end HostDecl
