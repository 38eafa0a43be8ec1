import HostDecl.Proofs.ImportedNames

/-!
# What is recorded before a type is visible

A ledger answers by keys. Where simple names have no slashes, a key is a module and a simple name
(`Descriptor.importKey_eq_iff_of_flat`), whatever the module is called. So the answers can be told by the types
themselves.

**The law** (`visible_iff_recorded`): after any run, a type of a module is answered to be visible exactly if a
type with its simple name was recorded in that ledger since it was new, and this one is of the same module, or
else the module is called `None` and the recorded type is outside of the modules. A type outside of the modules
is recorded by an addition, never by a reference; so in a run of references the module is the same one.

One request is one step of `records_ask`, which says what it adds to the records; the run is an induction on top
of it.
-/

namespace HostDecl

/-- Without slashes in simple names, a type has the key of a type of a module exactly if it has its simple name
and is of that module; or is outside of the modules, if the module is called `None`. -/
theorem Descriptor.importKey_eq_iff_of_inside {d e : Descriptor} {module : Text}
    (inside : d.moduleName = some module) (flat : d.HasFlatName) (flat' : e.HasFlatName) :
    e.importKey = d.importKey ↔ e.simpleName = d.simpleName ∧
      (e.moduleName = some module ∨ e.moduleName = none ∧ module = "None") := by
  rw [importKey_eq_iff_of_flat flat' flat, inside, and_comm]
  refine and_congr_right fun _ => ?_
  cases e.moduleName with
  | none => simp [eq_comm]
  | some home => simp

namespace ImportLedger

variable {ι σ : Type}

/-! ## Records -/

/-- What is kept of a type: the type with its label, under its key. -/
def keyed (call : ι × Descriptor) : Text × ι × Descriptor := (call.2.importKey, call)

/-- What was recorded by a request: what it offered, if the answer tells of something new. -/
def Event.recorded (event : Event σ ι) : List (ι × Descriptor) :=
  if event.isNew then event.offers else []

/-- The types that were recorded in a ledger since it was new, oldest first. -/
def recorded [DecidableEq σ] (i : σ) (history : List (Event σ ι)) : List (ι × Descriptor) :=
  (lifetime i history).flatMap Event.recorded

/-- A reference records a type of a module that it found invisible, and an addition one that it found new. -/
theorem Event.recorded_cases {event : Event σ ι} {call : ι × Descriptor} (mem : call ∈ event.recorded) :
    (∃ i, event = .answered i (.refer call.1 call.2) (.truth false) ∧ call.2.moduleName ≠ none) ∨
      ∃ i, event = .answered i (.add call.1 call.2) (.truth true) := by
  rw [Event.recorded] at mem
  split at mem
  next new =>
    match event with
    | .answered i (.refer label d) (.truth visible) =>
      rw [Event.isNew, Answer.isNew, Bool.not_eq_true'] at new
      rw [Event.offers, Request.offers] at mem
      split at mem
      next inside =>
        cases List.mem_singleton.mp mem
        exact .inl ⟨i, by rw [new], Option.isSome_iff_ne_none.mp inside⟩
      next => cases mem
    | .answered i (.add label d) (.truth found) =>
      rw [Event.isNew, Answer.isNew] at new
      cases List.mem_singleton.mp mem
      exact .inr ⟨i, by rw [new]⟩
  next => cases mem

/-- What an addition adds to the records. -/
theorem records_add (l : ImportLedger ι) (label : ι) (d : Descriptor) :
    (l.add label d).2.records = l.records ++ if (l.add label d).1 then [keyed (label, d)] else [] := by
  rw [add_eq]
  split
  next => exact (List.append_nil _).symm
  next => rfl

/-- **One request.** The records grow by what was recorded. -/
theorem records_ask (l : ImportLedger ι) (i : σ) (request : Request ι) :
    ((Step.ask i request).on l).2.records =
      l.records ++ ((Step.ask i request).on l).1.recorded.map keyed := by
  cases request with
  | refer label d =>
    cases inside : d.moduleName with
    | none =>
      simp [Step.on, perform, refer, inside, Event.recorded, Event.isNew, Answer.isNew]
    | some module =>
      simp only [Step.on, perform, refer, inside, records_add]
      cases (l.add label d).1 <;>
        simp [Event.recorded, Event.isNew, Answer.isNew, Event.offers, Request.offers, inside]
  | add label d =>
    simp only [Step.on, perform, records_add]
    cases (l.add label d).1 <;>
      simp [Event.recorded, Event.isNew, Answer.isNew, Event.offers, Request.offers]
  | _ => simp [Step.on, perform, Event.recorded, Event.isNew, Answer.isNew]

variable [DecidableEq σ]

/-- What happened to a ledger is about that ledger. -/
theorem ledger_of_mem_lifetime {i : σ} {history : List (Event σ ι)} {event : Event σ ι}
    (happened : event ∈ lifetime i history) : event.ledger = i :=
  of_decide_eq_true (List.mem_filter.mp ((List.rtakeWhile_suffix _ _).subset happened)).2

theorem recorded_answered (i : σ) (history : List (Event σ ι)) (request : Request ι) (answer : Answer ι) :
    recorded i (history ++ [.answered i request answer]) =
      recorded i history ++ (Event.answered i request answer).recorded := by
  rw [recorded, lifetime_answered, List.flatMap_append, List.flatMap_singleton]
  rfl

/-- **One step.** What every ledger keeps is what was recorded in it. -/
theorem records_step {w : World σ ι} (kept : ∀ i, (w.ledgers i).records = (recorded i w.history).map keyed)
    (s : Step σ ι) (i : σ) : ((w.step s).ledgers i).records = (recorded i (w.step s).history).map keyed := by
  by_cases here : s.ledger = i
  · subst here
    cases s with
    | renew i =>
      simp only [World.step, Step.on, Step.ledger, Function.update_self, recorded, lifetime_renewed]
      rfl
    | ask i request =>
      have more := recorded_answered i w.history request ((w.ledgers i).perform request).1
      simp only [World.step, Step.ledger, Function.update_self]
      rw [records_ask, kept, ← List.map_append]
      exact congrArg (List.map keyed) more.symm
  · -- neither the ledger nor what happened to it is touched
    have other := lifetime_other ((ledger_on (w.ledgers s.ledger) s).trans_ne here) w.history
    simp only [World.step, Function.update_of_ne (Ne.symm here)]
    rw [kept, recorded, recorded, other]

/-- Every run leaves in a ledger what was recorded in it. -/
theorem records_run (steps : List (Step σ ι)) (i : σ) :
    ((World.start.run steps : World σ ι).ledgers i).records =
      (recorded i (World.start.run steps : World σ ι).history).map keyed := by
  induction steps using List.reverseRecOn generalizing i with
  | nil => rfl
  | append_singleton steps last ih =>
    rw [World.run_concat]
    exact records_step ih last i

/-- Keys were offered to a ledger exactly if types with these keys were recorded in it. -/
theorem mem_offeredKeys_iff (steps : List (Step σ ι)) (i : σ) (key : Text) :
    key ∈ offeredKeys (offered i (World.start.run steps : World σ ι).history) ↔
      ∃ call ∈ recorded i (World.start.run steps : World σ ι).history, call.2.importKey = key := by
  rw [← mem_keys_ofOffers, ← (Faithful.run steps).ledgers i, keys, records_run, List.map_map, List.mem_map]
  rfl

/-! ## Visible types -/

/-- **What makes a type visible.** Types of modules whose simple names have no slashes have one key exactly if
they have one module and one simple name. After any run, a type of a module is answered to be visible exactly
if, since the ledger was new, a type with its simple name was recorded there that is of the same module; or that
is outside of the modules, if the module is called `None`. A type outside of the modules is recorded by an
addition only. -/
theorem visible_iff_recorded (steps : List (Step σ ι)) :
    let w : World σ ι := World.start.run steps
    (∀ (d e : Descriptor) (module module' : Text), d.moduleName = some module → e.moduleName = some module' →
      d.HasFlatName → e.HasFlatName →
      (d.importKey = e.importKey ↔ module = module' ∧ d.simpleName = e.simpleName)) ∧
    (∀ (i : σ) (label : ι) (d : Descriptor) (module : Text), d.moduleName = some module → d.HasFlatName →
      (∀ call ∈ recorded i w.history, call.2.HasFlatName) →
      ∃ visible, (w.step (.ask i (.refer label d))).history =
          w.history ++ [.answered i (.refer label d) (.truth visible)] ∧
        (visible = true ↔ ∃ call ∈ recorded i w.history, call.2.simpleName = d.simpleName ∧
          (call.2.moduleName = some module ∨ call.2.moduleName = none ∧ module = "None"))) ∧
    ∀ (i : σ), ∀ call ∈ recorded i w.history, call.2.moduleName = none →
      .answered i (.add call.1 call.2) (.truth true) ∈ lifetime i w.history := by
  intro w
  refine ⟨fun d e module module' inside inside' flat flat' => ?_,
    fun i label d module inside flat flats => ?_, fun i call mem outside => ?_⟩
  · rw [Descriptor.importKey_eq_iff_of_flat flat flat', inside, inside', Option.getD_some, Option.getD_some]
  · have faithful : Faithful w := Faithful.run steps
    refine ⟨_, congrArg World.history (faithful.step_ask i (.refer label d)), ?_⟩
    rw [inside, Option.isNone_some, Bool.false_or, decide_eq_true_iff, mem_offeredKeys_iff]
    exact exists_congr fun call => and_congr_right fun mem =>
      Descriptor.importKey_eq_iff_of_inside inside flat (flats call mem)
  · obtain ⟨event, happened, recording⟩ := List.mem_flatMap.mp mem
    have here := ledger_of_mem_lifetime happened
    obtain ⟨j, rfl, inside⟩ | ⟨j, rfl⟩ := Event.recorded_cases recording
    · exact absurd outside inside
    · cases here
      exact happened

/-- A type as one of a module. -/
def inModule (module : String) (d : Descriptor) : Descriptor := { d with moduleName := some module }

/-- A class of a module with a slash in its name is referred to, and a type outside of the modules is added. -/
def referThenAdd : List (Step Unit String) :=
  [.ask () (.refer "class" (inModule "@vertx/core" (vertxNamed "io.vertx.core.Vertx"))),
    .ask () (.add "outside" ambient)]

/-- The class is visible from then on, and in its own module only. A type of a module called `None` is visible
as well, though nothing of that module was recorded. -/
theorem visible_iff_recorded_referThenAdd :
    let w : World Unit String := World.start.run referThenAdd
    let again := inModule "@vertx/core" (vertxNamed "io.vertx.core.other.Vertx")
    let elsewhere := inModule "@vertx" (vertxNamed "io.vertx.core.Vertx")
    let namesake := inModule "None" ambient
    (∀ call ∈ recorded () w.history, call.2.HasFlatName ∧ call.2.moduleName ≠ namesake.moduleName) ∧
      again.HasFlatName ∧ elsewhere.HasFlatName ∧ namesake.HasFlatName ∧
      again.importKey ≠ elsewhere.importKey ∧
      (w.step (.ask () (.refer "again" again))).history =
        w.history ++ [.answered () (.refer "again" again) (.truth true)] ∧
      (w.step (.ask () (.refer "elsewhere" elsewhere))).history =
        w.history ++ [.answered () (.refer "elsewhere" elsewhere) (.truth false)] ∧
      (w.step (.ask () (.refer "namesake" namesake))).history =
        w.history ++ [.answered () (.refer "namesake" namesake) (.truth true)] ∧
      .answered () (.add "outside" ambient) (.truth true) ∈ lifetime () w.history := by
  intro w again elsewhere namesake
  have records : recorded () w.history =
      [("class", inModule "@vertx/core" (vertxNamed "io.vertx.core.Vertx")), ("outside", ambient)] := rfl
  have flatVertx : .char '/' ∉ (Text.ofString "Vertx").points := by decide
  have flatString : .char '/' ∉ (Text.ofString "String").points := by decide
  have flatAgain : again.HasFlatName := flatVertx
  have flatElsewhere : elsewhere.HasFlatName := flatVertx
  have flatNamesake : namesake.HasFlatName := flatString
  have flats : ∀ call ∈ recorded () w.history, call.2.HasFlatName := by
    rw [records]
    exact List.forall_mem_cons.mpr ⟨flatVertx, List.forall_mem_singleton.mpr flatString⟩
  obtain ⟨keys, answers, additions⟩ := visible_iff_recorded referThenAdd
  obtain ⟨_, answerAgain, seen⟩ := answers () "again" again "@vertx/core" rfl flatAgain flats
  obtain ⟨_, answerElsewhere, unseen⟩ := answers () "elsewhere" elsewhere "@vertx" rfl flatElsewhere flats
  obtain ⟨_, answerNamesake, mistaken⟩ := answers () "namesake" namesake "None" rfl flatNamesake flats
  rw [records] at seen unseen mistaken
  rw [seen.mpr (by decide)] at answerAgain
  rw [Bool.eq_false_iff.mpr (mt unseen.mp (by decide))] at answerElsewhere
  rw [mistaken.mpr (by decide)] at answerNamesake
  refine ⟨fun call mem => ⟨flats call mem, ?_⟩, flatAgain, flatElsewhere, flatNamesake, fun same => ?_,
    answerAgain, answerElsewhere, answerNamesake, ?_⟩
  · rw [records] at mem
    revert call
    decide
  · have one := (keys again elsewhere "@vertx/core" "@vertx" rfl rfl flatAgain flatElsewhere).mp same
    exact absurd one.1 (by decide)
  · exact additions () ("outside", ambient) (by rw [records]; exact List.mem_cons_of_mem _ (.head _)) rfl

end ImportLedger

end HostDecl
