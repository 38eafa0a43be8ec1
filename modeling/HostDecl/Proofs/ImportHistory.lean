import HostDecl.ImportLedger
import HostDecl.Proofs.FirstOccurrences
import Mathlib.Data.List.DropRight
import Mathlib.Logic.Function.Basic

/-!
# Import ledgers over whole runs

Any number of ledgers are asked and told about types, in any order, and now and then one of them is
replaced by a new one. `run` takes such a run step by step and keeps a history of what was asked and
answered.

**The ledgers are not needed to say what is answered** (`answer_explained_by_history`). Every request
offers its ledger some types to record: a reference offers its type if that is in a module, an addition
offers its type in any case, and nothing else offers anything. The next answer is a function of the
offers made since the ledger was new, and of the request. Replacing a ledger forgets the offers made to
it; what happens to other ledgers is no part of them.

One request is one step of `perform_ofOffers`, which is where the code is looked at; the run is an
induction on top of it. Nothing is asked of the types: two modules can share a key, and so can a type
outside of the modules and one in the module `None`.
-/

namespace HostDecl.ImportLedger

variable {ι : Type}

/-! ## Requests -/

/-- What a ledger is asked or told. -/
inductive Request (ι : Type) where
  /-- A type is referred to: is it visible already? -/
  | refer (label : ι) (d : Descriptor)
  /-- A type is to be recorded: is it new? -/
  | add (label : ι) (d : Descriptor)
  /-- What is the key of a type? -/
  | keyOf (d : Descriptor)
  /-- What was recorded for a key? -/
  | get (key : Text)
  /-- Was a key recorded? -/
  | contains (key : Text)
  /-- Which keys were recorded? Listing the keys and going through them are one request. -/
  | keys
  /-- How many keys were recorded? -/
  | size

/-- What a ledger answers. -/
inductive Answer (ι : Type) where
  | truth (holds : Bool)
  | text (key : Text)
  | found (record : Option (ι × Descriptor))
  | texts (keys : List Text)
  | number (count : Nat)
  deriving Repr

/-- The answer to a request, and the ledger afterwards. -/
def perform (l : ImportLedger ι) : Request ι → Answer ι × ImportLedger ι
  | .refer label d =>
    let (visible, after) := l.refer label d
    (.truth visible, after)
  | .add label d =>
    let (new, after) := l.add label d
    (.truth new, after)
  | .keyOf d => (.text d.importKey, l)
  | .get key => (.found (l.get? key), l)
  | .contains key => (.truth (l.contains key), l)
  | .keys => (.texts l.keys, l)
  | .size => (.number l.size, l)

/-! ## Offers -/

/-- What a request offers for recording. A type outside of the modules is not recorded when it is
referred to. -/
def Request.offers : Request ι → List (ι × Descriptor)
  | .refer label d => if d.moduleName.isSome then [(label, d)] else []
  | .add label d => [(label, d)]
  | _ => []

/-- The ledger that offers leave, in their order. -/
def ofOffers (offers : List (ι × Descriptor)) : ImportLedger ι :=
  offers.foldl (fun l offer => (l.add offer.1 offer.2).2) .empty

def offeredKeys (offers : List (ι × Descriptor)) : List Text :=
  offers.map fun offer => offer.2.importKey

/-- The answer to a request behind offers. -/
def expected (offers : List (ι × Descriptor)) : Request ι → Answer ι
  | .refer _ d => .truth (d.moduleName.isNone || d.importKey ∈ offeredKeys offers)
  | .add _ d => .truth (d.importKey ∉ offeredKeys offers)
  | .keyOf d => .text d.importKey
  | .get key => .found (offers.find? fun offer => offer.2.importKey = key)
  | .contains key => .truth (key ∈ offeredKeys offers)
  | .keys => .texts (offeredKeys offers).eraseDups
  | .size => .number (offeredKeys offers).eraseDups.length

theorem contains_iff {l : ImportLedger ι} {key : Text} : l.contains key = true ↔ key ∈ l.keys := by
  rw [contains, get?, keys, ← not_iff_not, Bool.not_eq_true, Option.isSome_eq_false_iff,
    Option.isNone_iff_eq_none, List.lookup_eq_none_iff, List.mem_map]
  constructor
  · rintro absent ⟨record, mem, rfl⟩
    exact absurd (absent record mem) (by simp)
  · intro absent record mem
    exact bne_iff_ne.mpr fun same => absent ⟨record, mem, same.symm⟩

theorem size_eq (l : ImportLedger ι) : l.size = l.keys.length := by
  rw [size, keys, List.length_map]

/-- A type is recorded behind the others, unless its key is there. -/
theorem add_eq (l : ImportLedger ι) (label : ι) (d : Descriptor) :
    l.add label d =
      if d.importKey ∈ l.keys then (false, l)
      else (true, ⟨l.records ++ [(d.importKey, label, d)]⟩) := by
  rw [add]
  split
  next there => rw [if_pos (contains_iff.mp there)]
  next absent => rw [if_neg (mt contains_iff.mpr absent)]

theorem keys_add (l : ImportLedger ι) (label : ι) (d : Descriptor) :
    (l.add label d).2.keys =
      if d.importKey ∈ l.keys then l.keys else l.keys ++ [d.importKey] := by
  rw [add_eq]
  split
  next => rfl
  next => exact List.map_append

theorem ofOffers_concat (offers : List (ι × Descriptor)) (label : ι) (d : Descriptor) :
    ofOffers (offers ++ [(label, d)]) = ((ofOffers offers).add label d).2 := by
  rw [ofOffers, List.foldl_append]
  rfl

theorem keys_ofOffers (offers : List (ι × Descriptor)) :
    (ofOffers offers).keys = (offeredKeys offers).eraseDups := by
  induction offers using List.reverseRecOn with
  | nil => rfl
  | append_singleton offers offer ih =>
    obtain ⟨label, d⟩ := offer
    have more : offeredKeys (offers ++ [(label, d)]) = offeredKeys offers ++ [d.importKey] :=
      List.map_append
    rw [ofOffers_concat, keys_add, ih, more, eraseDups_concat]
    simp only [List.mem_eraseDups]

/-- The first offer with a key is the one that is recorded for it. -/
theorem get?_ofOffers (offers : List (ι × Descriptor)) (key : Text) :
    (ofOffers offers).get? key = offers.find? fun offer => offer.2.importKey = key := by
  induction offers using List.reverseRecOn with
  | nil => rfl
  | append_singleton offers offer ih =>
    obtain ⟨label, d⟩ := offer
    rw [ofOffers_concat, add_eq, List.find?_append, ← ih, List.find?_singleton]
    split
    next there =>
      -- what is recorded for the key already comes before the new offer
      rw [← contains_iff, contains] at there
      by_cases same : d.importKey = key
      · subst same
        obtain ⟨record, found⟩ := Option.isSome_iff_exists.mp there
        rw [found, Option.some_or]
      · rw [decide_eq_false same]
        exact (Option.or_none).symm
    next absent =>
      rw [get?, List.lookup_append]
      by_cases same : d.importKey = key
      · subst same
        simp [get?]
      · simp [get?, same, List.lookup_cons, beq_false_of_ne (Ne.symm same)]

theorem mem_keys_ofOffers {offers : List (ι × Descriptor)} {key : Text} :
    key ∈ (ofOffers offers).keys ↔ key ∈ offeredKeys offers := by
  rw [keys_ofOffers, List.mem_eraseDups]

theorem add_ofOffers (offers : List (ι × Descriptor)) (label : ι) (d : Descriptor) :
    (ofOffers offers).add label d =
      (decide (d.importKey ∉ offeredKeys offers), ofOffers (offers ++ [(label, d)])) := by
  rw [ofOffers_concat, add_eq]
  split
  next there =>
    rw [mem_keys_ofOffers] at there
    simp [there]
  next absent =>
    rw [mem_keys_ofOffers] at absent
    simp [absent]

/-- **One request.** The answer depends on the offers made before, and the ledger is left as the offers
of the request leave it. -/
theorem perform_ofOffers (offers : List (ι × Descriptor)) (request : Request ι) :
    (ofOffers offers).perform request =
      (expected offers request, ofOffers (offers ++ request.offers)) := by
  cases request with
  | refer label d =>
    cases named : d.moduleName with
    | none => simp [perform, refer, expected, Request.offers, named]
    | some name => simp [perform, refer, expected, Request.offers, named, add_ofOffers]
  | add label d => simp [perform, expected, Request.offers, add_ofOffers]
  | keyOf d => simp [perform, expected, Request.offers]
  | get key => simp [perform, expected, Request.offers, get?_ofOffers]
  | contains key =>
    have same : (ofOffers offers).contains key = decide (key ∈ offeredKeys offers) := by
      rw [Bool.eq_iff_iff, contains_iff, mem_keys_ofOffers, decide_eq_true_iff]
    simp [perform, expected, Request.offers, same]
  | keys => simp [perform, expected, Request.offers, keys_ofOffers]
  | size => simp [perform, expected, Request.offers, size_eq, keys_ofOffers]

/-- A ledger grows by one exactly if it answers that a type was not visible, or that it is new. -/
def Answer.isNew : Request ι → Answer ι → Bool
  | .refer _ _, .truth visible => !visible
  | .add _ _, .truth new => new
  | _, _ => false

theorem size_ofOffers_append (offers : List (ι × Descriptor)) (request : Request ι) :
    (ofOffers (offers ++ request.offers)).size =
      (ofOffers offers).size + (Answer.isNew request (expected offers request)).toNat := by
  have one_more : ∀ (label : ι) (d : Descriptor), (ofOffers (offers ++ [(label, d)])).size =
      (ofOffers offers).size + (decide (d.importKey ∉ offeredKeys offers)).toNat := by
    intro label d
    rw [ofOffers_concat, size_eq, size_eq, keys_add]
    split
    next there => simp [mem_keys_ofOffers.mp there]
    next absent => simp [mt mem_keys_ofOffers.mpr absent]
  cases request with
  | refer label d =>
    cases named : d.moduleName with
    | none => simp [Request.offers, Answer.isNew, expected, named]
    | some name => simp [Request.offers, Answer.isNew, expected, named, one_more]
  | add label d => simp [Request.offers, Answer.isNew, expected, one_more]
  | _ => simp [Request.offers, Answer.isNew]

/-! ## Runs -/

section Runs

variable {σ : Type}

/-- A step: a ledger is replaced by a new one, or gets a request. -/
inductive Step (σ ι : Type) where
  | renew (ledger : σ)
  | ask (ledger : σ) (request : Request ι)

inductive Event (σ ι : Type) where
  | renewed (ledger : σ)
  | answered (ledger : σ) (request : Request ι) (answer : Answer ι)

/-- The ledger that a step is about. -/
def Step.ledger : Step σ ι → σ
  | .renew i | .ask i _ => i

def Event.ledger : Event σ ι → σ
  | .renewed i | .answered i _ _ => i

def Event.isRenewal : Event σ ι → Bool
  | .renewed _ => true
  | .answered _ _ _ => false

/-- What was offered for recording. -/
def Event.offers : Event σ ι → List (ι × Descriptor)
  | .renewed _ => []
  | .answered _ request _ => request.offers

/-- A reference was answered by a request for an import, or an addition by saying that it is new. -/
def Event.isNew : Event σ ι → Bool
  | .renewed _ => false
  | .answered _ request answer => answer.isNew request

/-- What a step does to its ledger. -/
def Step.on (l : ImportLedger ι) : Step σ ι → Event σ ι × ImportLedger ι
  | .renew i => (.renewed i, .empty)
  | .ask i request =>
    let (answer, after) := l.perform request
    (.answered i request answer, after)

/-- Ledgers, and what happened so far, oldest first. -/
structure World (σ ι : Type) where
  ledgers : σ → ImportLedger ι
  history : List (Event σ ι)

variable [DecidableEq σ]

def World.start : World σ ι := ⟨fun _ => .empty, []⟩

def World.step (w : World σ ι) (s : Step σ ι) : World σ ι :=
  let (event, after) := s.on (w.ledgers s.ledger)
  ⟨Function.update w.ledgers s.ledger after, w.history ++ [event]⟩

/-- Steps, one after the other. -/
def World.run (w : World σ ι) (steps : List (Step σ ι)) : World σ ι := steps.foldl World.step w

/-- What happened to a ledger since it was new. -/
def lifetime (i : σ) (history : List (Event σ ι)) : List (Event σ ι) :=
  (history.filter fun event => event.ledger = i).rtakeWhile fun event => !event.isRenewal

/-- What was offered to a ledger since it was new. -/
def offered (i : σ) (history : List (Event σ ι)) : List (ι × Descriptor) :=
  (lifetime i history).flatMap Event.offers

omit [DecidableEq σ] in
theorem ledger_on (l : ImportLedger ι) (s : Step σ ι) : (s.on l).1.ledger = s.ledger := by
  cases s <;> rfl

theorem World.run_concat (w : World σ ι) (steps : List (Step σ ι)) (last : Step σ ι) :
    w.run (steps ++ [last]) = (w.run steps).step last := by
  rw [run, List.foldl_append]
  rfl

theorem lifetime_renewed (i : σ) (history : List (Event σ ι)) :
    lifetime i (history ++ [.renewed i]) = [] := by
  rw [lifetime, List.filter_append, List.filter_singleton]
  simp [Event.ledger, Event.isRenewal]

theorem lifetime_answered (i : σ) (history : List (Event σ ι)) (request : Request ι)
    (answer : Answer ι) :
    lifetime i (history ++ [.answered i request answer]) =
      lifetime i history ++ [.answered i request answer] := by
  rw [lifetime, List.filter_append, List.filter_singleton]
  simp [lifetime, Event.ledger, Event.isRenewal]

theorem offered_answered (i : σ) (history : List (Event σ ι)) (request : Request ι)
    (answer : Answer ι) :
    offered i (history ++ [.answered i request answer]) = offered i history ++ request.offers := by
  rw [offered, lifetime_answered, List.flatMap_append, List.flatMap_singleton]
  rfl

theorem lifetime_other {i : σ} {event : Event σ ι} (other : event.ledger ≠ i)
    (history : List (Event σ ι)) : lifetime i (history ++ [event]) = lifetime i history := by
  rw [lifetime, List.filter_append, List.filter_singleton, decide_eq_false other, cond_false,
    List.append_nil]
  rfl

/-- The ledgers hold what the offers since their last renewal leave, and grew once for each answer that
said so. -/
structure Faithful (w : World σ ι) : Prop where
  ledgers : ∀ i, w.ledgers i = ofOffers (offered i w.history)
  sizes : ∀ i, (w.ledgers i).size = (lifetime i w.history).countP Event.isNew

namespace Faithful

variable {w : World σ ι}

theorem start : Faithful (World.start : World σ ι) := ⟨fun _ => rfl, fun _ => rfl⟩

/-- What happens to one ledger leaves the others faithful. -/
theorem update (faithful : Faithful w) (event : Event σ ι) {after : ImportLedger ι}
    (left : after = ofOffers (offered event.ledger (w.history ++ [event])))
    (size : after.size = (lifetime event.ledger (w.history ++ [event])).countP Event.isNew) :
    Faithful ⟨Function.update w.ledgers event.ledger after, w.history ++ [event]⟩ := by
  constructor
  · intro i
    dsimp only
    by_cases here : i = event.ledger
    · subst here
      rw [Function.update_self]
      exact left
    · rw [Function.update_of_ne here, offered, lifetime_other (Ne.symm here)]
      exact faithful.ledgers i
  · intro i
    dsimp only
    by_cases here : i = event.ledger
    · subst here
      rw [Function.update_self]
      exact size
    · rw [Function.update_of_ne here, lifetime_other (Ne.symm here)]
      exact faithful.sizes i

/-- What a request does to a faithful ledger. -/
theorem step_ask (faithful : Faithful w) (i : σ) (request : Request ι) :
    w.step (.ask i request) =
      ⟨Function.update w.ledgers i (ofOffers (offered i w.history ++ request.offers)),
        w.history ++ [.answered i request (expected (offered i w.history) request)]⟩ := by
  have performed := perform_ofOffers (offered i w.history) request
  rw [← faithful.ledgers i] at performed
  simp only [World.step, Step.on, Step.ledger, performed]

/-- Every step keeps the ledgers faithful. -/
theorem step (faithful : Faithful w) (s : Step σ ι) : Faithful (w.step s) := by
  cases s with
  | renew i =>
    refine faithful.update (.renewed i) ?_ ?_
    · rw [Event.ledger, offered, lifetime_renewed]
      rfl
    · rw [Event.ledger, lifetime_renewed]
      rfl
  | ask i request =>
    rw [faithful.step_ask]
    refine faithful.update (.answered i request _) ?_ ?_
    · rw [Event.ledger, offered_answered]
    · rw [Event.ledger, lifetime_answered, size_ofOffers_append, ← faithful.ledgers i,
        faithful.sizes i, List.countP_append, List.countP_singleton, Event.isNew]
      split
      next new => rw [new, Bool.toNat_true]
      next old => rw [Bool.eq_false_iff.mpr old, Bool.toNat_false]

/-- Every run does. -/
theorem run (steps : List (Step σ ι)) : Faithful (World.start.run steps : World σ ι) := by
  induction steps using List.reverseRecOn with
  | nil => exact .start
  | append_singleton steps last ih =>
    rw [World.run_concat]
    exact ih.step last

end Faithful

/-- What happens to a ledger is what happens to it if the steps about others are left out. -/
theorem World.run_filter (steps : List (Step σ ι)) (i : σ) :
    let w : World σ ι := World.start.run steps
    let alone : World σ ι := World.start.run (steps.filter fun s => s.ledger = i)
    w.ledgers i = alone.ledgers i ∧
      (w.history.filter fun event => event.ledger = i) = alone.history := by
  induction steps using List.reverseRecOn with
  | nil => exact ⟨rfl, rfl⟩
  | append_singleton steps last ih =>
    obtain ⟨ledgers, history⟩ := ih
    rw [World.run_concat, List.filter_append, List.filter_singleton]
    by_cases here : last.ledger = i
    · subst here
      rw [decide_eq_true rfl, cond_true, World.run_concat]
      constructor
      · simp only [World.step, Function.update_self, ledgers]
      · simp only [World.step, List.filter_append, history, List.filter_singleton, ledger_on,
          ledgers, decide_true, cond_true]
    · rw [decide_eq_false here, cond_false, List.append_nil]
      constructor
      · rw [← ledgers]
        exact Function.update_of_ne (Ne.symm here) _ _
      · simp only [World.step, List.filter_append, List.filter_singleton, ledger_on, here,
          decide_false, cond_false, List.append_nil, history]

/-- **Every answer is explained by the history.** After any steps, the next answer is the one expected
behind what was offered to the ledger since it was new. Its size is the number of answers since then that
told of something new. A type outside of the modules leaves a ledger as it is when it is referred to; and
what happens to a ledger is the same without the steps about the others. -/
theorem answer_explained_by_history (steps : List (Step σ ι)) :
    let w : World σ ι := World.start.run steps
    (∀ i request, (w.step (.ask i request)).history =
      w.history ++ [.answered i request (expected (offered i w.history) request)]) ∧
    (∀ i, (w.ledgers i).keys = (offeredKeys (offered i w.history)).eraseDups ∧
      (w.ledgers i).size = (lifetime i w.history).countP Event.isNew) ∧
    (∀ i label d, d.moduleName = none →
      (w.step (.ask i (.refer label d))).ledgers = w.ledgers) ∧
    ∀ i, (w.history.filter fun event => event.ledger = i) =
      (World.start.run (steps.filter fun s => s.ledger = i) : World σ ι).history := by
  intro w
  have faithful : Faithful w := Faithful.run steps
  refine ⟨fun i request => ?_, fun i => ⟨?_, faithful.sizes i⟩, fun i label d outside => ?_,
    fun i => (World.run_filter steps i).2⟩
  · rw [faithful.step_ask]
  · rw [faithful.ledgers i, keys_ofOffers]
  · simp only [World.step, Step.on, Step.ledger, perform, refer, outside, Function.update_eq_self]

end Runs

/-- A class of one module, under a qualified name. -/
def vertxNamed (name : String) : Descriptor :=
  ⟨.api, "Vertx", name, some "vertx-core", none, [], false⟩

/-- A type outside of the modules. -/
def ambient : Descriptor := ⟨.string, "String", "java.lang.String", none, none, [], false⟩

/-- Two ledgers meet the same class and another one with its key. One of them is replaced in between, and
records a type outside of the modules. -/
def twoLedgers : List (Step Bool String) :=
  [.ask true (.refer "first" (vertxNamed "io.vertx.core.Vertx")),
    .ask false (.refer "elsewhere" (vertxNamed "io.vertx.core.Vertx")),
    .ask true (.add "second" (vertxNamed "io.vertx.core.other.Vertx")),
    .renew false,
    .ask true (.refer "outside" ambient),
    .ask false (.add "outside" ambient)]

/-- The first ledger keeps what it met first; the second one has forgotten the class. -/
theorem answer_explained_by_history_twoLedgers :
    let w : World Bool String := World.start.run twoLedgers
    (w.step (.ask true (.get "vertx-core/Vertx"))).history =
        w.history ++ [.answered true (.get "vertx-core/Vertx")
          (.found (some ("first", vertxNamed "io.vertx.core.Vertx")))] ∧
      (w.step (.ask false .keys)).history =
        w.history ++ [.answered false .keys (.texts ["None/String"])] ∧
      (w.ledgers true).size = 1 ∧
      ambient.moduleName = none ∧
      (w.step (.ask true (.refer "again" ambient))).ledgers = w.ledgers := by
  intro w
  obtain ⟨next, sizes, outside, -⟩ := answer_explained_by_history twoLedgers
  exact ⟨next true (.get "vertx-core/Vertx"), next false .keys, (sizes true).2, rfl,
    outside true "again" ambient rfl⟩

end HostDecl.ImportLedger
