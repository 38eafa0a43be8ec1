import HostDecl.Proofs.ApiTypes
import HostDecl.Proofs.FlattenedDocs
import HostDecl.Proofs.Reports
import Mathlib.Logic.Function.Basic

/-!
# The channel that is selected

A process has channels, one of which is its own. What types a descriptor or writes a documentation may be
given a channel, and selects the one of the process otherwise; it reports as it goes, and an argument of a
descriptor is handed the channel that was selected for the descriptor around it. `translate` and `writeDoc`
are these procedures, step by step: they make texts and reports at once, from the left to the right.

**The law** (`text_of_any_channel`): they answer the texts that the type and the comment have by themselves,
and all that they do besides is that the selected channel takes the reports of the type, or of the
comment. So neither the channel, nor what it holds, nor whether it is quiet has a part in the text or in
what is reported.

It is shown of one step at a time. What is sequenced reports what its steps do, one after the other
(`Performs.bind`), and whatever was reported, the process has the same channel of its own, so that a
selection comes out the same wherever it is made.

**What it does not establish.** The channel of the process is never exchanged here, and nobody else reports
meanwhile.
-/

namespace HostDecl

open TypeScript

/-! ## Processes -/

/-- The channels of a process, and what it has echoed. -/
structure Process (κ : Type) where
  /-- The channel of the process itself. -/
  own : κ
  /-- The channels. -/
  channels : κ → Channel
  /-- What was echoed by any of them. -/
  echoed : Text
  /-- The times at which the clock is read, one after the other. -/
  clock : Nat → String
  /-- How often it was read. -/
  readings : Nat

namespace Process

variable {κ : Type}

/-- All that happens to a process is that a channel takes reports. -/
structure Hears (p : Process κ) (channel : κ) (reports : List Report) (after : Process κ) : Prop where
  own : after.own = p.own
  others : ∀ other, other ≠ channel → after.channels other = p.channels other
  quiet : (after.channels channel).quiet = (p.channels channel).quiet
  entries : ∃ added, (after.channels channel).entries = (p.channels channel).entries ++ added ∧
    added.map (fun entry => (entry.event, entry.detail)) = reports.map fun r => (r.event, r.detail)
  echoed : after.echoed =
    p.echoed ++ (if (p.channels channel).quiet then "" else Text.join (reports.map Report.line) : Text)

/-- Nothing is heard where nothing is reported. -/
theorem Hears.nothing (p : Process κ) (channel : κ) : p.Hears channel [] p where
  own := rfl
  others := fun _ _ => rfl
  quiet := rfl
  entries := ⟨[], (List.append_nil _).symm, rfl⟩
  echoed := by
    rw [List.map_nil, Text.join, ite_self]
    exact (Text.append_empty _).symm

/-- What is heard later comes behind. -/
theorem Hears.trans {p between after : Process κ} {channel : κ} {first others : List Report}
    (before : p.Hears channel first between) (later : between.Hears channel others after) :
    p.Hears channel (first ++ others) after where
  own := later.own.trans before.own
  others := fun other unlike => (later.others other unlike).trans (before.others other unlike)
  quiet := later.quiet.trans before.quiet
  entries := by
    obtain ⟨added, entries, same⟩ := before.entries
    obtain ⟨more, moreEntries, moreSame⟩ := later.entries
    refine ⟨added ++ more, ?_, ?_⟩
    · rw [moreEntries, entries, List.append_assoc]
    · rw [List.map_append, List.map_append, same, moreSame]
  echoed := by
    rw [later.echoed, before.echoed, before.quiet, Text.append_assoc]
    congr 1
    split
    · rfl
    · rw [List.map_append, Text.join_append]

variable [DecidableEq κ]

/-- A channel takes a report. -/
def report (p : Process κ) (channel : κ) (r : Report) : Process κ :=
  let (echo, after) := (p.channels channel).report (p.clock p.readings) r
  { p with
    channels := Function.update p.channels channel after
    echoed := p.echoed ++ echo
    readings := p.readings + 1 }

/-- A channel takes reports, one after the other. -/
def reportAll (p : Process κ) (channel : κ) (reports : List Report) : Process κ :=
  reports.foldl (fun p r => p.report channel r) p

theorem reportAll_append (p : Process κ) (channel : κ) (first others : List Report) :
    p.reportAll channel (first ++ others) = (p.reportAll channel first).reportAll channel others :=
  List.foldl_append

/-- A report is heard. -/
theorem hears_report (p : Process κ) (channel : κ) (r : Report) :
    p.Hears channel [r] (p.report channel r) where
  own := rfl
  others := fun other unlike => Function.update_of_ne unlike _ _
  quiet := by
    show (Function.update p.channels channel _ channel).quiet = _
    rw [Function.update_self]
  entries := by
    refine ⟨[r.atTime (p.clock p.readings)], ?_, rfl⟩
    show (Function.update p.channels channel _ channel).entries = _
    rw [Function.update_self]
  echoed := by
    rw [List.map_singleton, Text.join, Text.join, Text.append_empty]
    rfl

/-- Reports that are taken one after the other are heard. -/
theorem hears_reportAll (p : Process κ) (channel : κ) (reports : List Report) :
    p.Hears channel reports (p.reportAll channel reports) := by
  induction reports generalizing p with
  | nil => exact .nothing p channel
  | cons r rest ih => exact (p.hears_report channel r).trans (ih (p.report channel r))

end Process

/-! ## Actions -/

/-- What is done in a process: it answers, or lacks an argument of a descriptor. -/
abbrev Action (κ : Type) := EStateM ArgumentFault (Process κ)

/-- The channel that is passed, or else the one of the process. -/
def selected {κ : Type} (passed : Option κ) : Action κ κ := do
  let p ← get
  return passed.getD p.own

variable {κ : Type} [DecidableEq κ]

/-- A channel takes a report. -/
def tell (channel : κ) (r : Report) : Action κ Unit := modify fun p => p.report channel r

/-! ## What actions come to -/

section Rules

variable {α β : Type} {passed : Option κ} {act : Action κ α} {outcome : Except ArgumentFault β}
  {first others : List Report}

/-- How an action ends. -/
def ended (outcome : Except ArgumentFault α) (after : Process κ) :
    EStateM.Result ArgumentFault (Process κ) α :=
  match outcome with
  | .ok answer => .ok answer after
  | .error fault => .error fault after

/-- An action ends in one way in all processes, and the selected channel takes the same reports. -/
def Performs (passed : Option κ) (act : Action κ α) (outcome : Except ArgumentFault α)
    (reports : List Report) : Prop :=
  ∀ p, act.run p = ended outcome (p.reportAll (passed.getD p.own) reports)

namespace Performs

theorem pure (answer : α) : Performs passed (Pure.pure answer) (.ok answer) [] := fun _ => rfl

theorem throw (fault : ArgumentFault) :
    Performs passed (MonadExcept.throw fault : Action κ α) (.error fault) [] := fun _ => rfl

theorem tell (channel : κ) (r : Report) : Performs (some channel) (tell channel r) (.ok ()) [r] :=
  fun _ => rfl

/-- What comes next finds the selection as it was. -/
theorem bind {answer : α} (before : Performs passed act (.ok answer) first) {next : α → Action κ β}
    (behind : Performs passed (next answer) outcome others) :
    Performs passed (act >>= next) outcome (first ++ others) := by
  intro p
  have own := (p.hears_reportAll (passed.getD p.own) first).own
  show EStateM.bind act next p = _
  rw [EStateM.bind, show act p = _ from before p]
  show (next answer).run _ = _
  rw [behind, own, Process.reportAll_append]

/-- Nothing comes next. -/
theorem bind_error {fault : ArgumentFault} (before : Performs passed act (.error fault) first)
    (next : α → Action κ β) : Performs passed (act >>= next) (.error fault) first := by
  intro p
  show EStateM.bind act next p = _
  rw [EStateM.bind, show act p = _ from before p]
  rfl

/-- A selection is the same as if what is selected had been passed. -/
theorem select {next : κ → Action κ β}
    (each : ∀ channel, Performs (some channel) (next channel) outcome others) :
    Performs passed (selected passed >>= next) outcome others :=
  fun p => each (passed.getD p.own) p

/-- What is answered is put into another form. -/
theorem map {answer : α} (before : Performs passed act (.ok answer) first) (f : α → β) :
    Performs passed (act >>= fun a => Pure.pure (f a)) (.ok (f answer)) first := by
  have both : Performs passed (act >>= fun a => Pure.pure (f a)) (.ok (f answer)) (first ++ []) :=
    before.bind (pure (f answer) : Performs passed (Pure.pure (f answer)) (.ok (f answer)) [])
  rwa [List.append_nil] at both

end Performs

end Rules

/-! ## Types -/

namespace Descriptor

mutual

/-- The text of the type of a descriptor. -/
def translate (passed : Option κ) : Descriptor → Action κ Text
  | ⟨kind, simpleName, name, moduleName, typeArguments, typeParameters, isVariable⟩ => do
    let channel ← selected passed
    match kind with
    | .string => return "string"
    | .primitive | .boxedPrimitive => return (primitiveType simpleName).text
    | .enumeration => return if moduleName.isSome then simpleName else "any"
    | .object => return if isVariable then name else "any"
    | .jsonObject => return "\x7b [key: string]: any \x7d"
    | .jsonArray => return "any[]"
    | .throwable => return "Error"
    | .void => return "void"
    | .list | .set =>
      match typeArguments with
      | none => return "any[]"
      | some items =>
        let element ← translateAt (some channel) items 0
        return element ++ "[]"
    | .map =>
      match typeArguments with
      | none => return "\x7b [key: string]: any \x7d"
      | some items =>
        let key ← translateAt (some channel) items 0
        let value ← translateAt (some channel) items 1
        return "\x7b [key: " ++ key ++ "]: " ++ value ++ "; \x7d"
    | .api =>
      match typeArguments with
      | some items =>
        let texts ← translateAll (some channel) items
        return baseText (eraseArguments name) (eraseArguments simpleName) ++ "<" ++
          Text.intercalate ", " texts ++ ">"
      | none =>
        return if typeParameters.isEmpty then
          baseText (eraseArguments name) (eraseArguments simpleName)
        else baseText name simpleName ++ "<" ++
          Text.intercalate ", " (typeParameters.map fun _ => "any") ++ ">"
    | .dataObject => return eraseArguments simpleName
    | .handler =>
      match typeArguments with
      | none => return "((res: any) => void) | Handler<any>"
      | some items =>
        let text ← translateAt (some channel) items 0
        return "((res: " ++ text ++ ") => void) | Handler<" ++ text ++ ">"
    | .function =>
      match typeArguments with
      | none => return "(arg: any) => any"
      | some items =>
        let argument ← translateAt (some channel) items 0
        let result ← translateAt (some channel) items 1
        return "(arg: " ++ argument ++ ") => " ++ result
    | .asyncResult =>
      match typeArguments with
      | none => return "AsyncResult<any>"
      | some items =>
        let value ← translateAt (some channel) items 0
        return "AsyncResult<" ++ value ++ ">"
    | .classType => return "any /* TODO: class */"
    | .other =>
      match alias? name with
      | some text => return text
      | none =>
        tell channel ⟨Report.unmappedType, name⟩
        return unmappedText name
    | .unlisted text =>
      tell channel ⟨Report.unhandledKind, name ++ " - " ++ text⟩
      return unmappedText name

/-- The text of the type of the argument at an index. -/
def translateAt (passed : Option κ) : List Descriptor → Nat → Action κ Text
  | [], _ => throw .outOfRange
  | d :: _, 0 => d.translate passed
  | _ :: rest, i + 1 => translateAt passed rest i

/-- The texts of the types of all arguments. -/
def translateAll (passed : Option κ) : List Descriptor → Action κ (List Text)
  | [] => return []
  | d :: rest => do
    let text ← d.translate passed
    let texts ← translateAll passed rest
    return text :: texts

end

/-! ### Step by step and at once -/

section Yields

variable {α β γ δ α' β' : Type} {passed : Option κ}

/-- An action is one way to have what a description of types has: its text, and its reports. -/
def Yields (passed : Option κ) (shown : β → α) (said : β → List Report) (act : Action κ α) :
    Except MissingArgument β → Prop
  | .ok description => Performs passed act (.ok (shown description)) (said description)
  | .error missing => Performs passed act (.error missing.cause) missing.reports

namespace Yields

variable {shown : β → α} {said : β → List Report} {act : Action κ α}
  {typed : Except MissingArgument β}

theorem select {next : κ → Action κ α}
    (each : ∀ channel, Yields (some channel) shown said (next channel) typed) :
    Yields passed shown said (selected passed >>= next) typed := by
  cases typed with
  | ok description => exact Performs.select each
  | error missing => exact Performs.select each

/-- A type that has nothing to report. -/
theorem pure {description : β} {answer : α} (text : shown description = answer)
    (silent : said description = []) :
    Yields passed shown said (Pure.pure answer) (.ok description) := by
  show Performs passed _ (.ok (shown description)) (said description)
  rw [text, silent]
  exact Performs.pure answer

/-- A type that has one thing to report. -/
theorem tell {channel : κ} {description : β} {answer : α} {r : Report}
    (text : shown description = answer) (reports : said description = [r]) :
    Yields (some channel) shown said (tell channel r >>= fun _ => Pure.pure answer)
      (.ok description) := by
  show Performs (some channel) _ (.ok (shown description)) (said description)
  rw [text, reports]
  exact Performs.map (Performs.tell channel r) fun _ => answer

/-- A type around another one. -/
theorem map {shown' : γ → δ} {said' : γ → List Report} (inside : Yields passed shown said act typed)
    {f : α → δ} {g : β → γ} (text : ∀ b, shown' (g b) = f (shown b))
    (reports : ∀ b, said' (g b) = said b) :
    Yields passed shown' said' (act >>= fun a => Pure.pure (f a)) (typed.map g) := by
  cases typed with
  | error missing => exact Performs.bind_error inside _
  | ok description =>
    show Performs passed _ (.ok (shown' (g description))) (said' (g description))
    rw [text, reports]
    exact Performs.map inside f

/-- A type around two others, the second of which is asked for behind the first. -/
theorem pair {shown' : γ → δ} {said' : γ → List Report} {shownLast : β' → α'}
    {saidLast : β' → List Report} {last : Action κ α'} {typedLast : Except MissingArgument β'}
    (f : α → α' → δ) (g : β → β' → γ) (inside : Yields passed shown said act typed)
    (behind : Yields passed shownLast saidLast last typedLast)
    (text : ∀ b c, shown' (g b c) = f (shown b) (shownLast c))
    (reports : ∀ b c, said' (g b c) = said b ++ saidLast c) :
    Yields passed shown' said' (act >>= fun a => last >>= fun c => Pure.pure (f a c))
      (typed.bind fun b => (typedLast.mapError (.after (said b))).map (g b)) := by
  cases typed with
  | error missing => exact Performs.bind_error inside _
  | ok b =>
    cases typedLast with
    | error missing => exact Performs.bind inside (Performs.bind_error behind _)
    | ok c =>
      show Performs passed _ (.ok (shown' (g b c))) (said' (g b c))
      rw [text, reports]
      exact Performs.bind inside (Performs.map behind (f (shown b)))

end Yields

end Yields

open TypeExpr

/-- The base of a type of a generated module has nothing to report. -/
theorem reports_generic (name simpleName : Text) (types : List TypeExpr) :
    (generic (aliasOr name simpleName) types).reports = reportsAll types := by
  rw [TypeExpr.reports, reports_of_isOwnOperand (.inr ⟨name, simpleName, rfl⟩), List.nil_append]

/-- A declared parameter is written as `any`. -/
theorem renderAll_any (names : List Text) :
    renderAll (names.map fun _ => builtin .any) = names.map fun _ => ("any" : Text) := by
  rw [renderAll_eq_map, List.map_map]
  rfl

/-- It is not reported. -/
theorem reportsAll_any (names : List Text) : reportsAll (names.map fun _ => builtin .any) = [] := by
  rw [reportsAll_eq_flatMap, List.flatMap_map]
  exact List.flatMap_eq_nil_iff.mpr fun _ _ => rfl

/-- A type of a generated module that has no arguments is written with one for each of its parameters. -/
theorem yields_raw {passed : Option κ} (name simpleName : Text) (parameters : List Text) :
    Yields passed render reports
      (pure (if parameters.isEmpty then baseText (eraseArguments name) (eraseArguments simpleName)
        else baseText name simpleName ++ "<" ++
          Text.intercalate ", " (parameters.map fun _ => "any") ++ ">"))
      (.ok (if parameters.isEmpty then aliasOr (eraseArguments name) (eraseArguments simpleName)
        else .generic (aliasOr name simpleName) (parameters.map fun _ => .builtin .any))) := by
  cases parameters with
  | nil =>
    refine Yields.pure ?_ ?_
    · exact render_aliasOr _ _
    · exact reports_of_isOwnOperand (.inr ⟨_, _, rfl⟩)
  | cons first rest =>
    rw [List.isEmpty_cons, if_neg Bool.false_ne_true, if_neg Bool.false_ne_true]
    refine Yields.pure ?_ ?_
    · rw [TypeExpr.render, render_aliasOr, renderAll_any]
    · rw [reports_generic, reportsAll_any]

/-- The argument at an index has its type in steps as at once. -/
theorem yields_translateAt {passed : Option κ} {items : List Descriptor}
    (each : ∀ a ∈ items, Yields passed render reports (translate passed a) a.typeExpr) (i : Nat) :
    Yields passed render reports (translateAt passed items i) (typeExprAt items i) := by
  induction items generalizing i with
  | nil =>
    rw [translateAt, typeExprAt]
    exact Performs.throw _
  | cons a rest ih =>
    obtain ⟨first, others⟩ := List.forall_mem_cons.mp each
    cases i with
    | zero =>
      rw [translateAt, typeExprAt]
      exact first
    | succ i =>
      rw [translateAt, typeExprAt]
      exact ih others i

/-- So have all arguments. -/
theorem yields_translateAll {passed : Option κ} {items : List Descriptor}
    (each : ∀ a ∈ items, Yields passed render reports (translate passed a) a.typeExpr) :
    Yields passed renderAll reportsAll (translateAll passed items) (typeExprs items) := by
  induction items with
  | nil =>
    rw [translateAll, typeExprs]
    exact Performs.pure _
  | cons a rest ih =>
    obtain ⟨first, others⟩ := List.forall_mem_cons.mp each
    have joined : typeExprs (a :: rest) =
        a.typeExpr.bind fun b => ((typeExprs rest).mapError (.after b.reports)).map (b :: ·) := by
      rw [typeExprs]
      cases a.typeExpr <;> rfl
    rw [translateAll, joined]
    refine Yields.pair (fun text texts => text :: texts) List.cons first (ih others) ?_ ?_
    · exact fun _ _ => rfl
    · exact fun _ _ => rfl

/-- **A type in steps is the type**: the text that is answered is the text of the type, and the selected
channel takes the reports of the type, up to an argument that is missing. -/
theorem yields_translate (d : Descriptor) (passed : Option κ) :
    Yields passed render reports (translate passed d) d.typeExpr := by
  induction d using induct generalizing passed with
  | step d ih =>
    obtain ⟨kind, simpleName, name, moduleName, typeArguments, typeParameters, isVariable⟩ := d
    -- The arguments are looked at behind a selection, so they are passed the channel selected here.
    have at_index : ∀ channel items, typeArguments = some items → ∀ i,
        Yields (some channel) render reports (translateAt (some channel) items i)
          (typeExprAt items i) :=
      fun channel items given => yields_translateAt fun a mem => ih items given a mem (some channel)
    cases kind with
    | string | primitive | boxedPrimitive | jsonObject | jsonArray | throwable | void | dataObject
    | classType =>
      rw [translate, typeExpr]
      exact Yields.select fun _ => Yields.pure (by rfl) rfl
    | enumeration =>
      rw [translate, typeExpr]
      cases moduleName <;> exact Yields.select fun _ => Yields.pure rfl rfl
    | object =>
      rw [translate, typeExpr]
      cases isVariable <;> exact Yields.select fun _ => Yields.pure rfl rfl
    | other =>
      rw [translate, typeExpr]
      cases alias? name with
      | some text => exact Yields.select fun _ => Yields.pure rfl rfl
      | none => exact Yields.select fun _ => Yields.tell rfl rfl
    | unlisted text =>
      rw [translate, typeExpr]
      exact Yields.select fun _ => Yields.tell rfl rfl
    | list | set | handler | asyncResult =>
      cases typeArguments with
      | none =>
        rw [translate, typeExpr]
        exact Yields.select fun _ => Yields.pure (by rfl) rfl
      | some items =>
        rw [translate, typeExpr]
        refine Yields.select fun channel => Yields.map (at_index channel items rfl 0) ?_ ?_
        · exact fun _ => rfl
        · exact fun _ => rfl
    | map =>
      cases typeArguments with
      | none =>
        rw [translate, typeExpr]
        exact Yields.select fun _ => Yields.pure rfl rfl
      | some items =>
        have joined : typeExpr ⟨.map, simpleName, name, moduleName, some items, typeParameters,
            isVariable⟩ = (typeExprAt items 0).bind fun key =>
              ((typeExprAt items 1).mapError (.after key.reports)).map (dictionary key) := by
          rw [typeExpr]
          cases typeExprAt items 0 <;> rfl
        let text (key value : Text) : Text := "\x7b [key: " ++ key ++ "]: " ++ value ++ "; \x7d"
        rw [translate, joined]
        refine Yields.select fun channel => Yields.pair text dictionary
          (at_index channel items rfl 0) (at_index channel items rfl 1) ?_ ?_
        · exact fun _ _ => rfl
        · exact fun _ _ => rfl
    | function =>
      cases typeArguments with
      | none =>
        rw [translate, typeExpr]
        exact Yields.select fun _ => Yields.pure (by rfl) rfl
      | some items =>
        have joined : typeExpr ⟨.function, simpleName, name, moduleName, some items, typeParameters,
            isVariable⟩ = (typeExprAt items 0).bind fun argument =>
              ((typeExprAt items 1).mapError (.after argument.reports)).map (function argument) := by
          rw [typeExpr]
          cases typeExprAt items 0 <;> rfl
        let text (argument result : Text) : Text := "(arg: " ++ argument ++ ") => " ++ result
        rw [translate, joined]
        refine Yields.select fun channel => Yields.pair text function
          (at_index channel items rfl 0) (at_index channel items rfl 1) ?_ ?_
        · exact fun _ _ => rfl
        · exact fun _ _ => rfl
    | api =>
      cases typeArguments with
      | none =>
        rw [translate, typeExpr]
        exact Yields.select fun _ => yields_raw name simpleName typeParameters
      | some items =>
        have each := fun channel : κ =>
          yields_translateAll fun a mem => ih items rfl a mem (some channel)
        rw [translate, typeExpr]
        refine Yields.select fun channel => Yields.map (each channel) ?_ ?_
        · intro types
          rw [TypeExpr.render, render_aliasOr]
        · exact fun types => reports_generic _ _ types

end Descriptor

/-! ## Documentations -/

/-- The text of a link, if it is not dropped. A channel is selected for nothing but a report. -/
def renderLink (passed : Option κ) (link : LinkTag) : Action κ (Option Text) :=
  match link.form with
  | .unsupported => do
    let channel ← selected passed
    tell channel link.report
    return none
  | _ => return link.render

/-- The texts of the parts of a documentation. -/
def writeParts (passed : Option κ) : List DocPart → Action κ (List Text)
  | [] => return []
  | .text value :: rest => do
    let texts ← writeParts passed rest
    return value :: texts
  | .link target :: rest => do
    let text ← renderLink passed target
    let texts ← writeParts passed rest
    return text.toList ++ texts

/-- The comment for a documentation. -/
def writeDoc (passed : Option κ) (parts : Option (List DocPart)) (margin : Text) : Action κ Text :=
  match parts with
  | none => return ""
  | some parts => do
    let texts ← writeParts passed parts
    return docBlock margin (Text.join texts)

theorem performs_renderLink (passed : Option κ) (link : LinkTag) :
    Performs passed (renderLink passed link) (.ok link.render) link.reports := by
  rw [renderLink, LinkTag.render, LinkTag.reports]
  cases link.form with
  | unsupported =>
    refine Performs.select fun channel => ?_
    exact Performs.map (Performs.tell channel link.report) fun _ => none
  | _ => exact Performs.pure _

/-- The parts are written one after the other, and so is what they report. -/
theorem performs_writeParts (passed : Option κ) (parts : List DocPart) :
    Performs passed (writeParts passed parts) (.ok (parts.filterMap DocPart.written?))
      (parts.flatMap DocPart.reports) := by
  induction parts with
  | nil => exact Performs.pure _
  | cons part rest ih =>
    cases part with
    | text value => exact Performs.map ih (value :: ·)
    | link target =>
      have written : (DocPart.link target :: rest).filterMap DocPart.written? =
          target.render.toList ++ rest.filterMap DocPart.written? := by
        rw [List.filterMap_cons, DocPart.written?]
        cases target.render <;> rfl
      rw [written, List.flatMap_cons]
      exact Performs.bind (performs_renderLink passed target)
        (Performs.map ih (target.render.toList ++ ·))

theorem performs_writeDoc (passed : Option κ) (parts : Option (List DocPart)) (margin : Text) :
    Performs passed (writeDoc passed parts margin) (.ok (docComment parts margin))
      (docReports parts) := by
  cases parts with
  | none => exact Performs.pure _
  | some parts =>
    rw [docComment, flatten_eq, writtenText]
    exact Performs.map (performs_writeParts passed parts) fun texts => docBlock margin (Text.join texts)

/-! ## The law -/

/-- What performs comes to an end, and its reports are all that is heard. -/
theorem Performs.hears {passed : Option κ} {α : Type} {act : Action κ α} {answer : α}
    {reports : List Report} (performs : Performs passed act (.ok answer) reports) (p : Process κ) :
    ∃ after, act.run p = .ok answer after ∧ p.Hears (passed.getD p.own) reports after :=
  ⟨_, performs p, p.hears_reportAll _ _⟩

/-- **The channel is not in the text.** An accepted descriptor has one text and one list of reports, and so
has a documentation with a margin. Whatever channels there are, whatever they hold, and whether the
channel is passed or is the one of the process: the text is answered, and all that happens is that the
selected channel takes the reports behind its diagnostics, and that their lines are echoed unless it is
quiet. -/
theorem text_of_any_channel :
    (∀ (value : Json) (d : Descriptor), Descriptor.ofJson value = .valid d →
      ∃ type, d.typeExpr = .ok type ∧
        ∀ (κ : Type) [DecidableEq κ] (p : Process κ) (passed : Option κ), ∃ after,
          (d.translate passed).run p = .ok type.render after ∧
            p.Hears (passed.getD p.own) type.reports after) ∧
    ∀ (parts : Option (List DocPart)) (margin : Text) (κ : Type) [DecidableEq κ] (p : Process κ)
      (passed : Option κ), ∃ after,
        (writeDoc passed parts margin).run p = .ok (docComment parts margin) after ∧
          p.Hears (passed.getD p.own) (docReports parts) after := by
  constructor
  · intro value d accepted
    obtain ⟨type, typed, -⟩ := (Descriptor.wellFormed_of_ofJson accepted).reports_typeExpr
    refine ⟨type, typed, fun κ _ p passed => ?_⟩
    have yields := d.yields_translate passed
    rw [typed] at yields
    exact Performs.hears yields p
  · intro parts margin κ _ p passed
    exact (performs_writeDoc passed parts margin).hears p

/-- Two channels: the one of the process is quiet and has a diagnostic, and the other one is new. -/
def twoChannels : Process Bool where
  own := false
  channels passed := if passed then .new false else ⟨true, [⟨"11:59", "unmapped-type", "a.Old"⟩]⟩
  echoed := ""
  clock reading := "12:0" ++ toString reading
  readings := 0

/-- A type below a callback is reported to the channel that is passed for the map around it, and echoed.
A link is reported to the channel of the process if none is passed. -/
theorem text_of_any_channel_twoChannels :
    (∃ after, (Descriptor.callbackMap.translate (some true)).run twoChannels =
        .ok "\x7b [key: ((res: any /* a.Foo */) => void) | Handler<any /* a.Foo */>]: any /* TODO: class */[]; \x7d"
          after ∧
      after.channels false = twoChannels.channels false ∧ after.echoed = "[unmapped-type] a.Foo\n") ∧
    ∃ after, (writeDoc none (some [.link fieldLink]) "").run twoChannels = .ok "/**\n *\n */\n" after ∧
      after.channels true = twoChannels.channels true ∧ after.echoed = "" := by
  obtain ⟨translated, written⟩ := text_of_any_channel
  constructor
  · have shape : Descriptor.callbackMap.typeExpr =
        .ok (.dictionary (.handler (.unmapped "a.Foo")) (.array (.builtin .classToken))) := by rfl
    obtain ⟨type, typed, any⟩ :=
      translated _ _ (Descriptor.ofJson_toJson Descriptor.wellFormed_callbackMap)
    cases shape.symm.trans typed
    obtain ⟨after, answered, hears⟩ := any Bool twoChannels (some true)
    refine ⟨after, answered.trans (by rfl), hears.others false (by decide), hears.echoed.trans ?_⟩
    decide +kernel
  · obtain ⟨after, answered, hears⟩ := written (some [.link fieldLink]) "" Bool twoChannels none
    refine ⟨after, answered.trans (by rfl), hears.others true (by decide), hears.echoed.trans ?_⟩
    decide +kernel

end HostDecl
