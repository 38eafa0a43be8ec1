import HostDecl.Proofs.CopiedNames

/-!
# Reading argument lists back

The arguments of a type stand in angle brackets, with a comma and a space between them. `pieces` reads
such a list by its brackets alone: it cuts at the separators that stand outside all of them and knows
nothing of types.

**The law** (`arguments_read_back`): the text of an accepted descriptor is balanced, and cutting what
stands in the angle brackets of a parameterized type gives the texts of its arguments, one by one.

Two facts carry it. No type has a comma outside brackets in its text (`not_atTop_comma_render`), and what
is put together from balanced texts without such a comma is cut where it was put together
(`pieces_intercalate`). Both need the names in the text to be free of brackets, `=` and commas; a host
name with its own arguments in it, such as `Map<A, B>`, is not.
-/

namespace HostDecl

open TypeScript

namespace Mark

def comma : Mark := sign (.char ',')

/-- The code points of a mark. -/
def points : Mark → List CodePoint
  | opening bracket => [bracket.left]
  | closing bracket => [bracket.right]
  | arrow => [.char '=', .char '>']
  | sign point => [point]

/-- Puts a mark in front of the first piece. -/
def onFirst (mark : Mark) : List (List Mark) → List (List Mark)
  | [] => [[mark]]
  | first :: rest => (mark :: first) :: rest

/-- The marks cut at each comma with a space behind it that stands outside all brackets, with the given
ones open in front. -/
def pieces : List Bracket → List Mark → List (List Mark)
  | _, [] => [[]]
  | [], .sign (.char ',') :: .sign (.char ' ') :: rest => [] :: pieces [] rest
  | stack, mark :: rest => onFirst mark (pieces ((mark.read stack).getD stack) rest)

theorem pieces_cons {stack : List Bracket} {mark : Mark} (other : stack ≠ [] ∨ mark ≠ comma)
    (rest : List Mark) :
    pieces stack (mark :: rest) = onFirst mark (pieces ((mark.read stack).getD stack) rest) := by
  rw [pieces]
  rintro behind rfl rfl -
  rcases other with stacked | different
  · exact stacked rfl
  · exact different rfl

theorem foldr_onFirst (front first : List Mark) (others : List (List Mark)) :
    front.foldr onFirst (first :: others) = (front ++ first) :: others := by
  induction front with
  | nil => rfl
  | cons mark rest ih =>
    rw [List.foldr_cons, ih]
    rfl

/-- Marks without a comma outside brackets are not cut. -/
theorem pieces_append {stack after : List Bracket} {front : List Mark}
    (reads : readAll stack front = some after)
    (whole : ∀ before behind, front = before ++ comma :: behind → readAll stack before ≠ some [])
    (rest : List Mark) : pieces stack (front ++ rest) = front.foldr onFirst (pieces after rest) := by
  induction front generalizing stack with
  | nil =>
    cases reads
    rfl
  | cons mark others ih =>
    rw [readAll_cons] at reads
    obtain ⟨next, readsFirst, readsRest⟩ := Option.bind_eq_some_iff.mp reads
    have other : stack ≠ [] ∨ mark ≠ comma := by
      by_contra both
      obtain ⟨rfl, rfl⟩ := not_or.mp both |>.imp not_not.mp not_not.mp
      exact whole [] others rfl rfl
    have inner : ∀ before behind, others = before ++ comma :: behind →
        readAll next before ≠ some [] := by
      rintro before behind rfl closed
      refine whole (mark :: before) behind rfl ?_
      rw [readAll_cons, readsFirst]
      exact closed
    rw [List.cons_append, pieces_cons other, readsFirst, Option.getD_some, ih readsRest inner]
    rfl

/-- What closes its brackets and has no comma outside them is the first piece in front of a separator. -/
theorem pieces_append_separator {front : List Mark} (closed : readAll [] front = some [])
    (whole : ¬ AtTop comma front) (rest : List Mark) :
    pieces [] (front ++ comma :: sign (.char ' ') :: rest) = front :: pieces [] rest := by
  rw [pieces_append closed fun before behind split reads => whole ⟨before, behind, split, reads⟩]
  change front.foldr onFirst ([] :: pieces [] rest) = _
  rw [foldr_onFirst, List.append_nil]

/-- What closes its brackets and has no comma outside them is one piece. -/
theorem pieces_of_closed {marks : List Mark} (closed : readAll [] marks = some [])
    (whole : ¬ AtTop comma marks) : pieces [] marks = [marks] := by
  have cut := pieces_append closed
    (fun before behind split reads => whole ⟨before, behind, split, reads⟩) []
  rw [List.append_nil] at cut
  rw [cut]
  change marks.foldr onFirst [[]] = _
  rw [foldr_onFirst, List.append_nil]

theorem points_ofPoint (point : CodePoint) : (ofPoint point).points = [point] := by
  rcases ofPoint_cases point with ⟨bracket, rfl, eq⟩ | ⟨bracket, rfl, eq⟩ | eq
  · rw [eq, points]
  · rw [eq, points]
  · rw [eq, points]

theorem flatMap_points_cons (point : CodePoint) (marks : List Mark) :
    (cons point marks).flatMap points = point :: marks.flatMap points := by
  unfold cons
  split
  next behind =>
    split
    next equals =>
      rw [equals]
      rfl
    next => rw [List.flatMap_cons, points_ofPoint, List.singleton_append]
  next => rw [List.flatMap_cons, points_ofPoint, List.singleton_append]

end Mark

namespace Text

/-- The characters that a list of arguments depends on. -/
def listSigns : List Char := ',' :: nestingSigns

theorem Avoids.nesting {name : Text} (plain : name.Avoids listSigns) : name.Avoids nestingSigns :=
  fun sign mem => plain sign (List.mem_cons_of_mem _ mem)

theorem Avoids.commas {name : Text} (plain : name.Avoids listSigns) : name.Avoids [','] := by
  intro sign mem
  rw [List.mem_singleton.mp mem]
  exact plain ',' List.mem_cons_self

/-- The text of marks. -/
def ofMarks (marks : List Mark) : Text := ⟨marks.flatMap Mark.points⟩

/-- The text cut at its separators outside all brackets. -/
def pieces (t : Text) : List Text := (Mark.pieces [] t.marks).map ofMarks

/-- A text is that of its marks. -/
theorem ofMarks_marks (t : Text) : ofMarks t.marks = t := by
  obtain ⟨points⟩ := t
  simp only [ofMarks, marks, Text.mk.injEq]
  induction points with
  | nil => rfl
  | cons point rest ih => rw [List.foldr_cons, Mark.flatMap_points_cons, ih]

/-- A text without commas has none outside brackets. -/
theorem not_atTop_comma_of_avoids {t : Text} (plain : t.Avoids [',']) : ¬ Mark.AtTop .comma t.marks := by
  intro top
  rcases mem_marks top.mem with ⟨arrow, -⟩ | ⟨point, among, same⟩
  · cases arrow
  · cases Mark.eq_of_ofPoint_eq_sign same.symm
    exact plain ',' List.mem_cons_self among

theorem not_atTop_comma_append {a b : Text} (front : a.Balanced) (first : ¬ Mark.AtTop .comma a.marks)
    (second : ¬ Mark.AtTop .comma b.marks) : ¬ Mark.AtTop .comma (a ++ b).marks := by
  rw [marks_append front.ended, Mark.atTop_append front.closed]
  exact not_or.mpr ⟨first, second⟩

theorem not_atTop_comma_enclosed {t : Text} (inside : t.Balanced) (bracket : Bracket) :
    ¬ Mark.AtTop .comma (t.enclosed bracket).marks := by
  rw [marks_enclosed inside]
  exact Mark.not_atTop_enclosed inside.closed nofun nofun

/-- **A list of texts is cut where it was put together**, if every text closes its brackets and has no
comma outside them. -/
theorem pieces_intercalate {texts : List Text} (some_text : texts ≠ [])
    (balanced : ∀ t ∈ texts, t.Balanced) (whole : ∀ t ∈ texts, ¬ Mark.AtTop .comma t.marks) :
    (intercalate ", " texts).pieces = texts := by
  have cut : Mark.pieces [] (intercalate ", " texts).marks = texts.map marks := by
    induction texts with
    | nil => exact absurd rfl some_text
    | cons first rest ih =>
      obtain ⟨firstBalanced, restBalanced⟩ := List.forall_mem_cons.mp balanced
      obtain ⟨firstWhole, restWhole⟩ := List.forall_mem_cons.mp whole
      cases rest with
      | nil => exact Mark.pieces_of_closed firstBalanced.closed firstWhole
      | cons second others =>
        have behind := ih (List.cons_ne_nil _ _) restBalanced restWhole
        rw [intercalate, append_assoc, marks_append firstBalanced.ended, marks_append (by decide)]
        · change Mark.pieces [] (first.marks ++ .comma :: .sign (.char ' ') :: marks _) = _
          rw [Mark.pieces_append_separator firstBalanced.closed firstWhole, behind]
          rfl
        · exact List.cons_ne_nil _ _
  rw [pieces, cut, List.map_map]
  exact List.map_id'' ofMarks_marks texts

/-- Commas in brackets, of whatever kind, are left alone. -/
example : ("a<b, c>, (d: [e, f]) => g" : Text).pieces = ["a<b, c>", "(d: [e, f]) => g"] := by
  decide +kernel

/-- A name without commas stands in a comment that has none outside brackets. -/
theorem not_atTop_comma_unmappedText {name : Text} (balanced : name.Balanced)
    (plain : name.Avoids [',']) : ¬ Mark.AtTop .comma (TypeScript.unmappedText name).marks := by
  have front : ("any /* " ++ name).Balanced := .append (by decide) balanced
  refine not_atTop_comma_append front ?_ (not_atTop_comma_of_avoids (by decide))
  exact not_atTop_comma_append (by decide) (not_atTop_comma_of_avoids (by decide))
    (not_atTop_comma_of_avoids plain)

end Text

namespace TypeScript.TypeExpr

theorem avoids_comma_of_mem_aliases :
    ∀ entry ∈ aliases, (entry.2 : Text).Avoids [','] := by decide +kernel

/-- No type has a comma outside brackets in its text, if the names in it have none. -/
theorem not_atTop_comma_render {type : TypeExpr} (listed : type.AliasesListed)
    (plain : ∀ name, type.Copies name → name.Avoids Text.listSigns) :
    ¬ Mark.AtTop .comma type.render.marks := by
  induction type using induct with
  | step type ih =>
    have listedInner : ∀ operand ∈ type.operands, operand.AliasesListed :=
      fun operand mem => listed.of_partOf (.inside mem .self)
    have plainInner : ∀ operand ∈ type.operands, ∀ name, operand.Copies name →
        name.Avoids Text.listSigns :=
      fun operand mem name copies => plain name (copies.of_partOf (.inside mem .self))
    have balanced : ∀ operand ∈ type.operands, operand.render.Balanced := fun operand mem =>
      balanced_render (listedInner operand mem)
        fun name copies => (plainInner operand mem name copies).nesting
    have inner : ∀ operand ∈ type.operands, ¬ Mark.AtTop .comma operand.render.marks :=
      fun operand mem => ih operand mem (listedInner operand mem) (plainInner operand mem)
    cases type with
    | builtin type =>
      refine Text.not_atTop_comma_of_avoids ?_
      cases type <;> decide +kernel
    | aliased text =>
      obtain ⟨name, mem⟩ := listed text .self
      exact Text.not_atTop_comma_of_avoids (avoids_comma_of_mem_aliases _ mem)
    | named name =>
      exact Text.not_atTop_comma_of_avoids (plain name ⟨_, .self, rfl⟩).commas
    | unmapped name | unhandled name =>
      have avoids := plain name ⟨_, .self, rfl⟩
      exact Text.not_atTop_comma_unmappedText (Text.balanced_of_avoids avoids.nesting) avoids.commas
    | array element =>
      rw [render_array]
      exact Text.not_atTop_comma_append (balanced element List.mem_cons_self)
        (inner element List.mem_cons_self) (Text.not_atTop_comma_enclosed (by decide) _)
    | dictionary key value =>
      have keyBalanced := balanced key List.mem_cons_self
      have valueBalanced := balanced value (List.mem_cons_of_mem _ List.mem_cons_self)
      rw [render_dictionary]
      exact Text.not_atTop_comma_enclosed (balanced_dictionaryInside keyBalanced valueBalanced) _
    | generic base arguments =>
      obtain ⟨baseBalanced, argumentsBalanced⟩ := List.forall_mem_cons.mp balanced
      have separated : (Text.intercalate ", " (arguments.map render)).Balanced :=
        Text.balanced_intercalate (by decide) (List.forall_mem_map.mpr argumentsBalanced)
      rw [render_generic]
      exact Text.not_atTop_comma_append baseBalanced (inner base List.mem_cons_self)
        (Text.not_atTop_comma_enclosed separated _)
    | handler argument =>
      have argumentBalanced := balanced argument List.mem_cons_self
      have object : ¬ Mark.AtTop .comma
          (" | " ++ ("Handler" ++ Text.enclosed .angle argument.render)).marks := by
        apply Text.not_atTop_comma_append (by decide) (Text.not_atTop_comma_of_avoids (by decide))
        apply Text.not_atTop_comma_append (by decide) (Text.not_atTop_comma_of_avoids (by decide))
        exact Text.not_atTop_comma_enclosed argumentBalanced _
      have callback := balanced_callback argumentBalanced
      rw [render_handler]
      exact Text.not_atTop_comma_append (callback.enclosed _)
        (Text.not_atTop_comma_enclosed callback _) object
    | function argument result =>
      have argumentBalanced := balanced argument List.mem_cons_self
      have parameter : ("arg: " ++ argument.render).Balanced := .append (by decide) argumentBalanced
      have behind : ¬ Mark.AtTop .comma (" => " ++ result.render).marks :=
        Text.not_atTop_comma_append (by decide) (Text.not_atTop_comma_of_avoids (by decide))
          (inner result (List.mem_cons_of_mem _ List.mem_cons_self))
      rw [render_function]
      exact Text.not_atTop_comma_append (parameter.enclosed _)
        (Text.not_atTop_comma_enclosed parameter _) behind
    | asyncResult value =>
      rw [render_asyncResult]
      exact Text.not_atTop_comma_append (by decide) (Text.not_atTop_comma_of_avoids (by decide))
        (Text.not_atTop_comma_enclosed (balanced value List.mem_cons_self) _)

end TypeScript.TypeExpr

namespace Descriptor

/-- Descriptors that have their types together have them one by one. -/
theorem forall₂_of_typeExprs {items : List Descriptor} {types : List TypeExpr}
    (typed : typeExprs items = .ok types) :
    List.Forall₂ (fun a type => a.typeExpr = .ok type) items types := by
  induction items generalizing types with
  | nil =>
    cases typed
    exact .nil
  | cons a rest ih =>
    rw [typeExprs] at typed
    cases first : a.typeExpr with
    | error fault =>
      rw [first] at typed
      cases typed
    | ok type =>
      cases behind : typeExprs rest with
      | error fault =>
        rw [first, behind] at typed
        cases typed
      | ok others =>
        rw [first, behind] at typed
        cases typed
        exact .cons first (ih behind)

/-- The type of a parameterized API type is its base applied to the types of its arguments. -/
theorem exists_generic_of_api {d : Descriptor} {type : TypeExpr} {items : List Descriptor}
    (typed : d.typeExpr = .ok type) (api : d.kind = .api) (given : d.typeArguments = some items) :
    ∃ types, type = .generic (aliasOr d.bareName d.bareSimpleName) types ∧
      List.Forall₂ (fun a type => a.typeExpr = .ok type) items types := by
  obtain ⟨kind, simpleName, name, moduleName, typeArguments, typeParameters, isVariable⟩ := d
  cases api
  cases given
  rw [typeExpr] at typed
  cases each : typeExprs items with
  | error fault =>
    rw [each] at typed
    cases typed
  | ok types =>
    rw [each] at typed
    cases typed
    exact ⟨types, rfl, forall₂_of_typeExprs each⟩

/-- **Brackets in the text of an accepted descriptor close each other, and an argument list can be read
back.** Cutting what stands in the brackets behind the base of a parameterized type gives the texts of
the arguments: none is lost, merged with its neighbour or split. -/
theorem arguments_read_back {value : Json} {d : Descriptor} (accepted : ofJson value = .valid d)
    (plain : ∀ n ∈ d.visited, ∀ name, n.copiedName? = some name → name.Avoids Text.listSigns) :
    ∃ type, d.typeExpr = .ok type ∧ type.render.Balanced ∧
      ∀ items, d.kind = .api → d.typeArguments = some items →
        ∃ inside : Text,
          type.render = (aliasOr d.bareName d.bareSimpleName).render ++ "<" ++ inside ++ ">" ∧
            List.Forall₂ (fun a text => ∃ argument, a.typeExpr = .ok argument ∧ argument.render = text)
              items inside.pieces := by
  have wellFormed := wellFormed_of_ofJson accepted
  obtain ⟨type, typed, listed⟩ := wellFormed.aliasesListed
  have names := of_typed wellFormed.copies_visited typed
  have copiesPlain : ∀ name, type.Copies name → name.Avoids Text.listSigns := by
    intro name copies
    obtain ⟨n, visited, copied⟩ := names name copies
    exact plain n visited name copied
  refine ⟨type, typed,
    TypeExpr.balanced_render listed fun name copies => (copiesPlain name copies).nesting, ?_⟩
  intro items api given
  obtain ⟨types, rfl, each⟩ := exists_generic_of_api typed api given
  have some_type : types ≠ [] := by
    rintro rfl
    obtain ⟨-, counted, -⟩ := wellFormed
    obtain rfl := List.forall₂_nil_right_iff.mp each
    exact (argumentCountFault?_eq_none_iff.mp counted _ given).1 rfl
  have argumentText : ∀ argument ∈ types,
      argument.render.Balanced ∧ ¬ Mark.AtTop .comma argument.render.marks := by
    intro argument mem
    have inside : TypeExpr.PartOf argument (.generic (aliasOr d.bareName d.bareSimpleName) types) :=
      .inside (List.mem_cons_of_mem _ mem) .self
    have argumentListed := listed.of_partOf inside
    have argumentPlain : ∀ name, argument.Copies name → name.Avoids Text.listSigns :=
      fun name copies => copiesPlain name (copies.of_partOf inside)
    exact ⟨TypeExpr.balanced_render argumentListed fun name copies => (argumentPlain name copies).nesting,
      TypeExpr.not_atTop_comma_render argumentListed argumentPlain⟩
  refine ⟨Text.intercalate ", " (types.map TypeExpr.render), ?_, ?_⟩
  · rw [TypeExpr.render, TypeExpr.renderAll_eq_map]
  · have balanced : ∀ t ∈ types.map TypeExpr.render, t.Balanced :=
      List.forall_mem_map.mpr fun argument mem => (argumentText argument mem).1
    have whole : ∀ t ∈ types.map TypeExpr.render, ¬ Mark.AtTop .comma t.marks :=
      List.forall_mem_map.mpr fun argument mem => (argumentText argument mem).2
    rw [Text.pieces_intercalate (by simpa using some_type) balanced whole,
      List.forall₂_map_right_iff]
    exact each.imp fun a type typed => ⟨type, typed, rfl⟩

/-- A pair of a type with two arguments of its own and a type whose alias is a function type. -/
def pairOfLists : Descriptor :=
  ⟨.api, "Pair", "a.Pair<a.Both<a.A,a.B>,io.vertx.core.Closeable>", some "a", some [
    ⟨.api, "Both<A,B>", "a.Both<a.A,a.B>", some "a", some [
      ⟨.dataObject, "A", "a.A", none, none, [], false⟩,
      ⟨.dataObject, "B", "a.B", none, none, [], false⟩], ["X", "Y"], false⟩,
    ⟨.other, "Closeable", "io.vertx.core.Closeable", none, none, [], false⟩], [], false⟩

theorem wellFormed_pairOfLists : WellFormed pairOfLists := by
  have leaf : ∀ simpleName name, WellFormed ⟨.dataObject, simpleName, name, none, none, [], false⟩ :=
    fun _ _ => .leaf (by simp [Kind.all]) rfl
  refine .parameterized (by decide) rfl rfl (List.forall_mem_cons.mpr ⟨?_, ?_⟩)
  · refine .parameterized (by decide) rfl rfl (List.forall_mem_cons.mpr ⟨leaf _ _, ?_⟩)
    exact List.forall_mem_singleton.mpr (leaf _ _)
  · exact List.forall_mem_singleton.mpr (.leaf (by decide) rfl)

theorem avoids_of_copied_pairOfLists :
    ∀ n ∈ pairOfLists.visited, ∀ name, n.copiedName? = some name → name.Avoids Text.listSigns := by
  have handedOver : pairOfLists.visited.filterMap copiedName? = ["Pair", "Both", "A", "B"] := by
    decide +kernel
  intro n visited name copied
  have mem := List.mem_filterMap.mpr ⟨n, visited, copied⟩
  rw [handedOver] at mem
  have plain : ∀ name ∈ (["Pair", "Both", "A", "B"] : List Text), name.Avoids Text.listSigns := by
    decide
  exact plain name mem

/-- The two arguments are found again, though there is a comma inside the first of them. -/
theorem arguments_read_back_pairOfLists :
    ofJson pairOfLists.toJson = .valid pairOfLists ∧
      (∀ n ∈ pairOfLists.visited, ∀ name, n.copiedName? = some name → name.Avoids Text.listSigns) ∧
      ∃ inside : Text, pairOfLists.typeExpr.map TypeExpr.render = .ok ("Pair<" ++ inside ++ ">") ∧
        inside.pieces = ["Both<A, B>", closeableParameters ++ " => void"] := by
  have accepted := ofJson_toJson wellFormed_pairOfLists
  obtain ⟨type, typed, -, law⟩ := arguments_read_back accepted avoids_of_copied_pairOfLists
  obtain ⟨inside, text, each⟩ := law _ rfl rfl
  refine ⟨accepted, avoids_of_copied_pairOfLists, inside, ?_, ?_⟩
  · rw [typed, Except.map, text]
    rfl
  · generalize inside.pieces = found at each
    obtain _ | ⟨⟨first, firstTyped, rfl⟩, _ | ⟨⟨second, secondTyped, rfl⟩, _ | _⟩⟩ := each
    cases firstTyped
    cases secondTyped
    decide +kernel

end Descriptor

end HostDecl
