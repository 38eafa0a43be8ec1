import HostDecl.Proofs.Nesting
import HostDecl.TypeScript.Alias

/-!
# The nesting of a type's text

The text of a type is put together from the texts of its operands, and each piece that is put between
them belongs to a bracket or stands outside all of them. The equations here say which, one shape of
type each; what is to be known about brackets in the text of a type follows from them operand by
operand.

**The law** (`balanced_render`): the text of a type is balanced, if the names that are taken over into
it hold no bracket and no `=`. The other pieces are the library's own, the aliases among them.
-/

namespace HostDecl.TypeScript

theorem balanced_of_mem_aliases : ∀ entry ∈ aliases, (entry.2 : Text).Balanced := by
  decide +kernel

namespace TypeExpr

/-- The name that a type takes over into its text, besides those of its operands. -/
def ownName? : TypeExpr → Option Text
  | named name | unmapped name | unhandled name _ => some name
  | _ => none

/-- A name that is taken over into the text of a type, at any depth. -/
def Copies (type : TypeExpr) (name : Text) : Prop :=
  ∃ part, PartOf part type ∧ part.ownName? = some name

/-- The texts of aliased parts are those of the aliases. -/
def AliasesListed (type : TypeExpr) : Prop :=
  ∀ text, PartOf (.aliased text) type → ∃ name, (name, text) ∈ aliases

/-- The names in a part are names in the whole. -/
theorem Copies.of_partOf {part type : TypeExpr} {name : Text} (inside : PartOf part type)
    (copies : part.Copies name) : type.Copies name := by
  obtain ⟨inner, below, own⟩ := copies
  exact ⟨inner, below.trans inside, own⟩

theorem AliasesListed.of_partOf {part type : TypeExpr} (listed : type.AliasesListed)
    (inside : PartOf part type) : part.AliasesListed :=
  fun text aliased => listed text (aliased.trans inside)

theorem render_array (element : TypeExpr) :
    (array element).render = element.render ++ Text.enclosed .square "" := rfl

theorem render_dictionary (key value : TypeExpr) :
    (dictionary key value).render =
      Text.enclosed .curly (" " ++ (Text.enclosed .square ("key: " ++ key.render) ++
        (": " ++ (value.render ++ "; ")))) := by
  simp only [render, Text.enclosed, Text.append_assoc]
  rfl

theorem render_generic (base : TypeExpr) (arguments : List TypeExpr) :
    (generic base arguments).render =
      base.render ++ Text.enclosed .angle (Text.intercalate ", " (arguments.map render)) := by
  simp only [render, renderAll_eq_map, Text.enclosed, Text.append_assoc]
  rfl

theorem render_handler (argument : TypeExpr) :
    (handler argument).render =
      Text.enclosed .round (Text.enclosed .round ("res: " ++ argument.render) ++ " => void") ++
        (" | " ++ ("Handler" ++ Text.enclosed .angle argument.render)) := by
  simp only [render, Text.enclosed, Text.append_assoc]
  rfl

theorem render_function (argument result : TypeExpr) :
    (function argument result).render =
      Text.enclosed .round ("arg: " ++ argument.render) ++ (" => " ++ result.render) := by
  simp only [render, Text.enclosed, Text.append_assoc]
  rfl

theorem render_asyncResult (value : TypeExpr) :
    (asyncResult value).render = "AsyncResult" ++ Text.enclosed .angle value.render := by
  simp only [render, Text.enclosed, Text.append_assoc]
  rfl

theorem balanced_builtin (type : Builtin) : (type.text : Text).Balanced := by
  cases type <;> decide +kernel

/-- What stands in the braces of an object type. -/
theorem balanced_dictionaryInside {key value : Text} (keyBalanced : key.Balanced)
    (valueBalanced : value.Balanced) :
    (" " ++ (Text.enclosed .square ("key: " ++ key) ++ (": " ++ (value ++ "; ")))).Balanced := by
  have index : (Text.enclosed .square ("key: " ++ key)).Balanced :=
    (Text.Balanced.append (by decide) keyBalanced).enclosed _
  have behind : (": " ++ (value ++ "; ")).Balanced :=
    .append (by decide) (valueBalanced.append (by decide))
  exact .append (by decide) (index.append behind)

/-- The function in a callback, in its brackets. -/
theorem balanced_callback {argument : Text} (balanced : argument.Balanced) :
    (Text.enclosed .round ("res: " ++ argument) ++ " => void").Balanced :=
  ((Text.Balanced.append (by decide) balanced).enclosed _).append (by decide)

/-- The parameter of a function type, in its brackets. -/
theorem balanced_parameter {argument : Text} (balanced : argument.Balanced) :
    (Text.enclosed .round ("arg: " ++ argument)).Balanced :=
  (Text.Balanced.append (by decide) balanced).enclosed _

/-- A text is balanced if the names in it are free of brackets. -/
theorem balanced_render {type : TypeExpr} (listed : type.AliasesListed)
    (plain : ∀ name, type.Copies name → name.Avoids Text.nestingSigns) : type.render.Balanced := by
  induction type using induct with
  | step type ih =>
    have inner : ∀ operand ∈ type.operands, operand.render.Balanced := fun operand mem =>
      ih operand mem (listed.of_partOf (.inside mem .self))
        fun name copies => plain name (copies.of_partOf (.inside mem .self))
    cases type with
    | builtin type => exact balanced_builtin type
    | aliased text =>
      obtain ⟨name, mem⟩ := listed text .self
      exact balanced_of_mem_aliases _ mem
    | named name => exact Text.balanced_of_avoids (plain name ⟨_, .self, rfl⟩)
    | unmapped name =>
      exact Text.balanced_unmappedText (Text.balanced_of_avoids (plain name ⟨_, .self, rfl⟩))
    | unhandled name kind =>
      have avoids := plain name ⟨_, .self, rfl⟩
      exact Text.balanced_unmappedText (Text.balanced_of_avoids avoids)
    | array element =>
      rw [render_array]
      exact (inner element List.mem_cons_self).append (by decide)
    | dictionary key value =>
      have keyBalanced := inner key List.mem_cons_self
      have valueBalanced := inner value (List.mem_cons_of_mem _ List.mem_cons_self)
      rw [render_dictionary]
      exact (balanced_dictionaryInside keyBalanced valueBalanced).enclosed _
    | generic base arguments =>
      obtain ⟨baseBalanced, argumentsBalanced⟩ := List.forall_mem_cons.mp inner
      rw [render_generic]
      refine baseBalanced.append (.enclosed (Text.balanced_intercalate (by decide) ?_) _)
      exact List.forall_mem_map.mpr argumentsBalanced
    | handler argument =>
      have balanced := inner argument List.mem_cons_self
      rw [render_handler]
      refine .append ((balanced_callback balanced).enclosed _) (.append (by decide) ?_)
      exact .append (by decide) (balanced.enclosed _)
    | function argument result =>
      have argumentBalanced := inner argument List.mem_cons_self
      have resultBalanced := inner result (List.mem_cons_of_mem _ List.mem_cons_self)
      rw [render_function]
      exact (balanced_parameter argumentBalanced).append (.append (by decide) resultBalanced)
    | asyncResult value =>
      rw [render_asyncResult]
      exact .append (by decide) ((inner value List.mem_cons_self).enclosed _)

end TypeExpr

end HostDecl.TypeScript
