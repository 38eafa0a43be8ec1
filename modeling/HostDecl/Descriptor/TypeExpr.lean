import HostDecl.Descriptor.Basic
import HostDecl.TypeScript.Alias
import HostDecl.TypeScript.TypeExpr

/-!
# The TypeScript type of a host type

A descriptor becomes a TypeScript type by its kind. Types without a counterpart become `any`, with
the host name beside it where that helps, and are reported. Only the kinds that mention their
arguments look at them.

A type argument can be missing, and then there is no type, only what was reported up to there. In a
descriptor that was read and accepted none is missing, because the count was checked.
-/

namespace HostDecl

open TypeScript

/-- A type argument that is missing where the type of a descriptor needs it. -/
structure MissingArgument where
  /-- What was reported before. -/
  reports : List Report
  /-- The argument that is missing. -/
  cause : ArgumentFault
  deriving DecidableEq, Repr

/-- A fault behind what was reported earlier. -/
def MissingArgument.after (earlier : List Report) (fault : MissingArgument) : MissingArgument :=
  { fault with reports := earlier ++ fault.reports }

/-- The type of a primitive, by its simple name. -/
def primitiveType (simpleName : Text) : Builtin :=
  if simpleName = "boolean" ∨ simpleName = "Boolean" then .boolean
  else if simpleName = "char" ∨ simpleName = "Character" then .string
  else .number

/-- The alias of a qualified name, or a simple name. -/
def aliasOr (name simpleName : Text) : TypeExpr :=
  match alias? name with
  | some text => .aliased text
  | none => .named simpleName

namespace Descriptor

mutual

/-- The TypeScript type of a descriptor. -/
def typeExpr : Descriptor → Except MissingArgument TypeExpr
  | ⟨kind, simpleName, name, moduleName, typeArguments, typeParameters, isVariable⟩ =>
    match kind with
    | .string => .ok (.builtin .string)
    | .primitive | .boxedPrimitive => .ok (.builtin (primitiveType simpleName))
    | .enumeration => .ok (if moduleName.isSome then .named simpleName else .builtin .any)
    | .object => .ok (if isVariable then .named name else .builtin .any)
    | .jsonObject => .ok (.builtin .anyMap)
    | .jsonArray => .ok (.array (.builtin .any))
    | .throwable => .ok (.builtin .error)
    | .void => .ok (.builtin .void)
    | .list | .set =>
      match typeArguments with
      | none => .ok (.array (.builtin .any))
      | some items => (typeExprAt items 0).map .array
    | .map =>
      match typeArguments with
      | none => .ok (.builtin .anyMap)
      | some items =>
        match typeExprAt items 0 with
        | .error fault => .error fault
        | .ok key => ((typeExprAt items 1).mapError (.after key.reports)).map (.dictionary key)
    | .api =>
      match typeArguments with
      | some items =>
        (typeExprs items).map
          (.generic (aliasOr (eraseArguments name) (eraseArguments simpleName)))
      | none =>
        .ok (if typeParameters.isEmpty then
          aliasOr (eraseArguments name) (eraseArguments simpleName)
        else .generic (aliasOr name simpleName) (typeParameters.map fun _ => .builtin .any))
    | .dataObject => .ok (.named (eraseArguments simpleName))
    | .handler =>
      match typeArguments with
      | none => .ok (.handler (.builtin .any))
      | some items => (typeExprAt items 0).map .handler
    | .function =>
      match typeArguments with
      | none => .ok (.function (.builtin .any) (.builtin .any))
      | some items =>
        match typeExprAt items 0 with
        | .error fault => .error fault
        | .ok argument =>
          ((typeExprAt items 1).mapError (.after argument.reports)).map (.function argument)
    | .asyncResult =>
      match typeArguments with
      | none => .ok (.asyncResult (.builtin .any))
      | some items => (typeExprAt items 0).map .asyncResult
    | .classType => .ok (.builtin .classToken)
    | .other =>
      .ok (match alias? name with
      | some text => .aliased text
      | none => .unmapped name)
    | .unlisted text => .ok (.unhandled name text)

/-- The type of the argument at an index. -/
def typeExprAt : List Descriptor → Nat → Except MissingArgument TypeExpr
  | [], _ => .error ⟨[], .outOfRange⟩
  | d :: _, 0 => d.typeExpr
  | _ :: rest, i + 1 => typeExprAt rest i

/-- The types of all arguments. -/
def typeExprs : List Descriptor → Except MissingArgument (List TypeExpr)
  | [] => .ok []
  | d :: rest =>
    match d.typeExpr with
    | .error fault => .error fault
    | .ok type => ((typeExprs rest).mapError (.after type.reports)).map (type :: ·)

end

end Descriptor

end HostDecl
