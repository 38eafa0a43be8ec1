import HostDecl.Diagnostic.Report

/-!
# TypeScript type expressions

The shapes of type that host types become, their text, and what they report. A handler mentions
its argument twice in the text but holds it once, so a type without counterpart below it is reported
once.
-/

namespace HostDecl.TypeScript

/-- A type with a fixed text. -/
inductive Builtin where
  /-- Text. -/
  | string
  /-- Numbers. -/
  | number
  /-- Truth values. -/
  | boolean
  /-- Anything. -/
  | any
  /-- Exceptions. -/
  | error
  /-- No value. -/
  | void
  /-- An object with any values. -/
  | anyMap
  /-- A class token, which has no counterpart yet. -/
  | classToken
  deriving DecidableEq, Repr

/-- The text of a fixed type. -/
def Builtin.text : Builtin → String
  | .string => "string"
  | .number => "number"
  | .boolean => "boolean"
  | .any => "any"
  | .error => "Error"
  | .void => "void"
  | .anyMap => "\x7b [key: string]: any \x7d"
  | .classToken => "any /* TODO: class */"

/-- A TypeScript type. -/
inductive TypeExpr where
  /-- A type with a fixed text. -/
  | builtin (type : Builtin)
  /-- The text of an aliased host type. -/
  | aliased (text : String)
  /-- A name taken over from the host. -/
  | named (name : Text)
  /-- A host type without counterpart. -/
  | unmapped (name : Text)
  /-- A host type of a kind that is not listed. -/
  | unhandled (name kind : Text)
  /-- An array. -/
  | array (element : TypeExpr)
  /-- An object whose values have one type. -/
  | dictionary (key value : TypeExpr)
  /-- A type applied to arguments. -/
  | generic (base : TypeExpr) (arguments : List TypeExpr)
  /-- A callback, as a function or as an object. -/
  | handler (argument : TypeExpr)
  /-- A function of one argument. -/
  | function (argument result : TypeExpr)
  /-- The outcome of an asynchronous call. -/
  | asyncResult (value : TypeExpr)
  deriving Repr

/-- The names of type parameters in angle brackets; nothing for no parameters. -/
def parameterList : List Text → Text
  | [] => ""
  | names => "<" ++ Text.intercalate ", " names ++ ">"

/-- The text that stands for a host type without counterpart. -/
def unmappedText (name : Text) : Text := "any /* " ++ name ++ " */"

namespace TypeExpr

mutual

/-- The text of a type. -/
def render : TypeExpr → Text
  | builtin type => type.text
  | aliased text => text
  | named name => name
  | unmapped name => unmappedText name
  | unhandled name _ => unmappedText name
  | array element => element.render ++ "[]"
  | dictionary key value => "\x7b [key: " ++ key.render ++ "]: " ++ value.render ++ "; \x7d"
  | generic base arguments =>
    base.render ++ "<" ++ Text.intercalate ", " (renderAll arguments) ++ ">"
  | handler argument =>
    let text := argument.render
    "((res: " ++ text ++ ") => void) | Handler<" ++ text ++ ">"
  | function argument result => "(arg: " ++ argument.render ++ ") => " ++ result.render
  | asyncResult value => "AsyncResult<" ++ value.render ++ ">"

/-- The texts of a list of types. -/
def renderAll : List TypeExpr → List Text
  | [] => []
  | type :: rest => type.render :: renderAll rest

end

mutual

/-- What a type has to report, from left to right. -/
def reports : TypeExpr → List Report
  | builtin _ | aliased _ | named _ => []
  | unmapped name => [⟨Report.unmappedType, name⟩]
  | unhandled name kind => [⟨Report.unhandledKind, name ++ " - " ++ kind⟩]
  | array element => element.reports
  | dictionary key value => key.reports ++ value.reports
  | generic base arguments => base.reports ++ reportsAll arguments
  | handler argument => argument.reports
  | function argument result => argument.reports ++ result.reports
  | asyncResult value => value.reports

/-- What a list of types has to report. -/
def reportsAll : List TypeExpr → List Report
  | [] => []
  | type :: rest => type.reports ++ reportsAll rest

end

end TypeExpr

end HostDecl.TypeScript
