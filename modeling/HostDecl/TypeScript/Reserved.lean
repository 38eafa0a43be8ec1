/-!
# Reserved words

Identifiers that TypeScript keeps for itself are written with two underscores in front. No reserved
word starts with an underscore, so an escaped identifier is never reserved.
-/

namespace HostDecl.TypeScript

/-- The reserved words, those of strict mode included, in ascending order. -/
def reservedWords : List String :=
  ["as", "break", "case", "catch", "class", "const", "continue", "debugger", "default", "delete",
   "do", "else", "enum", "export", "extends", "false", "finally", "for", "function", "if",
   "implements", "import", "in", "instanceof", "interface", "let", "new", "null", "package",
   "private", "protected", "public", "return", "static", "super", "switch", "this", "throw", "true",
   "try", "typeof", "var", "void", "while", "with", "yield"]

/-- Whether a word is reserved. -/
def isReserved (word : String) : Bool := word ∈ reservedWords

/-- An identifier as a declaration may use it. -/
def escapeReserved (identifier : String) : String :=
  if isReserved identifier then "__" ++ identifier else identifier

end HostDecl.TypeScript
