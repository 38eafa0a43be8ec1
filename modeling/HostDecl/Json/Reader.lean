import HostDecl.Json.Token

/-!
# Reading JSON

Tokens are read by a machine with a stack: each open array or object is a frame that holds what has
been read of it. One step takes one token, so a document is refused at the first token that cannot
stand where it is, and the fault says what was expected there.

A key that occurs again replaces the value and keeps the first place.
-/

namespace HostDecl.Json

/-- What is wrong with the syntax of a text. -/
inductive SyntaxFault where
  /-- The text starts with a byte order mark. -/
  | byteOrderMark
  /-- A value should stand here. -/
  | value
  /-- A key should stand here. -/
  | key
  /-- A colon should stand here. -/
  | colon
  /-- A comma should stand here. -/
  | comma
  /-- The document is over, but the text is not. -/
  | extraData
  /-- A string is faulty. -/
  | string (fault : StringFault)
  deriving DecidableEq, Repr

/-- The most digits a whole number may have. -/
def digitLimit : Nat := 4300

/-- How many arrays and objects may be open at a time. What bounds them is the stack of whoever reads,
so the number depends on what is on that stack already: this one is for a reader that is called by
nearly nothing, and each caller around it leaves room for a little less. -/
def depthLimit : Nat := 990

/-- What goes beyond the limits of the reader, although its syntax may be right. -/
inductive LimitFault where
  /-- A whole number has too many digits. -/
  | tooManyDigits (count : Nat)
  /-- An array, or an object, opens where too many are open already. -/
  | tooDeep (isObject : Bool)
  deriving DecidableEq, Repr

/-- The wording of what goes beyond a limit. -/
def LimitFault.message : LimitFault → String
  | .tooManyDigits count =>
    "Exceeds the limit (" ++ toString digitLimit ++
      " digits) for integer string conversion: value has " ++ toString count ++
      " digits; use sys.set_int_max_str_digits() to increase the limit"
  | .tooDeep isObject =>
    "maximum recursion depth exceeded while decoding a JSON " ++
      (if isObject then "object" else "array") ++ " from a unicode string"

/-- Why a text is not read. -/
inductive Fault where
  /-- The syntax is wrong at a position. -/
  | malformed (fault : SyntaxFault) (position : Nat)
  /-- The text goes beyond a limit. -/
  | beyond (limit : LimitFault)
  deriving DecidableEq, Repr

/-- What stands at the place of a syntax fault, or what should. -/
def SyntaxFault.text : SyntaxFault → String
  | .byteOrderMark => "Unexpected UTF-8 BOM (decode using utf-8-sig)"
  | .value => "Expecting value"
  | .key => "Expecting property name enclosed in double quotes"
  | .colon => "Expecting ':' delimiter"
  | .comma => "Expecting ',' delimiter"
  | .extraData => "Extra data"
  | .string .unterminated => "Unterminated string starting at"
  | .string .controlCharacter => "Invalid control character at"
  | .string .invalidEscape => "Invalid \\escape"
  | .string .invalidUnicodeEscape => "Invalid \\uXXXX escape"

/-- The line and the column of a position, both counted from one. -/
def lineAndColumn (text : List Char) (position : Nat) : Nat × Nat :=
  (text.take position).foldl (fun (line, column) c =>
    if c = '\n' then (line + 1, 1) else (line, column + 1)) (1, 1)

/-- Why a text is not read, with the line and the column. -/
inductive ReadFault where
  /-- The syntax is wrong at a place. -/
  | malformed (fault : SyntaxFault) (line column position : Nat)
  /-- The text goes beyond a limit. -/
  | beyond (limit : LimitFault)
  deriving DecidableEq, Repr

/-- A fault with its place in the text. -/
def Fault.placed (text : List Char) : Fault → ReadFault
  | .malformed fault position =>
    let (line, column) := lineAndColumn text position
    .malformed fault line column position
  | .beyond limit => .beyond limit

/-- The wording of a fault. -/
def ReadFault.message : ReadFault → String
  | .malformed fault line column position =>
    fault.text ++ ": line " ++ toString line ++ " column " ++ toString column ++
      " (char " ++ toString position ++ ")"
  | .beyond limit => limit.message

/-- An array or an object that is being read. -/
inductive Frame where
  /-- An array with the items so far, the last one first. -/
  | array (items : List Json)
  /-- An object with the members so far, whose value for `key` is being read. -/
  | object (members : List (Text × Json)) (key : Text)

/-- What may come next. -/
inductive State where
  /-- A value; after an opening bracket (`first`) also the closing one. -/
  | awaitValue (frames : List Frame) (first : Bool)
  /-- A key of an object; after an opening brace (`first`) also the closing one. -/
  | awaitKey (frames : List Frame) (members : List (Text × Json)) (first : Bool)
  /-- The colon behind a key. -/
  | awaitColon (frames : List Frame) (members : List (Text × Json)) (key : Text)
  /-- A comma or a closing bracket. -/
  | afterItem (frames : List Frame) (items : List Json)
  /-- A comma or a closing brace. -/
  | afterMember (frames : List Frame) (members : List (Text × Json))
  /-- The end of the text. -/
  | done (value : Json)

/-- Gives a value to the innermost open array or object. -/
def State.give (value : Json) : List Frame → State
  | [] => .done value
  | .array items :: rest => .afterItem rest (value :: items)
  | .object members key :: rest => .afterMember rest (put key value members)

/-- The number of a decimal token. -/
def decimalValue (negative : Bool) (digits fraction : List Char) (exponent : Int) : Binary64 :=
  .ofDecimal negative (digitsValue (digits ++ fraction)) (exponent - fraction.length)

/-- A value that is one token long; `none` for a token that is no value. -/
def scalar? : Token → Option (Except Fault Json)
  | .text value => some (.ok (.str value))
  | .word value => some (.ok value)
  | .whole negative digits =>
    if digitLimit < digits.length then some (.error (.beyond (.tooManyDigits digits.length)))
    else
      let n : Int := digitsValue digits
      some (.ok (.int (if negative then -n else n)))
  | .decimal negative digits fraction exponent =>
    some (.ok (.float (decimalValue negative digits fraction exponent)))
  | .faultyText fault position => some (.error (.malformed (.string fault) position))
  | _ => none

/-- Reads a token. -/
def State.step (s : State) (t : Placed) : Except Fault State :=
  match s with
  | .awaitValue frames first =>
    match t.token with
    | .openBracket =>
      if frames.length < depthLimit then .ok (.awaitValue (.array [] :: frames) true)
      else .error (.beyond (.tooDeep false))
    | .openBrace =>
      if frames.length < depthLimit then .ok (.awaitKey frames [] true)
      else .error (.beyond (.tooDeep true))
    | .closeBracket =>
      match first, frames with
      | true, .array items :: rest => .ok (.give (.arr items.reverse) rest)
      | _, _ => .error (.malformed .value t.position)
    | token =>
      match scalar? token with
      | some (.ok value) => .ok (.give value frames)
      | some (.error fault) => .error fault
      | none => .error (.malformed .value t.position)
  | .awaitKey frames members first =>
    match t.token with
    | .text key => .ok (.awaitColon frames members key)
    | .faultyText fault position => .error (.malformed (.string fault) position)
    | .closeBrace =>
      if first then .ok (.give (.obj members) frames) else .error (.malformed .key t.position)
    | _ => .error (.malformed .key t.position)
  | .awaitColon frames members key =>
    match t.token with
    | .colon => .ok (.awaitValue (.object members key :: frames) false)
    | _ => .error (.malformed .colon t.position)
  | .afterItem frames items =>
    match t.token with
    | .comma => .ok (.awaitValue (.array items :: frames) false)
    | .closeBracket => .ok (.give (.arr items.reverse) frames)
    | _ => .error (.malformed .comma t.position)
  | .afterMember frames members =>
    match t.token with
    | .comma => .ok (.awaitKey frames members false)
    | .closeBrace => .ok (.give (.obj members) frames)
    | _ => .error (.malformed .comma t.position)
  | .done value =>
    match t.token with
    | .ending => .ok (.done value)
    | _ => .error (.malformed .extraData t.position)

/-- Reads tokens until one is refused. -/
def State.run (s : State) : List Placed → Except Fault State
  | [] => .ok s
  | t :: rest =>
    match s.step t with
    | .error fault => .error fault
    | .ok next => next.run rest

/-- The value of a sequence of tokens. A state that still expects something refuses the ending, so
the last answer is given for no sequence that ends. -/
def ofTokens (placed : List Placed) : Except Fault Json :=
  match (State.awaitValue [] false).run placed with
  | .error fault => .error fault
  | .ok (.done value) => .ok value
  | .ok _ => .error (.malformed .value 0)

/-- The value of a JSON text. -/
def ofChars (cs : List Char) : Except Fault Json :=
  match cs with
  | '\ufeff' :: _ => .error (.malformed .byteOrderMark 0)
  | _ => ofTokens (tokens cs)

/-- The value of a JSON text. -/
def parse (text : String) : Except ReadFault Json :=
  match ofChars text.toList with
  | .ok value => .ok value
  | .error fault => .error (fault.placed text.toList)

end HostDecl.Json
