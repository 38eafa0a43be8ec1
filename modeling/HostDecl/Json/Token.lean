import HostDecl.Json.Basic

/-!
# JSON tokens

A text is cut into tokens by a machine that reads one character at a time. Each token carries the
position of its first character, counted in characters from the start of the text. A text that is no
sequence of tokens still has one: the cutting stops at the first fault, which becomes the last
token, so that the reader of tokens meets faults and misplaced tokens in the order of the text.
-/

namespace HostDecl.Json

/-- What can be wrong inside a string. -/
inductive StringFault where
  /-- The text ends inside the string. -/
  | unterminated
  /-- A control character stands in the string. -/
  | controlCharacter
  /-- A backslash is followed by a character that it does not escape. -/
  | invalidEscape
  /-- Four hexadecimal digits are missing after `\u`. -/
  | invalidUnicodeEscape
  deriving DecidableEq, Repr

/-- The tokens of JSON. -/
inductive Token where
  /-- An opening bracket. -/
  | openBracket
  /-- A closing bracket. -/
  | closeBracket
  /-- An opening brace. -/
  | openBrace
  /-- A closing brace. -/
  | closeBrace
  /-- A colon. -/
  | colon
  /-- A comma. -/
  | comma
  /-- A string, decoded. -/
  | text (value : Text)
  /-- A word that stands for a value. -/
  | word (value : Json)
  /-- A whole number: its sign and its digits. -/
  | whole (negative : Bool) (digits : List Char)
  /-- A number with a fraction or an exponent: sign, digits before the point, digits after it, and
  the exponent. -/
  | decimal (negative : Bool) (digits fraction : List Char) (exponent : Int)
  /-- A string with a fault, which stands at the given position. -/
  | faultyText (fault : StringFault) (position : Nat)
  /-- A character that starts no token. -/
  | stray
  /-- The end of the text. -/
  | ending
  deriving Repr, Inhabited

/-- The characters between tokens. -/
def isSpace (c : Char) : Bool := c == ' ' || c == '\t' || c == '\n' || c == '\r'

/-- The value of a hexadecimal digit. -/
def hexValue? (c : Char) : Option Nat :=
  if '0' ≤ c && c ≤ '9' then some (c.toNat - 48)
  else if 'a' ≤ c && c ≤ 'f' then some (c.toNat - 87)
  else if 'A' ≤ c && c ≤ 'F' then some (c.toNat - 55)
  else none

/-- The character behind a one-letter escape. -/
def escaped? : Char → Option Char
  | '"' => some '"'
  | '\\' => some '\\'
  | '/' => some '/'
  | 'b' => some '\x08'
  | 'f' => some '\x0c'
  | 'n' => some '\n'
  | 'r' => some '\r'
  | 't' => some '\t'
  | _ => none

/-- The number that decimal digits stand for. -/
def digitsValue (digits : List Char) : Nat := digits.foldl (fun n c => 10 * n + (c.toNat - 48)) 0

/-! ## Strings -/

/-- The code points of a string read so far, in reverse, and the first half of a surrogate pair that
waits for its second half. -/
structure Decoded where
  /-- The code points, the last one first. -/
  reversed : List CodePoint
  /-- A high surrogate that has just been read. -/
  pending : Option Nat

/-- The code points with a waiting half left alone. -/
def Decoded.settled (d : Decoded) : List CodePoint :=
  match d.pending with
  | none => d.reversed
  | some high => .ofUnit high :: d.reversed

/-- One more code point. -/
def Decoded.push (d : Decoded) (p : CodePoint) : Decoded := ⟨p :: d.settled, none⟩

/-- One more unit of sixteen bits: two halves of a pair make one character, and a half without the
other stays a half. -/
def Decoded.pushUnit (d : Decoded) (unit : Nat) : Decoded :=
  if 0xd800 ≤ unit && unit < 0xdc00 then ⟨d.settled, some unit⟩
  else if 0xdc00 ≤ unit && unit < 0xe000 then
    match d.pending with
    | some high =>
      ⟨.char (Char.ofNat (0x10000 + (high - 0xd800) * 0x400 + (unit - 0xdc00))) :: d.reversed, none⟩
    | none => d.push (.ofUnit unit)
  else d.push (.ofUnit unit)

/-- The text read. -/
def Decoded.text (d : Decoded) : Text := ⟨d.settled.reverse⟩

/-! ## The machine -/

/-- How far a number has been read. The parts that may still turn out not to belong to it (a point
without digits, an exponent mark without digits) remember where they start. -/
inductive NumberPart where
  /-- A minus sign. -/
  | minus
  /-- A leading zero, after which no digit belongs to the number. -/
  | zero
  /-- Digits, in reverse. -/
  | digits (reversed : List Char)
  /-- A point, at a position, and no digit yet. -/
  | point (whole : List Char) (dot : Nat)
  /-- Digits after the point. -/
  | fraction (whole reversed : List Char)
  /-- An exponent mark, at a position, and no digit yet; its sign if there is one. -/
  | mark (whole fraction : List Char) (start : Nat) (sign : Option Bool)
  /-- Digits of the exponent. -/
  | exponent (whole fraction : List Char) (negative : Bool) (reversed : List Char)
  deriving Repr

/-- What the machine is reading. The positions are those where the token starts. -/
inductive Mode where
  /-- Between tokens. -/
  | between
  /-- Inside a string. `escape` is the position of a `\u` escape just finished. -/
  | string (start : Nat) (read : Decoded) (escape : Option Nat)
  /-- After a backslash. -/
  | escape (start : Nat) (read : Decoded)
  /-- Inside the digits of a `\u` escape: its position, how many digits are owed, their value. -/
  | unicode (start : Nat) (read : Decoded) (escape owed value : Nat)
  /-- Inside a word: the letters owed and its value. -/
  | word (start : Nat) (owed : List Char) (value : Json)
  /-- Inside a number. -/
  | number (start : Nat) (negative : Bool) (part : NumberPart)
  /-- Behind a fault. -/
  | stopped

/-- A token and the position where it starts. -/
structure Placed where
  /-- The token. -/
  token : Token
  /-- The position of its first character. -/
  position : Nat
  deriving Repr, Inhabited

/-- The machine: the position of the next character, the mode, and the tokens so far in reverse. -/
structure Scan where
  /-- The position of the next character. -/
  position : Nat
  /-- What is being read. -/
  mode : Mode
  /-- The tokens found, the last one first. -/
  found : List Placed

/-- The machine before the first character. -/
def Scan.start : Scan := ⟨0, .between, []⟩

/-- Adds a token. -/
def emit (found : List Placed) (token : Token) (position : Nat) : List Placed :=
  ⟨token, position⟩ :: found

/-- Reads a character between tokens. -/
def betweenStep (position : Nat) (found : List Placed) (c : Char) : Mode × List Placed :=
  let single (token : Token) : Mode × List Placed := (.between, emit found token position)
  if isSpace c then (.between, found)
  else match c with
    | '[' => single .openBracket
    | ']' => single .closeBracket
    | '{' => single .openBrace
    | '}' => single .closeBrace
    | ':' => single .colon
    | ',' => single .comma
    | '"' => (.string position ⟨[], none⟩ none, found)
    | 'n' => (.word position ['u', 'l', 'l'] .null, found)
    | 't' => (.word position ['r', 'u', 'e'] (.bool true), found)
    | 'f' => (.word position ['a', 'l', 's', 'e'] (.bool false), found)
    | 'N' => (.word position ['a', 'N'] (.float .nan), found)
    | 'I' => (.word position "nfinity".toList (.float (.infinite false)), found)
    | '-' => (.number position true .minus, found)
    | '0' => (.number position false .zero, found)
    | _ =>
      if c.isDigit then (.number position false (.digits [c]), found)
      else (.stopped, emit found .stray position)

/-- Reads a character of a string. -/
def stringStep (position start : Nat) (read : Decoded) (found : List Placed) (c : Char) :
    Mode × List Placed :=
  if c = '"' then (.between, emit found (.text read.text) start)
  else if c = '\\' then (.escape start read, found)
  else if c.toNat < 0x20 then (.stopped, emit found (.faultyText .controlCharacter position) start)
  else (.string start (read.push (.char c)) none, found)

/-- Reads the character after a backslash. -/
def escapeStep (position start : Nat) (read : Decoded) (found : List Placed) (c : Char) :
    Mode × List Placed :=
  if c = 'u' then (.unicode start read position 4 0, found)
  else match escaped? c with
    | some d => (.string start (read.push (.char d)) none, found)
    | none => (.stopped, emit found (.faultyText .invalidEscape (position - 1)) start)

/-- Reads a digit of a `\u` escape. -/
def unicodeStep (start : Nat) (read : Decoded) (escape owed value : Nat) (found : List Placed)
    (c : Char) : Mode × List Placed :=
  match hexValue? c with
  | none => (.stopped, emit found (.faultyText .invalidUnicodeEscape escape) start)
  | some digit =>
    if owed ≤ 1 then (.string start (read.pushUnit (16 * value + digit)) (some escape), found)
    else (.unicode start read escape (owed - 1) (16 * value + digit), found)

/-- A number is over: its token, and a stray character where a point or an exponent mark was begun
but not finished. The second answer says whether cutting stops there. -/
def closeNumber (start : Nat) (negative : Bool) (part : NumberPart) (found : List Placed) :
    Bool × List Placed :=
  let shifted (minus : Bool) (digits : List Char) : Int :=
    if minus then -(digitsValue digits : Int) else digitsValue digits
  match part with
  | .minus => (true, emit found .stray start)
  | .zero => (false, emit found (.whole negative ['0']) start)
  | .digits reversed => (false, emit found (.whole negative reversed.reverse) start)
  | .point whole dot => (true, emit (emit found (.whole negative whole) start) .stray dot)
  | .fraction whole reversed =>
    (false, emit found (.decimal negative whole reversed.reverse 0) start)
  | .mark whole places mark _ =>
    let number := if places.isEmpty then Token.whole negative whole
      else .decimal negative whole places 0
    (true, emit (emit found number start) .stray mark)
  | .exponent whole places minus reversed =>
    (false, emit found (.decimal negative whole places (shifted minus reversed.reverse)) start)

/-- How a character goes on with a number, if it does. -/
def NumberPart.extend? (position : Nat) (c : Char) : NumberPart → Option NumberPart
  | .minus => if c = '0' then some .zero else if c.isDigit then some (.digits [c]) else none
  | .zero =>
    if c = '.' then some (.point ['0'] position)
    else if c = 'e' || c = 'E' then some (.mark ['0'] [] position none)
    else none
  | .digits reversed =>
    if c.isDigit then some (.digits (c :: reversed))
    else if c = '.' then some (.point reversed.reverse position)
    else if c = 'e' || c = 'E' then some (.mark reversed.reverse [] position none)
    else none
  | .point whole _ => if c.isDigit then some (.fraction whole [c]) else none
  | .fraction whole reversed =>
    if c.isDigit then some (.fraction whole (c :: reversed))
    else if c = 'e' || c = 'E' then some (.mark whole reversed.reverse position none)
    else none
  | .mark whole places start sign =>
    if c.isDigit then some (.exponent whole places (sign.getD false) [c])
    else match sign with
      | none =>
        if c = '+' then some (.mark whole places start (some false))
        else if c = '-' then some (.mark whole places start (some true))
        else none
      | some _ => none
  | .exponent whole places negative reversed =>
    if c.isDigit then some (.exponent whole places negative (c :: reversed)) else none

/-- Reads a character of a number. A minus sign may also start the word for minus infinity. -/
def numberStep (position start : Nat) (negative : Bool) (part : NumberPart) (found : List Placed)
    (c : Char) : Mode × List Placed :=
  match part, c with
  | .minus, 'I' => (.word start "nfinity".toList (.float (.infinite true)), found)
  | part, c =>
    match part.extend? position c with
    | some longer => (.number start negative longer, found)
    | none =>
      match closeNumber start negative part found with
      | (true, found) => (.stopped, found)
      | (false, found) => betweenStep position found c

/-- Reads a letter of a word. -/
def wordStep (start : Nat) (owed : List Char) (value : Json) (found : List Placed) (c : Char) :
    Mode × List Placed :=
  match owed with
  | [] => (.stopped, emit found .stray start)
  | next :: rest =>
    if c ≠ next then (.stopped, emit found .stray start)
    else if rest.isEmpty then (.between, emit found (.word value) start)
    else (.word start rest value, found)

/-- Reads a character. -/
def Scan.step (s : Scan) (c : Char) : Scan :=
  let (mode, found) := match s.mode with
    | .between => betweenStep s.position s.found c
    | .string start read _ => stringStep s.position start read s.found c
    | .escape start read => escapeStep s.position start read s.found c
    | .unicode start read escape owed value => unicodeStep start read escape owed value s.found c
    | .word start owed value => wordStep start owed value s.found c
    | .number start negative part => numberStep s.position start negative part s.found c
    | .stopped => (.stopped, s.found)
  ⟨s.position + 1, mode, found⟩

/-- The tokens when the text is over, the ending among them. -/
def Scan.finish (s : Scan) : List Placed :=
  let found := match s.mode with
    | .between | .stopped => s.found
    | .string start _ none | .escape start _ =>
      emit s.found (.faultyText .unterminated start) start
    | .string start _ (some escape) | .unicode start _ escape _ _ =>
      emit s.found (.faultyText .invalidUnicodeEscape escape) start
    | .word start _ _ => emit s.found .stray start
    | .number start negative part => (closeNumber start negative part s.found).2
  (emit found .ending s.position).reverse

/-- The tokens of a text. -/
def tokens (cs : List Char) : List Placed := (cs.foldl Scan.step .start).finish

end HostDecl.Json
