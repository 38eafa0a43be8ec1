/-!
# Decoding UTF-8

A byte sequence is decoded as a whole. If it is no UTF-8, the answer names the first offending
bytes: the fault comes from a machine that reads the bytes in order and knows, after each of them,
which bytes may follow.

A long file can also be decoded in blocks of fixed size. The text is the same; only the positions in
a fault differ, because they count from the first byte that is still undecoded when the block is
read.
-/

namespace HostDecl.Text.Utf8

/-- Why bytes are no UTF-8. -/
inductive Reason where
  /-- The byte starts no character. -/
  | invalidStart
  /-- The next byte cannot follow. -/
  | invalidContinuation
  /-- The bytes stop inside a character. -/
  | unexpectedEnd
  deriving DecidableEq, Repr

/-- The wording of a reason. -/
def Reason.text : Reason → String
  | .invalidStart => "invalid start byte"
  | .invalidContinuation => "invalid continuation byte"
  | .unexpectedEnd => "unexpected end of data"

/-- The first bytes that are no UTF-8: `count` of them (at least one) from `start` on, the first
being `byte`. -/
structure Fault where
  /-- The first offending byte. -/
  byte : UInt8
  /-- Its position. -/
  start : Nat
  /-- How many bytes offend. -/
  count : Nat
  /-- What is wrong with them. -/
  reason : Reason
  deriving DecidableEq, Repr

/-- Two lower-case hexadecimal digits. -/
def hexByte (b : UInt8) : String :=
  String.ofList [Nat.digitChar (b.toNat / 16), Nat.digitChar (b.toNat % 16)]

/-- The wording of a fault: one byte is shown, several are only located. -/
def Fault.message (f : Fault) : String :=
  let place :=
    if f.count ≤ 1 then "byte 0x" ++ hexByte f.byte ++ " in position " ++ toString f.start
    else "bytes in position " ++ toString f.start ++ "-" ++ toString (f.start + f.count - 1)
  "'utf-8' codec can't decode " ++ place ++ ": " ++ f.reason.text

/-- What a first byte calls for: the number of bytes owed, and the least and the greatest byte that
may come next. Nothing for a byte that starts no character. -/
def owedAfter (b : UInt8) : Option (Nat × UInt8 × UInt8) :=
  if b < 0x80 then some (0, 0x80, 0xbf)
  else if b < 0xc2 then none
  else if b < 0xe0 then some (1, 0x80, 0xbf)
  else if b = 0xe0 then some (2, 0xa0, 0xbf)
  else if b = 0xed then some (2, 0x80, 0x9f)
  else if b < 0xf0 then some (2, 0x80, 0xbf)
  else if b = 0xf0 then some (3, 0x90, 0xbf)
  else if b < 0xf4 then some (3, 0x80, 0xbf)
  else if b = 0xf4 then some (3, 0x80, 0x8f)
  else none

/-- Where the machine stands: the character being read, the bytes of it still owed, and the range of
the next one. With nothing owed the machine is between characters. -/
structure Progress where
  /-- The position of the next byte. -/
  position : Nat
  /-- The first byte of the open character. -/
  first : UInt8
  /-- The bytes read of the open character, in reverse. -/
  taken : List UInt8
  /-- The bytes owed. -/
  owed : Nat
  /-- The least byte that may come next. -/
  low : UInt8
  /-- The greatest byte that may come next. -/
  high : UInt8

/-- Between characters, at a position. -/
def Progress.ready (position : Nat) : Progress := ⟨position, 0, [], 0, 0x80, 0xbf⟩

/-- Reads one byte. -/
def Progress.step (p : Progress) (b : UInt8) : Except Fault Progress :=
  if p.owed = 0 then
    match owedAfter b with
    | none => .error ⟨b, p.position, 1, .invalidStart⟩
    | some (0, _, _) => .ok (.ready (p.position + 1))
    | some (owed, low, high) => .ok ⟨p.position + 1, b, [b], owed, low, high⟩
  else if p.low ≤ b && b ≤ p.high then
    if p.owed = 1 then .ok (.ready (p.position + 1))
    else .ok ⟨p.position + 1, p.first, b :: p.taken, p.owed - 1, 0x80, 0xbf⟩
  else
    .error ⟨p.first, p.position - p.taken.length, p.taken.length, .invalidContinuation⟩

/-- Reads bytes until one is refused. -/
def Progress.run (p : Progress) : List UInt8 → Except Fault Progress
  | [] => .ok p
  | b :: rest =>
    match p.step b with
    | .error fault => .error fault
    | .ok next => next.run rest

/-- The fault of bytes that stop here, if a character is open. -/
def Progress.finish (p : Progress) : Option Fault :=
  if p.owed = 0 then none
  else some ⟨p.first, p.position - p.taken.length, p.taken.length, .unexpectedEnd⟩

/-- The first fault of a byte sequence. -/
def firstFault (bytes : List UInt8) : Option Fault :=
  match (Progress.ready 0).run bytes with
  | .error fault => some fault
  | .ok last => last.finish

/-- The progress as the next block sees it: positions count from the open character. -/
def Progress.rebase (p : Progress) : Progress := { p with position := p.taken.length }

/-- Whether a byte makes half of a surrogate pair of the open character. -/
def Progress.isHalf (p : Progress) (b : UInt8) : Bool :=
  p.first == 0xed && p.owed == 2 && 0xa0 ≤ b && b ≤ 0xbf

/-- The fault of a refused byte. A byte that makes half of a surrogate pair is only refused when the
byte behind it is there, so at the end of a block the open character waits for the next one. -/
def Progress.refusal (p : Progress) (b : UInt8) (isLast : Bool) (fault : Fault) : Fault :=
  if isLast && p.isHalf b then { fault with start := 0 } else fault

/-- The first fault of bytes that are decoded in blocks of `size`, with `left` bytes of the block
still to read. -/
def Progress.runBlocks (size : Nat) (p : Progress) (left : Nat) : List UInt8 → Except Fault Progress
  | [] => .ok p
  | b :: rest =>
    let (p, left) := if left = 0 then (p.rebase, size) else (p, left)
    match p.step b with
    | .error fault => .error (p.refusal b (left == 1 || rest.isEmpty) fault)
    | .ok next => next.runBlocks size (left - 1) rest

/-- The first fault of a byte sequence decoded in blocks. -/
def firstBlockFault (size : Nat) (bytes : List UInt8) : Option Fault :=
  match (Progress.ready 0).runBlocks size size bytes with
  | .error fault => some fault
  | .ok last => last.rebase.finish

/-- The text of the bytes, or what `locate` says about them. -/
def decodeWith (locate : List UInt8 → Option Fault) (bytes : ByteArray) : Except Fault String :=
  match String.fromUTF8? bytes with
  | some text => .ok text
  | none => .error ((locate bytes.toList).getD ⟨0, 0, 1, .invalidStart⟩)

/-- Decodes bytes as a whole. -/
def decode (bytes : ByteArray) : Except Fault String := decodeWith firstFault bytes

/-- Decodes bytes in blocks of `size`. -/
def decodeBlocks (size : Nat) (bytes : ByteArray) : Except Fault String :=
  decodeWith (firstBlockFault size) bytes

/-- The bytes of a text decode to it. -/
theorem decodeWith_toUTF8 (locate : List UInt8 → Option Fault) (text : String) :
    decodeWith locate text.toUTF8 = .ok text := by
  have whole : String.fromUTF8? text.toUTF8 = some text := by
    unfold String.fromUTF8?
    rw [String.toUTF8_eq_toByteArray, dif_pos text.isValidUTF8]
    rfl
  rw [decodeWith, whole]

/-- Bytes decode to the text whose bytes they are. -/
theorem decodeWith_eq_ok {locate : List UInt8 → Option Fault} {bytes : ByteArray} {text : String} :
    decodeWith locate bytes = .ok text ↔ text.toUTF8 = bytes := by
  constructor
  · intro decoded
    unfold decodeWith String.fromUTF8? at decoded
    split at decoded
    next read =>
      cases decoded
      split at read
      next => cases read; rfl
      next => cases read
    next => cases decoded
  · rintro rfl
    exact decodeWith_toUTF8 locate text

end HostDecl.Text.Utf8
