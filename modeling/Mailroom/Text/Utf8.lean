import Mailroom.Text.Numeral

/-!
# Text files

A text file holds UTF-8.  Reading it also unifies the line ends: a carriage return, alone
or before a line feed, becomes a line feed.

Main definitions:

- `Utf8.decode` reads the bytes of a text, or says where they go wrong.
- `Utf8.encode` writes a text.
- `unifyLineEnds` leaves line feeds as the only line ends, and `readTextFile` reads a file.
-/

namespace Mailroom.Text

namespace Utf8

/-! ## Faulty byte sequences -/

/-- What is wrong with a byte sequence. -/
inductive Reason
  | invalidStart
  | invalidContinuation
  | unexpectedEnd
  deriving DecidableEq, Repr

/-- The wording of a reason. -/
def Reason.text : Reason → String
  | .invalidStart => "invalid start byte"
  | .invalidContinuation => "invalid continuation byte"
  | .unexpectedEnd => "unexpected end of data"

/-- Bytes that begin at `start`, with the byte `lead`, and that cannot be part of a text;
`stop` is the position after the last of them. -/
structure Fault where
  start : Nat
  stop : Nat
  lead : UInt8
  reason : Reason
  deriving DecidableEq, Repr

/-- A byte as two hexadecimal digits. -/
def hexByte (b : UInt8) : String :=
  String.ofList [Nat.digitChar (b.toNat / 16), Nat.digitChar (b.toNat % 16)]

/-- The wording of a fault. -/
def Fault.message (f : Fault) : String :=
  let place :=
    if f.stop = f.start + 1 then
      "byte 0x" ++ hexByte f.lead ++ " in position " ++ decimal f.start
    else "bytes in position " ++ decimal f.start ++ "-" ++ decimal (f.stop - 1 : Nat)
  "'utf-8' codec can't decode " ++ place ++ ": " ++ f.reason.text

/-- The ranges for the bytes that follow a first byte.  No text has a first byte without
such ranges. -/
def continuationRanges? (lead : UInt8) : Option (List (UInt8 × UInt8)) :=
  if lead < 0x80 then some []
  else if lead < 0xC2 then none
  else if lead < 0xE0 then some [(0x80, 0xBF)]
  else if lead < 0xF0 then
    let second := if lead = 0xE0 then (0xA0, 0xBF) else if lead = 0xED then (0x80, 0x9F)
      else (0x80, 0xBF)
    some [second, (0x80, 0xBF)]
  else if lead < 0xF5 then
    let second := if lead = 0xF0 then (0x90, 0xBF) else if lead = 0xF4 then (0x80, 0x8F)
      else (0x80, 0xBF)
    some [second, (0x80, 0xBF), (0x80, 0xBF)]
  else none

/-- The first fault from position `pos` on.  The character that began at `start` with the
byte `lead` still needs one byte in each of the ranges `expected`.  The end of the bytes
is a fault as well. -/
def faultFrom (start : Nat) (lead : UInt8) (expected : List (UInt8 × UInt8)) (pos : Nat) :
    List UInt8 → Fault
  | [] => ⟨start, pos, lead, .unexpectedEnd⟩
  | b :: rest =>
    match expected with
    | [] =>
      match continuationRanges? b with
      | none => ⟨pos, pos + 1, b, .invalidStart⟩
      | some ranges => faultFrom pos b ranges (pos + 1) rest
    | (low, high) :: later =>
      if low ≤ b ∧ b ≤ high then faultFrom start lead later (pos + 1) rest
      else ⟨start, pos, lead, .invalidContinuation⟩

/-- The first fault of bytes that hold no text. -/
def firstFault (bytes : List UInt8) : Fault :=
  faultFrom 0 0 [] 0 bytes

/-! ## Reading and writing -/

/-- The text that some bytes hold. -/
def decode (bytes : List UInt8) : Except Fault String :=
  match String.fromUTF8? ⟨bytes.toArray⟩ with
  | some text => .ok text
  | none => .error (firstFault bytes)

/-- The bytes that hold a text. -/
def encode (text : String) : List UInt8 :=
  text.toUTF8.data.toList

/-- A text is read back from its bytes. -/
@[simp] theorem decode_encode (text : String) : decode (encode text) = .ok text := by
  have h : String.fromUTF8? text.toUTF8 = some text := by
    unfold String.fromUTF8?
    rw [String.toUTF8_eq_toByteArray, dif_pos text.isValidUTF8]
    rfl
  simp only [decode, encode, Array.toArray_toList, h]

end Utf8

/-! ## Line ends -/

/-- Replace every carriage return, together with a line feed after it, by a line feed. -/
def unifyLineEnds : List Char → List Char
  | '\r' :: '\n' :: rest => '\n' :: unifyLineEnds rest
  | '\r' :: rest => '\n' :: unifyLineEnds rest
  | c :: rest => c :: unifyLineEnds rest
  | [] => []

/-- The text in a text file.  The encoding is taken to be UTF-8, whatever the surroundings
say. -/
def readTextFile (bytes : List UInt8) : Except Utf8.Fault String :=
  (Utf8.decode bytes).map fun text => String.ofList (unifyLineEnds text.toList)

end Mailroom.Text
