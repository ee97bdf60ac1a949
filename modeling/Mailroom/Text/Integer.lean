import Mailroom.Text.Blank
import Mailroom.Text.Numeral

/-!
# Integers on the command line

The integers that options accept: blanks around the number, a sign, and decimal digits of
any script, with single underscores between them.

Main definitions:

- `digitValue?` is the value of a decimal digit of any script.
- `integer?` reads an integer.
-/

namespace Mailroom.Text

/-- The code points of the digit 0 in every script; the nine other digits follow each. -/
def digitZeros : List Nat := [
    0x30, 0x660, 0x6F0, 0x7C0, 0x966, 0x9E6, 0xA66, 0xAE6, 0xB66, 0xBE6, 0xC66, 0xCE6, 0xD66,
    0xDE6, 0xE50, 0xED0, 0xF20, 0x1040, 0x1090, 0x17E0, 0x1810, 0x1946, 0x19D0, 0x1A80, 0x1A90,
    0x1B50, 0x1BB0, 0x1C40, 0x1C50, 0xA620, 0xA8D0, 0xA900, 0xA9D0, 0xA9F0, 0xAA50, 0xABF0,
    0xFF10, 0x104A0, 0x10D30, 0x11066, 0x110F0, 0x11136, 0x111D0, 0x112F0, 0x11450, 0x114D0,
    0x11650, 0x116C0, 0x11730, 0x118E0, 0x11950, 0x11C50, 0x11D50, 0x11DA0, 0x16A60, 0x16AC0,
    0x16B50, 0x1D7CE, 0x1D7D8, 0x1D7E2, 0x1D7EC, 0x1D7F6, 0x1E140, 0x1E2F0, 0x1E950, 0x1FBF0]

/-- The value of a decimal digit. -/
def digitValue? (c : Char) : Option Nat :=
  (digitZeros.find? fun first =>
    decide (first ≤ c.toNat) && decide (c.toNat ≤ first + 9)).map
    (c.toNat - ·)

/-- A blank that may stand around a number: any blank but the information separators. -/
def isNumberBlank (c : Char) : Bool :=
  isBlank c && !(decide (0x1C ≤ c.toNat) && decide (c.toNat ≤ 0x1F))

/-- Read digits to the end of a text, in which `value` has been read before.  An underscore
must have a digit on both of its sides. -/
def digitsFrom? (value : Nat) : List Char → Option Nat
  | [] => some value
  | '_' :: c :: rest =>
    match digitValue? c with
    | some d => digitsFrom? (10 * value + d) rest
    | none => none
  | c :: rest =>
    match digitValue? c with
    | some d => digitsFrom? (10 * value + d) rest
    | none => none

/-- Read a number without a sign.  It must begin with a digit, and it may have at most
`digitLimit` of them. -/
def magnitude? : List Char → Option Nat
  | [] => none
  | c :: rest =>
    match digitValue? c with
    | some d =>
      if digitLimit < (c :: rest).countP (fun c => (digitValue? c).isSome) then none
      else digitsFrom? d rest
    | none => none

/-- Read an integer. -/
def integer? (cs : List Char) : Option Int :=
  match dropTrailing isNumberBlank (cs.dropWhile isNumberBlank) with
  | '-' :: ds => (magnitude? ds).map fun n => -(n : Int)
  | '+' :: ds => (magnitude? ds).map fun n => (n : Int)
  | ds => (magnitude? ds).map fun n => (n : Int)

end Mailroom.Text
