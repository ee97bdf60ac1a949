/-!
# Numerals

Numbers as text: the layouts in which the tools print them, and the numerals that the
assembler reads.

Main definitions:

- `decimal` writes an integer of any size, and `padLeft`, `padRight` and `twoDigits` lay
  text out in columns.
- `readUnsigned` reads an optional plus sign and one or more ASCII digits; a numeral of
  more than `digitLimit` digits is refused.
-/

namespace Mailroom.Text

/-! ## Writing -/

/-- The decimal digits of an integer, after a minus sign if it is negative.  This is an
idealisation: numbers of every size are written, and `digitLimit` is kept to in reading only.
A number of more digits can come from no source text, image or option, but from the host of
the tools alone. -/
def decimal : Int → String
  | .ofNat n => Nat.repr n
  | .negSucc n => "-" ++ Nat.repr (n + 1)

/-- Put spaces before a text up to a width. -/
def padLeft (width : Nat) (text : String) : String :=
  String.ofList (List.replicate (width - text.toList.length) ' ') ++ text

/-- Put spaces after a text up to a width. -/
def padRight (width : Nat) (text : String) : String :=
  text ++ String.ofList (List.replicate (width - text.toList.length) ' ')

/-- An integer in at least two characters: a single digit gets a zero before it. -/
def twoDigits (n : Int) : String :=
  if 0 ≤ n ∧ n < 10 then "0" ++ decimal n else decimal n

/-! ## Reading -/

/-- The greatest number of digits in a numeral that is read. -/
def digitLimit : Nat :=
  4300

/-- A numeral with more digits than are read. -/
structure NumeralTooLong where
  digits : Nat
  deriving DecidableEq, Repr

/-- The wording of a refused numeral. -/
def NumeralTooLong.message (e : NumeralTooLong) : String :=
  "Exceeds the limit (" ++ decimal digitLimit ++
    " digits) for integer string conversion: value has " ++ decimal e.digits ++
    " digits; use sys.set_int_max_str_digits() to increase the limit"

/-- Why a text is not read as a number. -/
inductive NumeralError
  /-- The text is no numeral. -/
  | malformed
  /-- The text is a numeral with too many digits. -/
  | tooLong (cause : NumeralTooLong)
  deriving DecidableEq, Repr

/-- The value of one or more ASCII digits.  Zeros at the front count as digits. -/
def readDigits (cs : List Char) : Except NumeralError Nat :=
  if cs = [] ∨ cs.all Char.isDigit = false then .error .malformed
  else if digitLimit < cs.length then .error (.tooLong ⟨cs.length⟩)
  else .ok (Nat.ofDigitChars 10 cs 0)

/-- The value of one or more ASCII digits, after an optional plus sign. -/
def readUnsigned (cs : List Char) : Except NumeralError Nat :=
  match cs with
  | '+' :: ds => readDigits ds
  | ds => readDigits ds

end Mailroom.Text
