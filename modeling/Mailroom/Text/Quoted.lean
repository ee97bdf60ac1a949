import Mailroom.Text.Printable

/-!
# Quoted names

How a name is shown between quotes, so that it stands on one line and every character of
it can be told.

Main definitions:

- `quoted` puts a name between single quotes, or between double quotes when it holds a
  single quote and no double quote.
- `escaped` is the form of one character there.  A backslash and the quote in use follow a
  backslash; tabs and line ends have a letter, and other characters without a printed form
  are shown by their code points.
-/

namespace Mailroom.Text

/-- The quote for a name. -/
def quoteFor (cs : List Char) : Char :=
  if cs.contains '\'' && !cs.contains '"' then '"' else '\''

/-- A number in lower-case hexadecimal digits, with zeros before it up to a width. -/
def hexadecimal (width n : Nat) : List Char :=
  let digits := Nat.toDigits 16 n
  List.replicate (width - digits.length) '0' ++ digits

/-- A code point in the shortest of the three forms, of two, four and eight digits. -/
def codeEscape (n : Nat) : List Char :=
  if n < 0x100 then '\\' :: 'x' :: hexadecimal 2 n
  else if n < 0x10000 then '\\' :: 'u' :: hexadecimal 4 n
  else '\\' :: 'U' :: hexadecimal 8 n

/-- The form of a character between the given quotes. -/
def escaped (quote c : Char) : List Char :=
  if c = quote ∨ c = '\\' then ['\\', c]
  else if c = '\t' then ['\\', 't']
  else if c = '\n' then ['\\', 'n']
  else if c = '\r' then ['\\', 'r']
  else if isPrintable c then [c]
  else codeEscape c.toNat

/-- A name between quotes. -/
def quoted (name : String) : String :=
  let quote := quoteFor name.toList
  String.ofList (quote :: name.toList.flatMap (escaped quote) ++ [quote])

end Mailroom.Text
