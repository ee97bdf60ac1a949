/-!
# Blanks

The characters that separate the fields of a source line, and cutting them off.

Main definitions:

- `isBlank` is the class of blanks: the control characters that move or separate, and
  the spaces of every width except the zero-width ones.
- `trim` cuts blanks off both ends; `dropTrailing` cuts any class off the end.
-/

namespace Mailroom.Text

/-- A blank is a tab or line or page control, an information separator, or a character
that Unicode calls a space. -/
def isBlank (c : Char) : Bool :=
  let n := c.toNat
  (decide (0x09 ≤ n) && decide (n ≤ 0x0D)) || (decide (0x1C ≤ n) && decide (n ≤ 0x20)) ||
    n == 0x85 || n == 0xA0 || n == 0x1680 ||
    (decide (0x2000 ≤ n) && decide (n ≤ 0x200A)) ||
    n == 0x2028 || n == 0x2029 || n == 0x202F || n == 0x205F || n == 0x3000

/-- Cut the characters of a class off the end. -/
def dropTrailing (p : Char → Bool) (cs : List Char) : List Char :=
  (cs.reverse.dropWhile p).reverse

/-- Cut blanks off both ends. -/
def trim (cs : List Char) : List Char :=
  dropTrailing isBlank (cs.dropWhile isBlank)

@[simp] theorem trim_nil : trim [] = [] :=
  rfl

end Mailroom.Text
