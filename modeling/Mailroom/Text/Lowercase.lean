import Mailroom.Text.CaseTable

/-!
# Lower-casing

Full Unicode lower-casing of a text.  Every letter is replaced on its own, with two
exceptions: a capital I with a dot becomes two characters, and a capital sigma is written
in its final form at the end of a word.

Main definitions:

- `lowerChar` is the lower-case form of one character without regard to its neighbours.
- `sigmaEndsWord` says where a capital sigma takes its final form.
- `lower` lower-cases a text.
-/

namespace Mailroom.Text

/-- The lower-case form of a character that stands alone. -/
def lowerChar (c : Char) : List Char :=
  if c = '\u0130' then ['i', '\u0307']
  else
    match lowercaseSpans.findSome? (·.lower? c.toNat) with
    | some code => [Char.ofNat code]
    | none => [c]

/-- A letter is reached before anything else that separates words. -/
def letterAhead (cs : List Char) : Bool :=
  match cs.dropWhile (fun c => inRanges caseIgnorableRanges c.toNat) with
  | [] => false
  | c :: _ => inRanges casedRanges c.toNat

/-- A sigma ends a word when a letter comes before it and none comes after it.  The text
before the sigma is given from its end backwards. -/
def sigmaEndsWord (before after : List Char) : Bool :=
  letterAhead before && !letterAhead after

/-- Lower-case the rest of a text whose beginning is given backwards. -/
def lowerFrom (before : List Char) : List Char → List Char
  | [] => []
  | c :: after =>
    let lowered :=
      if c = '\u03A3' then
        if sigmaEndsWord before after then ['\u03C2'] else ['\u03C3']
      else lowerChar c
    lowered ++ lowerFrom (c :: before) after

/-- The lower-case form of a text. -/
def lower (cs : List Char) : List Char :=
  lowerFrom [] cs

example : lower "STOP".toList = "stop".toList := by decide +kernel

example : lower "ΟΔΟΣ ΣΑΣ.".toList = "οδος σας.".toList := by decide +kernel

end Mailroom.Text
