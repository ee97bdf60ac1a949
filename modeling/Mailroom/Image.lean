import Mailroom.Text.Numeral
import Mailroom.Word

/-!
# Load images

A load image is a sequence of words, each written as two bytes with the low byte first.

Main definitions:

- `Image.encode` writes words, and refuses the first number that is no word.
- `Image.decode` reads words; a last byte without a partner is dropped.
-/

namespace Mailroom.Image

/-- A number in a sequence that sixteen bits cannot hold. -/
structure NotAWord where
  index : Nat
  value : Int
  deriving DecidableEq, Repr

/-- The wording of a refused number. -/
def NotAWord.message (e : NotAWord) : String :=
  "word " ++ Text.decimal e.value ++ " at index " ++ Text.decimal e.index ++
    " does not fit in 16 bits"

/-- The two bytes of one word. -/
def bytesOfWord (w : Word) : List UInt8 :=
  [w.low, w.high]

/-- The bytes of a sequence whose first number has the given index. -/
def encodeFrom (index : Nat) : List Int → Except NotAWord (List UInt8)
  | [] => .ok []
  | value :: rest =>
    match Word.ofInt? value with
    | none => .error ⟨index, value⟩
    | some w => (encodeFrom (index + 1) rest).map (bytesOfWord w ++ ·)

/-- The bytes of a sequence of numbers. -/
def encode (values : List Int) : Except NotAWord (List UInt8) :=
  encodeFrom 0 values

/-- The words of a sequence of bytes. -/
def decode : List UInt8 → List Word
  | low :: high :: rest => Word.ofBytes low high :: decode rest
  | [_] => []
  | [] => []

/-- The last byte of an image has no partner. -/
def isOdd (bytes : List UInt8) : Bool :=
  bytes.length % 2 == 1

end Mailroom.Image
