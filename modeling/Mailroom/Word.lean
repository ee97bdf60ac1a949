/-!
# Words

A mailbox holds one word, a signed number of sixteen bits.  In a load image a word is
a pair of bytes, the low byte first.

Main definitions:

- `Word` is an integer together with its bounds, and `Word.ofInt?` checks them.
- `Word.low`, `Word.high` and `Word.ofBytes` are the two-byte form.
- `lowDigits` keeps the last two decimal digits and the sign.
-/

namespace Mailroom

/-- A signed number of sixteen bits. -/
structure Word where
  val : Int
  least : -32768 ≤ val
  greatest : val ≤ 32767
  deriving DecidableEq

namespace Word

/-- Words are equal when their numbers are. -/
@[ext] theorem ext {v w : Word} (h : v.val = w.val) : v = w := by
  cases v
  cases w
  cases h
  rfl

/-- The word 0. -/
def zero : Word := ⟨0, by decide, by decide⟩

instance : Inhabited Word := ⟨zero⟩

/-- The word with the given value, if sixteen bits hold it. -/
def ofInt? (value : Int) : Option Word :=
  if h : -32768 ≤ value ∧ value ≤ 32767 then some ⟨value, h.1, h.2⟩ else none

/-- A word is read back from its own value. -/
@[simp] theorem ofInt?_val (w : Word) : ofInt? w.val = some w := by
  simp [ofInt?, w.least, w.greatest]

/-- The word that holds a value has this value. -/
theorem ofInt?_eq_some_iff {value : Int} {w : Word} : ofInt? value = some w ↔ w.val = value := by
  constructor
  · intro hword
    unfold ofInt? at hword
    split at hword
    next => cases hword; rfl
    next => contradiction
  · rintro rfl
    exact ofInt?_val w

/-- Exactly the values beyond sixteen bits are refused. -/
theorem ofInt?_eq_none_iff (value : Int) :
    ofInt? value = none ↔ value < -32768 ∨ 32767 < value := by
  unfold ofInt?
  split <;> simp <;> omega

/-! ## The two bytes of a word -/

/-- The low byte. -/
def low (w : Word) : UInt8 :=
  UInt8.ofNat (w.val.emod 256).toNat

/-- The high byte, which carries the sign. -/
def high (w : Word) : UInt8 :=
  UInt8.ofNat ((w.val.ediv 256).emod 256).toNat

/-- The word with the given low and high byte: a high byte from 128 on is negative. -/
def ofBytes (low high : UInt8) : Word :=
  let unsigned : Int := low.toNat + 256 * high.toNat
  if h : high.toNat < 128 then
    ⟨unsigned, by omega, by have := low.toNat_lt; omega⟩
  else
    ⟨unsigned - 65536, by omega, by
      have := low.toNat_lt
      have := high.toNat_lt
      omega⟩

end Word

/-! ## Decimal digits -/

/-- The last two decimal digits of a number, with the number's sign. -/
def lowDigits (value : Int) : Int :=
  value.tmod 100

end Mailroom
