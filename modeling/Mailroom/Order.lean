import Mailroom.Opcode
import Mailroom.Text.Numeral

/-!
# Orders

An order is what one word tells the machine to do: an operation together with the
mailbox it names.  Orders are written as `base + mailbox`, so the hundreds digit of a
word selects the operation and the last two digits are the mailbox.

Main definitions:

- `Order` pairs each family of operations with its address.
- `Order.word` writes an order as a number, and `Order.ofWord?` reads a number; the
  numbers 1 to 99, 900, 903 and above and all negative numbers are no orders.
- `Order.ofOpcode` forms an order from an operation and an unchecked address.
-/

namespace Mailroom

/-- The number of one of the hundred mailboxes. -/
abbrev Address := Fin 100

namespace Address

/-- The mailbox with the given number, if there is one. -/
def ofInt? (n : Int) : Option Address :=
  if h : 0 ≤ n ∧ n < 100 then some ⟨n.toNat, by omega⟩ else none

/-- Exactly the numbers 0 to 99 are mailboxes. -/
theorem ofInt?_eq_none_iff (n : Int) : ofInt? n = none ↔ n < 0 ∨ 99 < n := by
  unfold ofInt?
  split <;> simp <;> omega

end Address

/-- One order to the machine. -/
inductive Order
  | plain (op : PlainOp)
  | access (op : MailboxOp) (address : Address)
  | branch (op : BranchOp) (target : Address)
  deriving DecidableEq, Repr

/-- An operand that is no mailbox number. -/
structure AddressOutOfRange where
  address : Int
  deriving DecidableEq, Repr

/-- The wording of a refused address. -/
def AddressOutOfRange.message (e : AddressOutOfRange) : String :=
  "address " ++ Text.decimal e.address ++ " out of range 0-99"

namespace Order

/-- The operation of an order. -/
def opcode : Order → Opcode
  | plain op => .plain op
  | access op _ => .mailbox op
  | branch op _ => .branch op

/-- The mailbox that an order names, and 0 for plain operations. -/
def address : Order → Nat
  | plain _ => 0
  | access _ a => a
  | branch _ a => a

/-- The number that stands for an order. -/
def word (order : Order) : Int :=
  order.opcode.base + order.address

/-- The order that an operation and an address form.  Plain operations ignore the
address; the other families need a mailbox number. -/
def ofOpcode (op : Opcode) (address : Int) : Except AddressOutOfRange Order :=
  match op, Address.ofInt? address with
  | .plain op, _ => .ok (.plain op)
  | .mailbox op, some a => .ok (.access op a)
  | .branch op, some a => .ok (.branch op a)
  | _, none => .error ⟨address⟩

/-- The order with the given hundreds digit and mailbox. -/
def ofBand? (band : Nat) (a : Address) : Option Order :=
  match band with
  | 1 => some (.access .add a)
  | 2 => some (.access .sub a)
  | 3 => some (.access .store a)
  | 4 => some (.access .storeAddress a)
  | 5 => some (.access .load a)
  | 6 => some (.branch .always a)
  | 7 => some (.branch .ifZero a)
  | 8 => some (.branch .ifPositive a)
  | _ => none

/-- The order that a number stands for, if it stands for one. -/
def ofWord? (word : Int) : Option Order :=
  if word = 0 then some (.plain .stop)
  else if word = 901 then some (.plain .read)
  else if word = 902 then some (.plain .print)
  else if word < 0 then none
  else ofBand? (word.toNat / 100) ⟨word.toNat % 100, Nat.mod_lt _ (by decide)⟩

/-- An order is read back from its number. -/
@[simp] theorem ofWord?_word (order : Order) : ofWord? order.word = some order := by
  cases order with
  | plain op => cases op <;> rfl
  | access op a => revert a; cases op <;> decide
  | branch op a => revert a; cases op <;> decide

end Order

end Mailroom
