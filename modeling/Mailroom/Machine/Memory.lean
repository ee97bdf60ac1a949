import Mailroom.Fault
import Mailroom.Order
import Mailroom.Slice
import Mailroom.Word

/-!
# Memory

One hundred mailboxes, each of which holds one word.  Instructions and data are the same
to the memory.

Main definitions:

- `Memory.get` and `Memory.set` act on a mailbox that is known to exist.
- `Memory.read` and `Memory.write` check the mailbox and the value first.
- `Memory.load` copies a whole program, or nothing; the last mailbox cannot be loaded.
-/

namespace Mailroom

open Text

/-- The mailboxes of one machine. -/
structure Memory where
  mailboxes : Vector Word 100
  deriving DecidableEq

namespace Memory

/-- The memory with 0 in every mailbox. -/
def empty : Memory :=
  ⟨Vector.replicate 100 Word.zero⟩

/-- The word in a mailbox. -/
def get (m : Memory) (a : Address) : Word :=
  m.mailboxes[a]

/-- Put a word into a mailbox. -/
def set (m : Memory) (a : Address) (w : Word) : Memory :=
  ⟨m.mailboxes.set a w⟩

/-- The mailbox that was set holds the word. -/
@[simp] theorem get_set_self (m : Memory) (a : Address) (w : Word) : (m.set a w).get a = w := by
  simp [get, set]

/-- The other mailboxes hold what they held. -/
theorem get_set_of_ne (m : Memory) {a b : Address} (w : Word) (h : a ≠ b) :
    (m.set a w).get b = m.get b := by
  simp only [get, set, Fin.getElem_fin]
  exact Vector.getElem_set_ne a.isLt b.isLt (fun hab => h (Fin.ext hab))

/-- Put a number into a mailbox, if a word can hold it. -/
def put (m : Memory) (a : Address) (value : Int) : Except Fault Memory :=
  match Word.ofInt? value with
  | some w => .ok (m.set a w)
  | none => .error (.wordTooWide a.val value)

/-! ## Checked access -/

/-- The word in the mailbox with the given number. -/
def read (m : Memory) (address : Int) : Except Fault Word :=
  match Address.ofInt? address with
  | some a => .ok (m.get a)
  | none => .error (.noSuchMailbox address)

/-- Put a number into the mailbox with the given number.  The mailbox is checked before
the value. -/
def write (m : Memory) (address value : Int) : Except Fault Memory :=
  match Address.ofInt? address with
  | some a => m.put a value
  | none => .error (.noSuchMailbox address)

/-! ## Loading -/

/-- The words of a program whose first word goes to the given mailbox, or the first
number that is no word. -/
def wordsOf (address : Int) : List Int → Except Fault (List Word)
  | [] => .ok []
  | value :: rest =>
    match Word.ofInt? value with
    | none => .error (.wordTooWide address value)
    | some w => (wordsOf (address + 1) rest).map (w :: ·)

/-- Replace the mailboxes from number `offset` on by the given words. -/
def overlay (m : Memory) (offset : Nat) (words : List Word) : Memory :=
  ⟨Vector.ofFn fun a =>
    if a.val < offset then m.get a else (words[a.val - offset]?).getD (m.get a)⟩

/-- Copy a program into the mailboxes from number `offset` on.  Every number must be a
word, and the program must end before the last mailbox. -/
def load (m : Memory) (program : List Int) (offset : Int) : Except Fault Memory :=
  if offset < 0 ∨ 99 < offset + program.length then
    .error (.doesNotFit program.length offset)
  else (wordsOf offset program).map (m.overlay offset.toNat)

/-! ## Inspection -/

/-- The numbers in all mailboxes. -/
def values (m : Memory) : List Int :=
  m.mailboxes.toList.map (·.val)

/-- The numbers in `count` mailboxes from number `start` on. -/
def dump (m : Memory) (start count : Int) : List Int :=
  slice m.values start (start + count)

/-- The number of mailboxes that do not hold 0. -/
def used (m : Memory) : Nat :=
  m.values.countP (· ≠ 0)

/-- The memory in one line. -/
def display (m : Memory) : String :=
  "Memory(mailboxes=100, nonzero=" ++ decimal m.used ++ ")"

end Memory

end Mailroom
