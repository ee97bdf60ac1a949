import Mailroom.Text.Numeral

/-!
# Faults of the machine

Why the machine cannot go on.  A fault ends the step in which it arises; what earlier
steps have done stays done.

Main definitions:

- `Fault` lists the causes, and `Fault.message` words them.
-/

namespace Mailroom

open Text

/-- Why a step, a load, or an access to a mailbox is refused. -/
inductive Fault
  /-- A program reaches past the last mailbox that can be loaded. -/
  | doesNotFit (length : Int) (offset : Int)
  /-- The instruction counter names no mailbox. -/
  | counterOutOfBounds (counter : Int)
  /-- The accumulator cannot represent a number. -/
  | numberOutOfRange (value : Int)
  /-- A fetched word is no order. -/
  | invalidInstruction (word : Int) (address : Option Int)
  /-- There is no mailbox with this number. -/
  | noSuchMailbox (address : Int)
  /-- A mailbox cannot hold a number. -/
  | wordTooWide (address : Int) (value : Int)
  deriving DecidableEq, Repr

/-- The wording of a fault.  Its numbers may have any size, as `decimal` writes them all. -/
def Fault.message : Fault → String
  | doesNotFit length offset =>
    "program of " ++ decimal length ++ " words at offset " ++ decimal offset ++
      " does not fit in memory"
  | counterOutOfBounds counter =>
    "instruction counter " ++ decimal counter ++ " is out of bounds"
  | numberOutOfRange value => "number " ++ decimal value ++ " is out of range (-500 to 499)"
  | invalidInstruction word none => "invalid instruction " ++ decimal word
  | invalidInstruction word (some address) =>
    "invalid instruction " ++ decimal word ++ " at mailbox " ++ decimal address
  | noSuchMailbox address => "mailbox " ++ decimal address ++ " does not exist (0-99)"
  | wordTooWide address value =>
    "word " ++ decimal value ++ " does not fit in mailbox " ++ decimal address ++
      " (16-bit signed)"

end Mailroom
