import Mailroom.Diagnostic
import Mailroom.Order

/-!
# Refusals

Why a program is refused.  Nearly always there is something to report about the source.
Two causes are told without a place in the source: a numeral that is too long to be read,
and a negative mailbox number.

Main definitions:

- `Refusal` lists the causes, and `Refusal.text` words them.
-/

namespace Mailroom

open Text

/-- Why a program is refused. -/
inductive Refusal
  /-- There is something to report about the source. -/
  | report (diagnostic : Diagnostic)
  /-- An operand has more digits than are read. -/
  | longNumeral (cause : NumeralTooLong)
  /-- An operand is a negative mailbox number, which no source text can hold. -/
  | badAddress (cause : AddressOutOfRange)
  deriving DecidableEq, Repr

/-- The wording of a refusal. -/
def Refusal.text : Refusal → String
  | report d => d.text
  | longNumeral cause => cause.message
  | badAddress cause => cause.message

end Mailroom
