import Mailroom.Machine.Memory
import Mailroom.Notice

/-!
# The machine

The decimal machine: mailboxes, an accumulator, an instruction counter, two flags and a
queue of input values.  A step fetches the word under the counter, moves the counter on,
and carries out the order that the word stands for.

Main definitions:

- `Machine` is a state, and `Machine.new` the state in which a machine is delivered.
- `Machine.accept` writes the accumulator.
- `Machine.execute` carries out one order, and `Machine.step` one step.  A step returns
  the state it leaves together with its outcome, so a fault loses nothing.
-/

namespace Mailroom

open Text

/-- The state of the machine. -/
structure Machine where
  memory : Memory
  acc : Int
  counter : Int
  zero : Bool
  positive : Bool
  halted : Bool
  pending : List Int
  deriving DecidableEq

/-- How a step ends: by a fault, by the order to stop, or otherwise; a print order hands
over the accumulator. -/
inductive StepOutcome
  | fault (fault : Fault)
  | stopped
  | done (printed : Option Int)
  deriving DecidableEq, Repr

namespace Machine

/-- A machine with empty mailboxes, at mailbox 0.  The flags fit the accumulator, as 0
counts as positive. -/
def new : Machine where
  memory := .empty
  acc := 0
  counter := 0
  zero := true
  positive := true
  halted := false
  pending := []

/-- Queue input values, and one 0 after them. -/
def feed (m : Machine) (values : List Int) : Machine :=
  { m with pending := m.pending ++ values ++ [0] }

/-! ## Orders -/

/-- The least number that the accumulator can represent. -/
def minAcc : Int :=
  -500

/-- The greatest number that the accumulator can represent. -/
def maxAcc : Int :=
  499

/-- Write the accumulator.  A number that it cannot represent stays in it, and then the
flags keep their values. -/
def accept (m : Machine) (value : Int) : StepOutcome × Machine :=
  if value < minAcc ∨ maxAcc < value then
    (.fault (.numberOutOfRange value), { m with acc := value })
  else
    (.done none,
      { m with acc := value, zero := decide (value = 0), positive := decide (0 ≤ value) })

/-- A number within the bounds is accepted, and the flags follow it. -/
theorem accept_of_bounds (m : Machine) {value : Int} (least : minAcc ≤ value)
    (greatest : value ≤ maxAcc) :
    m.accept value = (.done none,
      { m with acc := value, zero := decide (value = 0), positive := decide (0 ≤ value) }) := by
  have h : ¬ (value < minAcc ∨ maxAcc < value) := by omega
  simp only [accept, h, if_false]

/-- A number beyond the bounds is a fault; it stays in the accumulator. -/
theorem accept_of_beyond (m : Machine) {value : Int} (h : value < minAcc ∨ maxAcc < value) :
    m.accept value = (.fault (.numberOutOfRange value), { m with acc := value }) := by
  simp only [accept, h, if_true]

/-- Write a number to a mailbox. -/
def deposit (m : Machine) (a : Address) (value : Int) : StepOutcome × Machine :=
  match m.memory.put a value with
  | .ok memory => (.done none, { m with memory := memory })
  | .error fault => (.fault fault, m)

/-- Go on at a mailbox if a condition holds. -/
def jump (m : Machine) (condition : Bool) (target : Address) : StepOutcome × Machine :=
  (.done none, if condition then { m with counter := target.val } else m)

/-- Carry out an operation on a mailbox. -/
def access (m : Machine) (a : Address) : MailboxOp → StepOutcome × Machine
  | .add => m.accept (m.acc + (m.memory.get a).val)
  | .sub => m.accept (m.acc - (m.memory.get a).val)
  | .store => m.deposit a m.acc
  | .storeAddress => m.deposit a (lowDigits m.acc)
  | .load => m.accept (m.memory.get a).val

/-- Carry out a plain operation.  Reading takes the oldest input value out of the queue,
even if the accumulator cannot represent it, and does nothing on an empty queue. -/
def plain (m : Machine) : PlainOp → StepOutcome × Machine
  | .stop => (.stopped, { m with halted := true })
  | .read =>
    match m.pending with
    | [] => (.done none, m)
    | value :: rest => { m with pending := rest }.accept value
  | .print => (.done (some m.acc), m)

/-- Carry out one order. -/
def execute (m : Machine) : Order → StepOutcome × Machine
  | .plain op => m.plain op
  | .access op a => m.access a op
  | .branch .always target => m.jump true target
  | .branch .ifZero target => m.jump m.zero target
  | .branch .ifPositive target => m.jump m.positive target

/-! ## Steps -/

/-- Fetch the word under the counter, move the counter on, and carry out the order. -/
def step (m : Machine) : StepOutcome × Machine :=
  match Address.ofInt? m.counter with
  | none => (.fault (.counterOutOfBounds m.counter), m)
  | some a =>
    let word := (m.memory.get a).val
    let m := { m with counter := m.counter + 1 }
    match Order.ofWord? word with
    | none => (.fault (.invalidInstruction word (some a.val)), m)
    | some order => m.execute order

/-- What the next step is about to carry out, if the counter is on an order. -/
def nextNotice? (m : Machine) : Option Notice := do
  let a ← Address.ofInt? m.counter
  let word := (m.memory.get a).val
  let order ← Order.ofWord? word
  return .executing a.val word order.opcode m.acc

/-! ## Inspection -/

/-- The wording of a flag. -/
def flagText (flag : Bool) : String :=
  if flag then "True" else "False"

/-- The registers in one line. -/
def display (m : Machine) : String :=
  "LittleManCPU(ic=" ++ twoDigits m.counter ++ ", acc=" ++ decimal m.acc ++
    ", zero=" ++ flagText m.zero ++ ", positive=" ++ flagText m.positive ++ ")"

end Machine

end Mailroom
