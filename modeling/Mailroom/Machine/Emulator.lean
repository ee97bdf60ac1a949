import Mailroom.Machine.Processor

/-!
# The emulator

A machine that is loaded from a configuration, counts its steps and collects what it
prints.

Main definitions:

- `Emulator.new` builds an emulator; `Emulator.step` makes one step.
- `Emulator.runSteps` makes steps until the machine stops, a fault arises, or the given
  number of steps is made.
- `Emulator.run` makes steps up to the limit that applies; without a limit it gives up
  only when its patience ends, and then it has no result.
-/

namespace Mailroom

open Text

/-- What an emulator is built from.  Without inputs nothing is queued; an empty list of
inputs queues the 0 that follows every group of values. -/
structure Configuration where
  program : List Int
  offset : Int
  entry : Int
  inputs : Option (List Int)
  maxSteps : Option Int
  deriving DecidableEq, Repr

/-- The configuration of an emulator without a program. -/
def Configuration.blank : Configuration :=
  ⟨[], 0, 0, none, none⟩

/-- A machine with a record of its work.  Each printed value goes to the outputs and is
delivered to the observer. -/
structure Emulator where
  machine : Machine
  maxSteps : Option Int
  steps : Nat
  outputs : Array Int
  delivered : Array Int
  deriving DecidableEq

namespace Emulator

/-- Load a program from mailbox `offset` on. -/
def load (e : Emulator) (program : List Int) (offset : Int) : Journal Fault Emulator :=
  match e.machine.memory.load program offset with
  | .error fault => .refuse fault
  | .ok memory =>
    ⟨[.programLoaded program.length offset],
      .ok { e with machine := { e.machine with memory := memory } }⟩

/-- Queue input values, and one 0 after them. -/
def feed (e : Emulator) (values : List Int) : Emulator :=
  { e with machine := e.machine.feed values }

/-- Set the instruction counter. -/
def setCounter (e : Emulator) (counter : Int) : Emulator :=
  { e with machine := { e.machine with counter := counter } }

/-- Put a number into a mailbox. -/
def write (e : Emulator) (address value : Int) : Except Fault Emulator :=
  (e.machine.memory.write address value).map fun memory =>
    { e with machine := { e.machine with memory := memory } }

/-- An emulator before its first step.  An empty program is not loaded, so its offset
does not matter. -/
def new (c : Configuration) : Journal Fault Emulator := do
  let e : Emulator := ⟨.new, c.maxSteps, 0, #[], #[]⟩
  let e ← if c.program = [] then pure e else e.load c.program c.offset
  let e := e.setCounter c.entry
  return match c.inputs with
    | none => e
    | some values => e.feed values

/-! ## Steps -/

/-- Hand a printed value over. -/
def deliver (e : Emulator) : Option Int → Emulator
  | none => e
  | some value =>
    { e with outputs := e.outputs.push value, delivered := e.delivered.push value }

/-- Make one step, and say whether the machine stopped.  A step with a fault does not
count. -/
def step (e : Emulator) : Except Fault Bool × Emulator :=
  match e.machine.step with
  | (.fault fault, m) => (.error fault, { e with machine := m })
  | (.stopped, m) => (.ok true, { e with machine := m, steps := e.steps + 1 })
  | (.done printed, m) =>
    (.ok false, { e with machine := m, steps := e.steps + 1 }.deliver printed)

/-! ## Runs -/

/-- Why a run ends. -/
inductive Ending
  | halted
  | limitReached
  | fault (fault : Fault)
  deriving DecidableEq, Repr

/-- The end of a run, the number of steps that it made, and the emulator it leaves. -/
structure RunResult where
  ending : Ending
  steps : Nat
  emulator : Emulator
  deriving DecidableEq

/-- Make at most `budget` steps, after `made` steps of the same run. -/
def runFrom (made : Nat) (e : Emulator) : (budget : Nat) → RunResult
  | 0 => ⟨.limitReached, made, e⟩
  | budget + 1 =>
    match e.step with
    | (.error fault, e) => ⟨.fault fault, made, e⟩
    | (.ok true, e) => ⟨.halted, made + 1, e⟩
    | (.ok false, e) => runFrom (made + 1) e budget

/-- Make at most `budget` steps. -/
def runSteps (e : Emulator) (budget : Nat) : RunResult :=
  runFrom 0 e budget

/-- Without a step to make, the limit is reached at once. -/
@[simp] theorem runFrom_zero (made : Nat) (e : Emulator) :
    runFrom made e 0 = ⟨.limitReached, made, e⟩ :=
  rfl

/-- A run goes on from a step without an end. -/
theorem runFrom_succ_of_step {e left : Emulator} (h : e.step = (.ok false, left))
    (made budget : Nat) : runFrom made e (budget + 1) = runFrom (made + 1) left budget := by
  simp only [runFrom, h]

/-- The limit for a run: the given one, or else the one of the configuration. -/
def limitFor (e : Emulator) (limit : Option Int) : Option Int :=
  limit.or e.maxSteps

/-- Run to the end or to the limit.  Negative limits count as 0.  A run without a limit
that has not ended after `patience` steps has no result. -/
def run (patience : Nat) (e : Emulator) (limit : Option Int) : Option RunResult :=
  match e.limitFor limit with
  | some n => some (e.runSteps n.toNat)
  | none =>
    let r := e.runSteps patience
    if r.ending = .limitReached then none else some r

/-- The notices of the first `count` steps of a run, added to earlier ones; the newest
notice comes first. -/
def traceFrom (earlier : List Notice) (e : Emulator) : (count : Nat) → List Notice
  | 0 => earlier
  | count + 1 =>
    let notices := e.machine.nextNotice?.toList ++ earlier
    match e.step with
    | (.ok false, e) => traceFrom notices e count
    | _ => notices

/-- The notices of a run with the given result: one for each order carried out, and one
for the end. -/
def runNotices (e : Emulator) (limit : Option Int) (r : RunResult) : List Notice :=
  let steps := (traceFrom [] e (match r.ending with
    | .fault _ => r.steps + 1
    | _ => r.steps)).reverse
  match r.ending, e.limitFor limit with
  | .halted, _ => steps ++ [.halted r.steps]
  | .limitReached, some n => steps ++ [.limitReached n]
  | _, _ => steps

/-! ## Inspection -/

/-- The emulator in one line. -/
def display (e : Emulator) : String :=
  "Emulator(ic=" ++ twoDigits e.machine.counter ++ ", acc=" ++ decimal e.machine.acc ++
    ", steps=" ++ decimal e.steps ++ ")"

end Emulator

end Mailroom
