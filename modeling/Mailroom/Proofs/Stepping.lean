import Mailroom.Machine.Emulator
import Mathlib.Logic.Function.Iterate

/-!
# Stepping

An emulator that goes on stepping whatever happens: a step that fails or stops does not
keep the next one from being made.

Main definitions:

- `StepOutcome.result` and `StepOutcome.printed` are what a step answers and prints.
- `Emulator.after` is the emulator after some number of steps.

Main results:

- Theorems `Emulator.step_result`, `Emulator.step_machine` and `Emulator.step_outputs`: an
  emulator answers, does and prints what its machine does.
-/

namespace Mailroom

/-! ## Outcomes -/

namespace StepOutcome

/-- What a step answers: a fault, or whether the machine stopped. -/
def result : StepOutcome → Except Fault Bool
  | fault f => .error f
  | stopped => .ok true
  | done _ => .ok false

/-- The values that a step prints. -/
def printed : StepOutcome → List Int
  | fault _ => []
  | stopped => []
  | done value => value.toList

/-- A step that answers with a fault fails with it. -/
theorem eq_fault_of_result {o : StepOutcome} {f : Fault} (h : o.result = .error f) :
    o = .fault f := by
  cases o with
  | fault f' => exact congrArg fault (Except.error.inj h)
  | stopped => contradiction
  | done printed => contradiction

/-- A step that neither fails nor stops was done. -/
theorem exists_done_of_result {o : StepOutcome} (h : o.result = .ok false) :
    ∃ printed, o = .done printed := by
  cases o with
  | fault f => contradiction
  | stopped => simp [result] at h
  | done printed => exact ⟨printed, rfl⟩

end StepOutcome

namespace Emulator

/-! ## One step -/

/-- An emulator answers as its machine does. -/
theorem step_result (e : Emulator) : e.step.1 = e.machine.step.1.result := by
  unfold step
  split <;> simp_all [StepOutcome.result]

/-- An emulator moves its machine on. -/
theorem step_machine (e : Emulator) : e.step.2.machine = e.machine.step.2 := by
  unfold step
  split
  next => simp_all
  next => simp_all
  next printed m hstep => cases printed <;> simp_all [deliver]

/-- An emulator adds what its machine prints to its outputs. -/
theorem step_outputs (e : Emulator) :
    e.step.2.outputs.toList = e.outputs.toList ++ e.machine.step.1.printed := by
  unfold step
  split
  next => simp_all [StepOutcome.printed]
  next => simp_all [StepOutcome.printed]
  next printed m hstep => cases printed <;> simp_all [deliver, StepOutcome.printed]

/-! ## Many steps -/

/-- The emulator after `k` steps, of which any may fail. -/
def after (e : Emulator) (k : Nat) : Emulator :=
  (fun e => e.step.2)^[k] e

@[simp] theorem after_zero (e : Emulator) : e.after 0 = e :=
  rfl

/-- The first of several steps comes before the others. -/
theorem after_succ (e : Emulator) (k : Nat) : e.after (k + 1) = e.step.2.after k :=
  rfl

end Emulator

end Mailroom
