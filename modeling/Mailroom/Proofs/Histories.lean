import Mailroom.Machine.Processor
import Mailroom.Proofs.Transition

/-!
# Histories of a machine

A machine is stepped and served from outside: input is queued, programs are loaded,
mailboxes are written and the counter is set.  Any of these actions may fail, and the
actions after it are carried out all the same.

Main definitions:

- `Machine.act` carries out one action, and `Machine.afterAll` a history of them.
- `Machine.faults` lists the faults of a history.
- `Machine.writes` lists the numbers that the steps of a history wrote to the
  accumulator, each with the machine's answer to it.

Main results:

- Theorems `Machine.step_of_written` and `Machine.step_of_not_written`: what a step makes
  of the accumulator and the flags.
- Theorem `Machine.rejected_mem_faults`: every rejected number is a fault of the history.
-/

namespace Mailroom

/-- The fault that a step ends with, if it fails. -/
def StepOutcome.fault? : StepOutcome → Option Fault
  | fault f => some f
  | stopped => none
  | done _ => none

namespace Machine

/-! ## Actions -/

/-- What can be done with a machine. -/
inductive Action
  | step
  | feed (values : List Int)
  | load (program : List Int) (offset : Int)
  | write (address value : Int)
  | setCounter (counter : Int)
  deriving DecidableEq, Repr

/-- Exchange the mailboxes, unless the new ones are refused. -/
def refill (m : Machine) : Except Fault Memory → Option Fault × Machine
  | .ok memory => (none, { m with memory := memory })
  | .error fault => (some fault, m)

/-- Carry out an action.  The result is the fault that it raises, if it fails, and the
machine that it leaves. -/
def act (m : Machine) : Action → Option Fault × Machine
  | .step => (m.step.1.fault?, m.step.2)
  | .feed values => (none, m.feed values)
  | .load program offset => m.refill (m.memory.load program offset)
  | .write address value => m.refill (m.memory.write address value)
  | .setCounter counter => (none, { m with counter := counter })

/-- The machine after a history of actions. -/
def afterAll (m : Machine) (history : List Action) : Machine :=
  history.foldl (fun m a => (m.act a).2) m

/-- The faults that are raised in a history, in order. -/
def faults (m : Machine) : List Action → List Fault
  | [] => []
  | a :: rest => (m.act a).1.toList ++ (m.act a).2.faults rest

/-! ## Writes to the accumulator -/

/-- The order that the next step carries out. -/
def nextOrder? (m : Machine) : Option Order :=
  (Address.ofInt? m.counter).bind fun c => Order.ofWord? (m.memory.get c).val

/-- The number that an order writes to the accumulator, if it writes one.  Reading writes
the oldest input value, and nothing on an empty queue. -/
def written? (m : Machine) : Order → Option Int
  | .access .add a => some (m.acc + (m.memory.get a).val)
  | .access .sub a => some (m.acc - (m.memory.get a).val)
  | .access .load a => some (m.memory.get a).val
  | .plain .read => m.pending.head?
  | _ => none

/-- A number that was written to the accumulator, and whether it was accepted. -/
structure AccWrite where
  value : Int
  accepted : Bool
  deriving DecidableEq, Repr

/-- The number that an action writes to the accumulator.  It counts as accepted unless the
action raises the fault that rejects it. -/
def accWrite? (m : Machine) : Action → Option AccWrite
  | .step =>
    (m.nextOrder?.bind m.written?).map fun value =>
      ⟨value, decide (m.step.1 ≠ .fault (.numberOutOfRange value))⟩
  | _ => none

/-- The numbers that are written to the accumulator in a history, in order. -/
def writes (m : Machine) : List Action → List AccWrite
  | [] => []
  | a :: rest => (m.accWrite? a).toList ++ (m.act a).2.writes rest

/-! ## Steps that write, and steps that do not -/

/-- A step without an order is a fault, and changes nothing but the counter. -/
theorem step_of_nextOrder?_eq_none {m : Machine} (h : m.nextOrder? = none) :
    ∃ f counter, m.step = (.fault f, { m with counter := counter }) ∧
      ∀ value, f ≠ .numberOutOfRange value := by
  cases hc : Address.ofInt? m.counter with
  | none => exact ⟨.counterOutOfBounds m.counter, m.counter, by simp [step, hc], by simp⟩
  | some c =>
    have hword : Order.ofWord? (m.memory.get c).val = none := by
      simpa [nextOrder?, hc] using h
    exact ⟨.invalidInstruction (m.memory.get c).val (some c.val), m.counter + 1,
      by simp [step, hc, hword], by simp⟩

/-- A step carries out the next order, with the counter moved on. -/
theorem step_of_nextOrder? {m : Machine} {order : Order} (h : m.nextOrder? = some order) :
    m.step = { m with counter := m.counter + 1 }.execute order := by
  obtain ⟨c, hc, hword⟩ := Option.bind_eq_some_iff.mp h
  simp [step, hc, hword]

/-- An order that writes a number does nothing else, but that an input is taken out of the
queue. -/
theorem execute_of_written? {m : Machine} {order : Order} {value : Int}
    (h : m.written? order = some value) :
    ∃ pending, m.execute order = { m with pending := pending }.accept value := by
  cases order with
  | branch op a => simp [written?] at h
  | access op a =>
    refine ⟨m.pending, ?_⟩
    cases op <;> simp_all [written?, execute, access]
  | plain op =>
    cases op with
    | stop => simp [written?] at h
    | print => simp [written?] at h
    | read =>
      cases hpending : m.pending with
      | nil => simp [written?, hpending] at h
      | cons first rest =>
        have hvalue : first = value := by simpa [written?, hpending] using h
        exact ⟨rest, by simp [execute, plain, hpending, hvalue]⟩

/-- Writing a mailbox leaves the accumulator and the flags alone. -/
theorem deposit_keeps (m : Machine) (a : Address) (value : Int) :
    (m.deposit a value).2.acc = m.acc ∧ (m.deposit a value).2.zero = m.zero ∧
      (m.deposit a value).2.positive = m.positive ∧
      ∀ v, (m.deposit a value).1 ≠ .fault (.numberOutOfRange v) := by
  cases hword : Word.ofInt? value <;> simp [deposit, Memory.put, hword]

/-- An order that writes no number leaves the accumulator and the flags alone, and is not
rejected for a number. -/
theorem execute_of_not_written? {m : Machine} {order : Order} (h : m.written? order = none) :
    (m.execute order).2.acc = m.acc ∧ (m.execute order).2.zero = m.zero ∧
      (m.execute order).2.positive = m.positive ∧
      ∀ v, (m.execute order).1 ≠ .fault (.numberOutOfRange v) := by
  cases order with
  | branch op a => cases op <;> simp [execute, jump] <;> split <;> simp
  | access op a =>
    cases op with
    | add => simp [written?] at h
    | sub => simp [written?] at h
    | load => simp [written?] at h
    | store => exact m.deposit_keeps a _
    | storeAddress => exact m.deposit_keeps a _
  | plain op =>
    cases op with
    | stop => simp [execute, plain]
    | print => simp [execute, plain]
    | read =>
      have hpending : m.pending = [] := by simpa [written?] using h
      simp [execute, plain, hpending]

/-- A step that writes a number puts it into the accumulator; it is accepted within the
bounds and rejected beyond them, and only an accepted number changes the flags. -/
theorem step_of_written {m : Machine} {value : Int}
    (h : m.nextOrder?.bind m.written? = some value) :
    m.step.2.acc = value ∧
      (-500 ≤ value ∧ value ≤ 499 ∧ m.step.1 = .done none ∧
          m.step.2.zero = decide (value = 0) ∧ m.step.2.positive = decide (0 ≤ value) ∨
        (value < -500 ∨ 499 < value) ∧ m.step.1 = .fault (.numberOutOfRange value) ∧
          m.step.2.zero = m.zero ∧ m.step.2.positive = m.positive) := by
  obtain ⟨order, horder, hwritten⟩ := Option.bind_eq_some_iff.mp h
  -- the counter is moved on first, which changes nothing that an order reads
  have hmoved : { m with counter := m.counter + 1 }.written? order = some value := by
    rw [← hwritten]
    rfl
  obtain ⟨pending, hexecute⟩ := execute_of_written? hmoved
  rw [step_of_nextOrder? horder, hexecute]
  by_cases hvalue : value < -500 ∨ 499 < value
  · rw [accept_of_beyond _ hvalue]
    simp [hvalue]
  · have hleast : -500 ≤ value := by omega
    have hgreatest : value ≤ 499 := by omega
    rw [accept_of_bounds _ hleast hgreatest]
    simp [hleast, hgreatest]

/-- A step that writes no number leaves the accumulator and the flags alone, and is not
rejected for a number. -/
theorem step_of_not_written {m : Machine} (h : m.nextOrder?.bind m.written? = none) :
    m.step.2.acc = m.acc ∧ m.step.2.zero = m.zero ∧ m.step.2.positive = m.positive ∧
      ∀ v, m.step.1 ≠ .fault (.numberOutOfRange v) := by
  cases horder : m.nextOrder? with
  | none =>
    obtain ⟨f, counter, hstep, hf⟩ := step_of_nextOrder?_eq_none horder
    simpa [hstep] using hf
  | some order =>
    rw [horder, Option.bind_some] at h
    have hmoved : { m with counter := m.counter + 1 }.written? order = none := by
      rw [← h]
      rfl
    rw [step_of_nextOrder? horder]
    exact execute_of_not_written? hmoved

/-! ## Rejected numbers -/

/-- A number that an action writes and the machine rejects is the fault of this action. -/
theorem act_of_rejected {m : Machine} {a : Action} {value : Int}
    (h : m.accWrite? a = some ⟨value, false⟩) : (m.act a).1 = some (.numberOutOfRange value) := by
  cases a with
  | step =>
    obtain ⟨v, hv, hwrite⟩ := Option.map_eq_some_iff.mp h
    simp only [AccWrite.mk.injEq, decide_eq_false_iff_not, ne_eq, Decidable.not_not] at hwrite
    obtain ⟨rfl, hfault⟩ := hwrite
    simp [act, hfault, StepOutcome.fault?]
  | feed values => simp [accWrite?] at h
  | load program offset => simp [accWrite?] at h
  | write address value => simp [accWrite?] at h
  | setCounter counter => simp [accWrite?] at h

/-- Every rejected number is a fault of the history. -/
theorem rejected_mem_faults {m : Machine} {history : List Action} {value : Int}
    (h : ⟨value, false⟩ ∈ m.writes history) : .numberOutOfRange value ∈ m.faults history := by
  induction history generalizing m with
  | nil => simp [writes] at h
  | cons a rest ih =>
    rw [writes, List.mem_append, Option.mem_toList] at h
    rw [faults, List.mem_append, Option.mem_toList]
    rcases h with h | h
    · exact .inl (act_of_rejected h)
    · exact .inr (ih h)

end Machine

end Mailroom
