import Mailroom.Proofs.Histories
import Mailroom.Proofs.Runs

/-!
# The out-basket

A printed value does not go straight to the outputs.  The order to print puts it into an
out-basket, which holds one value, and when an order has been carried out the basket is
emptied: its value joins the outputs and is delivered to the observer.  An order that fails
never comes to that point.  All the same no value is left behind and delivered later, since
the basket is empty before every order and the order to print does not fail.

Main definitions:

- `Emulator.prints?` is the value that the next step of an emulator prints.
- `Desk` is an emulator with the out-basket of its machine, and `Desk.step` one step of it.
- `Desk.History` joins requests to it, of which any may fail.

Main results:

- Theorem `Emulator.History.outputs_eq`: in a history the outputs grow by what its steps
  print.
- Theorem `Desk.history_iff`: the histories of an emulator with an out-basket are those of
  the emulator, with the basket empty at their ends.
- Theorem `Emulator.prints_delivered` joins them.
-/

namespace Mailroom

/-! ## Orders that print -/

/-- The outcome is neither a stop nor a print. -/
def StepOutcome.quiet : StepOutcome → Bool
  | fault _ => true
  | stopped => false
  | done printed => printed.isNone

/-- Nothing is printed by a quiet outcome. -/
theorem StepOutcome.printed_of_quiet {o : StepOutcome} (h : o.quiet = true) :
    o.printed = [] := by
  cases o with
  | fault f => rfl
  | stopped => rfl
  | done printed => simpa [quiet, StepOutcome.printed] using h

namespace Machine

/-- Writing the accumulator is quiet. -/
@[simp] theorem accept_quiet (m : Machine) (value : Int) : (m.accept value).1.quiet = true := by
  unfold accept
  split <;> rfl

/-- Writing a mailbox is quiet. -/
@[simp] theorem deposit_quiet (m : Machine) (a : Address) (value : Int) :
    (m.deposit a value).1.quiet = true := by
  unfold deposit
  split <;> rfl

/-- Orders other than those to stop and to print are quiet. -/
theorem execute_quiet {m : Machine} {order : Order} (hstop : order ≠ .plain .stop)
    (hprint : order ≠ .plain .print) : (m.execute order).1.quiet = true := by
  cases order with
  | branch op a => cases op <;> rfl
  | access op a => cases op <;> simp [execute, access]
  | plain op =>
    cases op with
    | stop => exact absurd rfl hstop
    | print => exact absurd rfl hprint
    | read =>
      cases hpending : m.pending with
      | nil => simp [execute, plain, hpending, StepOutcome.quiet]
      | cons value rest => simp [execute, plain, hpending]

/-- A step over the order to print hands over the accumulator. -/
theorem step_of_print {m : Machine} (h : m.nextOrder? = some (.plain .print)) :
    m.step = (.done (some m.acc), { m with counter := m.counter + 1 }) := by
  rw [step_of_nextOrder? h]
  rfl

/-- A step that does not print hands over nothing. -/
theorem step_printed_of_ne {m : Machine} (h : m.nextOrder? ≠ some (.plain .print)) :
    m.step.1.printed = [] := by
  cases horder : m.nextOrder? with
  | none =>
    obtain ⟨f, counter, hstep, -⟩ := step_of_nextOrder?_eq_none horder
    rw [hstep]
    rfl
  | some order =>
    rw [step_of_nextOrder? horder]
    by_cases hstop : order = .plain .stop
    · rw [hstop]
      rfl
    · exact StepOutcome.printed_of_quiet (execute_quiet hstop (by simpa [horder] using h))

end Machine

/-! ## Outputs -/

namespace Emulator

/-- The value that the next step prints: the accumulator, if the step is over the order to
print. -/
def prints? (e : Emulator) : Option Int :=
  if e.machine.nextOrder? = some (.plain .print) then some e.machine.acc else none

/-- A machine hands over what its emulator prints. -/
theorem printed_eq (e : Emulator) : e.machine.step.1.printed = e.prints?.toList := by
  by_cases h : e.machine.nextOrder? = some (.plain .print)
  · simp [prints?, h, Machine.step_of_print h, StepOutcome.printed]
  · simp [prints?, h, Machine.step_printed_of_ne h]

/-- A step that fails prints nothing. -/
theorem prints?_of_error {e : Emulator} {f : Fault} (h : e.step.1 = .error f) :
    e.prints? = none := by
  by_cases hprint : e.machine.nextOrder? = some (.plain .print)
  · simp [step_result, Machine.step_of_print hprint, StepOutcome.result] at h
  · simp [prints?, hprint]

/-- A step delivers what its machine prints. -/
theorem step_delivered (e : Emulator) :
    e.step.2.delivered.toList = e.delivered.toList ++ e.machine.step.1.printed := by
  unfold step
  split
  next => simp_all [StepOutcome.printed]
  next => simp_all [StepOutcome.printed]
  next printed m hstep => cases printed <;> simp_all [deliver, StepOutcome.printed]

/-- On the way from one emulator to another the given values were printed: they have joined
the outputs, and they were delivered. -/
structure Prints (e : Emulator) (values : List Int) (left : Emulator) : Prop where
  outputs : left.outputs.toList = e.outputs.toList ++ values
  delivered : left.delivered.toList = e.delivered.toList ++ values

/-- Nothing is printed where outputs and deliveries stay as they are. -/
theorem prints_nil {e left : Emulator} (houtputs : left.outputs = e.outputs)
    (hdelivered : left.delivered = e.delivered) : e.Prints [] left where
  outputs := by simp [houtputs]
  delivered := by simp [hdelivered]

/-- Values are printed one way after the other. -/
theorem Prints.trans {e middle left : Emulator} {values more : List Int}
    (hfirst : e.Prints values middle) (hsecond : middle.Prints more left) :
    e.Prints (values ++ more) left where
  outputs := by rw [hsecond.outputs, hfirst.outputs, List.append_assoc]
  delivered := by rw [hsecond.delivered, hfirst.delivered, List.append_assoc]

/-- A step prints what its order calls for. -/
theorem prints_step (e : Emulator) : e.Prints e.prints?.toList e.step.2 where
  outputs := by rw [step_outputs, printed_eq]
  delivered := by rw [step_delivered, printed_eq]

/-- Several steps print what their orders call for. -/
theorem prints_after (e : Emulator) (k : Nat) :
    e.Prints ((e.path k).filterMap prints?) (e.after k) := by
  induction k with
  | zero => exact prints_nil rfl rfl
  | succ k ih =>
    have hpath : (e.path (k + 1)).filterMap prints? =
        (e.path k).filterMap prints? ++ (e.after k).prints?.toList := by
      cases hprints : (e.after k).prints? <;>
        simp [path, List.range_succ, List.filterMap_append, hprints]
    rw [hpath, after_succ_last]
    exact ih.trans (prints_step _)

/-- While a request is served, its steps print what their orders call for, and nothing else
is printed. -/
theorem Serves.prints {e left : Emulator} {request : Request} {executed : List Emulator}
    (h : Serves e request executed left) : e.Prints (executed.filterMap prints?) left := by
  cases h with
  | step => exact e.prints_after 1
  | run _ hends => exact hends.emulator_eq ▸ e.prints_after _
  | loaded hload =>
    obtain ⟨memory, rfl⟩ := exists_memory_of_load hload
    exact prints_nil rfl rfl
  | written hwrite =>
    obtain ⟨memory, rfl⟩ := exists_memory_of_write hwrite
    exact prints_nil rfl rfl
  | notLoaded _ => exact prints_nil rfl rfl
  | notWritten _ => exact prints_nil rfl rfl
  | fed _ => exact prints_nil rfl rfl
  | counterSet _ => exact prints_nil rfl rfl

/-- In a history the steps print what their orders call for, and nothing else is printed. -/
theorem History.prints {e left : Emulator} {requests : List Request}
    {executed : List Emulator} (h : History e requests executed left) :
    e.Prints (executed.filterMap prints?) left := by
  induction h with
  | nil => exact prints_nil rfl rfl
  | snoc _ hserves ih =>
    rw [List.filterMap_append]
    exact ih.trans hserves.prints

/-- A run is served as a request. -/
theorem exists_serves_of_run {e : Emulator} {patience : Nat} {limit : Option Int}
    {r : RunResult} (h : e.run patience limit = some r) :
    ∃ tried, Serves e (.run limit) (e.path tried) r.emulator := by
  obtain ⟨tried, hends⟩ := run_eq_some_iff_ends.mp ⟨patience, h⟩
  exact ⟨tried, .run h hends⟩

end Emulator

/-! ## The basket of a machine -/

/-- An emulator, and the out-basket of its machine. -/
structure Desk where
  emulator : Emulator
  basket : Option Int

namespace Desk

/-- Exchange the machine. -/
def setMachine (d : Desk) (m : Machine) : Desk :=
  { d with emulator := { d.emulator with machine := m } }

/-- Count a step. -/
def count (d : Desk) : Desk :=
  { d with emulator := { d.emulator with steps := d.emulator.steps + 1 } }

/-- Carry out one order, and say whether it fails.  The order to print puts the accumulator
into the basket. -/
def execute (d : Desk) : Order → Option Fault × Desk
  | .plain .print => (none, { d with basket := some d.emulator.machine.acc })
  | order =>
    let (outcome, m) := d.emulator.machine.execute order
    (outcome.fault?, d.setMachine m)

/-- Deliver the value in the basket, if there is one, and leave the basket empty. -/
def collect (d : Desk) : Desk :=
  ⟨d.emulator.deliver d.basket, none⟩

/-- Carry out an order to its end, and say whether it stopped the machine.  The basket is
emptied after an order that neither fails nor stops the machine. -/
def complete (d : Desk) : Order → Except Fault Bool × Desk
  | .plain .stop => (.ok true, (d.execute (.plain .stop)).2.count)
  | order =>
    match d.execute order with
    | (some fault, d) => (.error fault, d)
    | (none, d) => (.ok false, d.collect.count)

/-- Fetch the word under the counter, move the counter on, and carry out the order. -/
def step (d : Desk) : Except Fault Bool × Desk :=
  let m := d.emulator.machine
  match Address.ofInt? m.counter with
  | none => (.error (.counterOutOfBounds m.counter), d)
  | some a =>
    let word := (m.memory.get a).val
    let d := d.setMachine { m with counter := m.counter + 1 }
    match Order.ofWord? word with
    | none => (.error (.invalidInstruction word (some a.val)), d)
    | some order => d.complete order

/-- Orders other than the one to print do not touch the basket. -/
theorem execute_of_ne {d : Desk} {order : Order} (h : order ≠ .plain .print) :
    d.execute order = ((d.emulator.machine.execute order).1.fault?,
      d.setMachine (d.emulator.machine.execute order).2) := by
  unfold execute
  split
  next => exact absurd rfl h
  next => rfl

/-- A fetched order is completed as its outcome tells, and leaves an empty basket empty. -/
theorem complete_of_empty {e : Emulator} {order : Order} {o : StepOutcome} {m : Machine}
    (h : e.machine.execute order = (o, m)) :
    (⟨e, none⟩ : Desk).complete order =
      match o with
      | .fault fault => (.error fault, ⟨{ e with machine := m }, none⟩)
      | .stopped => (.ok true, ⟨{ e with machine := m, steps := e.steps + 1 }, none⟩)
      | .done printed =>
        (.ok false, ⟨{ e with machine := m, steps := e.steps + 1 }.deliver printed, none⟩) := by
  by_cases hstop : order = .plain .stop
  · subst hstop
    cases h
    rfl
  by_cases hprint : order = .plain .print
  · subst hprint
    cases h
    rfl
  -- all other orders fail or leave the basket as it is
  have hquiet := Machine.execute_quiet (m := e.machine) hstop hprint
  rw [h] at hquiet
  cases o with
  | stopped => contradiction
  | fault f => simp [complete, execute_of_ne hprint, h, StepOutcome.fault?, setMachine]
  | done printed =>
    obtain rfl : printed = none := by simpa [StepOutcome.quiet] using hquiet
    simp [complete, execute_of_ne hprint, h, StepOutcome.fault?, setMachine, collect, count,
      Emulator.deliver]

/-- A step from an empty basket is a step of the emulator, and leaves the basket empty. -/
theorem step_of_empty (e : Emulator) :
    (⟨e, none⟩ : Desk).step = (e.step.1, ⟨e.step.2, none⟩) := by
  cases hc : Address.ofInt? e.machine.counter with
  | none => simp [step, Emulator.step, Machine.step, hc]
  | some a =>
    cases hword : Order.ofWord? (e.machine.memory.get a).val with
    | none => simp [step, Emulator.step, Machine.step, hc, hword, setMachine]
    | some order =>
      rcases hexecute : ({ e.machine with counter := e.machine.counter + 1 } :
        Machine).execute order with ⟨o, m⟩
      have hcomplete := complete_of_empty
        (e := { e with machine := { e.machine with counter := e.machine.counter + 1 } }) hexecute
      simp only [step, Emulator.step, Machine.step, hc, hword, setMachine, hexecute, hcomplete]
      cases o <;> rfl

/-! ## Runs and histories with the basket -/

/-- Make steps up to the first that stops or fails, and at most `budget` of them. -/
def runSteps (d : Desk) : (budget : Nat) → Emulator.Ending × Desk
  | 0 => (.limitReached, d)
  | budget + 1 =>
    match d.step with
    | (.error fault, d) => (.fault fault, d)
    | (.ok true, d) => (.halted, d)
    | (.ok false, d) => d.runSteps budget

/-- Run to the end or to the limit.  A run without a limit that has not ended after
`patience` steps has no result. -/
def run (patience : Nat) (d : Desk) (limit : Option Int) : Option Desk :=
  match d.emulator.limitFor limit with
  | some n => some (d.runSteps n.toNat).2
  | none =>
    let r := d.runSteps patience
    if r.1 = .limitReached then none else some r.2

/-- Exchange the emulator, unless that fails. -/
def replace (d : Desk) : Except Fault Emulator → Desk
  | .ok e => { d with emulator := e }
  | .error _ => d

/-- Serve a request.  What fails is served as well. -/
def serve (patience : Nat) (d : Desk) : Emulator.Request → Option Desk
  | .step => some d.step.2
  | .run limit => d.run patience limit
  | .load program offset => some (d.replace (d.emulator.load program offset).outcome)
  | .feed values => some { d with emulator := d.emulator.feed values }
  | .write address value => some (d.replace (d.emulator.write address value))
  | .setCounter counter => some { d with emulator := d.emulator.setCounter counter }

/-- What is left when some requests have been served. -/
inductive History (d : Desk) : List Emulator.Request → Desk → Prop
  | nil : History d [] d
  | snoc {requests : List Emulator.Request} {request : Emulator.Request} {middle left : Desk}
      {patience : Nat} (hbefore : History d requests middle)
      (hserve : middle.serve patience request = some left) :
      History d (requests ++ [request]) left

/-- Steps from an empty basket are steps of the emulator, and leave the basket empty. -/
theorem runSteps_of_empty (e : Emulator) (budget : Nat) :
    (⟨e, none⟩ : Desk).runSteps budget =
      ((e.runSteps budget).ending, ⟨(e.runSteps budget).emulator, none⟩) := by
  induction budget generalizing e with
  | zero => rfl
  | succ budget ih =>
    rw [runSteps, step_of_empty]
    cases hanswer : e.step.1 with
    | error f => rw [Emulator.runSteps_of_fault hanswer, Emulator.after_succ, Emulator.after_zero]
    | ok stopped =>
      cases stopped with
      | true => rw [Emulator.runSteps_of_stop hanswer, Emulator.after_succ, Emulator.after_zero]
      | false =>
        rw [Emulator.runSteps_succ hanswer]
        exact ih e.step.2

/-- A run from an empty basket is a run of the emulator, and leaves the basket empty. -/
theorem run_of_empty (e : Emulator) (patience : Nat) (limit : Option Int) :
    (⟨e, none⟩ : Desk).run patience limit =
      (e.run patience limit).map fun r => ⟨r.emulator, none⟩ := by
  unfold run Emulator.run
  cases e.limitFor limit with
  | some n => simp [runSteps_of_empty]
  | none =>
    simp only [runSteps_of_empty]
    split <;> rfl

/-- From an empty basket the emulator serves every request, and leaves the basket empty. -/
theorem exists_serves_of_serve {e : Emulator} {request : Emulator.Request} {patience : Nat}
    {d : Desk} (h : (⟨e, none⟩ : Desk).serve patience request = some d) :
    d.basket = none ∧ ∃ executed, Emulator.Serves e request executed d.emulator := by
  cases request with
  | step =>
    obtain rfl := Option.some.inj h
    rw [step_of_empty]
    exact ⟨rfl, [e], .step⟩
  | run limit =>
    rw [serve, run_of_empty, Option.map_eq_some_iff] at h
    obtain ⟨r, hrun, rfl⟩ := h
    obtain ⟨tried, hserves⟩ := Emulator.exists_serves_of_run hrun
    exact ⟨rfl, e.path tried, hserves⟩
  | load program offset =>
    obtain rfl := Option.some.inj h
    cases hload : (e.load program offset).outcome with
    | ok left => exact ⟨rfl, [], .loaded hload⟩
    | error f => exact ⟨rfl, [], .notLoaded hload⟩
  | feed values =>
    obtain rfl := Option.some.inj h
    exact ⟨rfl, [], .fed values⟩
  | write address value =>
    obtain rfl := Option.some.inj h
    cases hwrite : e.write address value with
    | ok left => exact ⟨rfl, [], .written hwrite⟩
    | error f => exact ⟨rfl, [], .notWritten hwrite⟩
  | setCounter counter =>
    obtain rfl := Option.some.inj h
    exact ⟨rfl, [], .counterSet counter⟩

/-- What the emulator serves is served from an empty basket, which is left empty. -/
theorem exists_serve_of_serves {e left : Emulator} {request : Emulator.Request}
    {executed : List Emulator} (h : Emulator.Serves e request executed left) :
    ∃ patience, (⟨e, none⟩ : Desk).serve patience request = some ⟨left, none⟩ := by
  cases h with
  | step => exact ⟨0, by rw [serve, step_of_empty]⟩
  | @run limit patience _ _ hrun _ =>
    exact ⟨patience, by rw [serve, run_of_empty, hrun]; rfl⟩
  | loaded hload => exact ⟨0, by rw [serve, hload]; rfl⟩
  | notLoaded hload => exact ⟨0, by rw [serve, hload]; rfl⟩
  | fed values => exact ⟨0, rfl⟩
  | written hwrite => exact ⟨0, by rw [serve, hwrite]; rfl⟩
  | notWritten hwrite => exact ⟨0, by rw [serve, hwrite]; rfl⟩
  | counterSet counter => exact ⟨0, rfl⟩

/-- The histories of an emulator with an empty basket are those of the emulator, and leave
the basket empty. -/
theorem history_iff {e : Emulator} {requests : List Emulator.Request} {d : Desk} :
    History ⟨e, none⟩ requests d ↔
      d.basket = none ∧ ∃ executed, Emulator.History e requests executed d.emulator := by
  constructor
  · intro h
    induction h with
    | nil => exact ⟨rfl, [], .nil⟩
    | @snoc requests request middle left patience _ hserve ih =>
      obtain ⟨hempty, executed, hbefore⟩ := ih
      have hmiddle : middle = ⟨middle.emulator, none⟩ := by rw [← hempty]
      rw [hmiddle] at hserve
      obtain ⟨hleft, more, hserves⟩ := exists_serves_of_serve hserve
      exact ⟨hleft, executed ++ more, hbefore.snoc hserves⟩
  · rintro ⟨hempty, executed, h⟩
    have hd : d = ⟨d.emulator, none⟩ := by rw [← hempty]
    rw [hd]
    generalize d.emulator = left at h
    induction h with
    | nil => exact .nil
    | @snoc requests request before more middle left _ hserves ih =>
      obtain ⟨patience, hserve⟩ := exists_serve_of_serves hserves
      exact .snoc ih hserve

end Desk

namespace Emulator

/-! ## Every print is delivered -/

/-- Over any history of a new emulator, the outputs are what was delivered to the observer,
and what the orders to print found in the accumulator, in the order in which they were
carried out.  A step that fails or does not print adds nothing.  The out-basket is empty
before and after every request.  A run reports all outputs that there are at its end, so
what it reports begins what every later run reports. -/
theorem prints_delivered {c : Configuration} {e : Emulator} (hnew : (new c).outcome = .ok e) :
    (∀ requests executed left, History e requests executed left →
      left.outputs.toList = executed.filterMap prints? ∧
        left.delivered.toList = executed.filterMap prints?) ∧
    (∀ e' : Emulator, (e'.prints? = none ∨ ∃ f, e'.step.1 = .error f) →
      e'.step.2.outputs = e'.outputs ∧ e'.step.2.delivered = e'.delivered) ∧
    (∀ requests d, Desk.History ⟨e, none⟩ requests d ↔
      d.basket = none ∧ ∃ executed, History e requests executed d.emulator) ∧
    ∀ requests executed before patience limit r, History e requests executed before →
      before.run patience limit = some r →
      (∃ tried, Serves before (.run limit) (before.path tried) r.emulator ∧
        r.emulator.outputs.toList = (executed ++ before.path tried).filterMap prints?) ∧
      ∀ more executed' later patience' limit' r', History r.emulator more executed' later →
        later.run patience' limit' = some r' →
        r.emulator.outputs.toList <+: r'.emulator.outputs.toList := by
  obtain ⟨memory, rfl⟩ := exists_started hnew
  refine ⟨?_, ?_, fun requests d => Desk.history_iff, ?_⟩
  · intro requests executed left h
    simpa using And.intro h.prints.outputs h.prints.delivered
  · intro e' h
    have hnone : e'.prints? = none := by
      rcases h with hnone | ⟨f, hfails⟩
      · exact hnone
      · exact prints?_of_error hfails
    have hstep := e'.prints_step
    rw [hnone] at hstep
    exact ⟨by simpa using hstep.outputs, by simpa using hstep.delivered⟩
  · intro requests executed before patience limit r hbefore hrun
    constructor
    · obtain ⟨tried, hserves⟩ := exists_serves_of_run hrun
      exact ⟨tried, hserves, by simpa using (hbefore.snoc hserves).prints.outputs⟩
    · intro more executed' later patience' limit' r' hmore hrun'
      obtain ⟨tried, hserves⟩ := exists_serves_of_run hrun'
      rw [(hmore.snoc hserves).prints.outputs]
      exact List.prefix_append _ _

/-- A program that prints its inputs, and the 0 after them as well. -/
def echoConfiguration : Configuration :=
  ⟨[901, 902, 600], 0, 0, some [7], none⟩

/-- The emulator of the program that prints its inputs. -/
def echoEmulator : Emulator :=
  ⟨started echoConfiguration (Memory.empty.overlay 0
    [⟨901, by decide, by decide⟩, ⟨902, by decide, by decide⟩, ⟨600, by decide, by decide⟩]),
    none, 0, #[], #[]⟩

/-- Five steps of the program print 7 and 0, and the observer is given the same. -/
theorem prints_delivered_echo :
    (new echoConfiguration).outcome = .ok echoEmulator ∧
    ∃ r executed, echoEmulator.run 0 (some 5) = some r ∧
      History echoEmulator [.run (some 5)] executed r.emulator ∧
      r.emulator.outputs.toList = [7, 0] ∧ r.emulator.delivered.toList = [7, 0] ∧
      executed.filterMap prints? = [7, 0] := by
  have hnew : (new echoConfiguration).outcome = .ok echoEmulator :=
    new_of_load (by decide) rfl
  have hrun : echoEmulator.run 0 (some 5) = some (echoEmulator.runSteps 5) := rfl
  have houtputs : (echoEmulator.runSteps 5).emulator.outputs.toList = [7, 0] := by
    decide +kernel
  obtain ⟨tried, hserves⟩ := exists_serves_of_run hrun
  have hhistory : History echoEmulator [.run (some 5)] (echoEmulator.path tried)
      (echoEmulator.runSteps 5).emulator := by
    simpa using History.nil.snoc hserves
  obtain ⟨hprints, hdelivered⟩ := (prints_delivered hnew).1 _ _ _ hhistory
  rw [houtputs] at hprints
  exact ⟨hnew, _, _, hrun, hhistory, houtputs, hdelivered.trans hprints.symm, hprints.symm⟩

end Emulator

end Mailroom
