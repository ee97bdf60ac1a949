import Mathlib.Data.Nat.Find
import Mathlib.Tactic.ByContra
import Mailroom.Proofs.Loading
import Mailroom.Proofs.Stepping

/-!
# Runs

A run makes one step after the other up to the first that stops or fails, and no more
steps than its limit allows.  So it can be cut into shorter runs, and a limit that it does
not come to makes no difference.

Main definitions:

- `Emulator.Ends` is the end of a run, told by the answers of the single steps.
- `Emulator.Request` lists what can be asked of an emulator, and `Emulator.Serves` tells
  which steps an answer takes and what it leaves.
- `Emulator.History` joins requests, of which any may fail.

Main results:

- Theorem `Emulator.run_eq_some_iff_ends`: a run ends as its steps call for.
- Theorem `Emulator.runSteps_add`: steps that go on can be made before a run or in it.
- Theorem `Emulator.Ends.change_limit`: a limit that is not reached makes no difference.
- Theorem `Emulator.History.steps_eq`: the steps without a fault are counted.
- Theorem `Emulator.run_iterates_step` joins them.
-/

namespace Mailroom

namespace Emulator

/-! ## Paths -/

/-- The next step is answered without a fault. -/
def answers (e : Emulator) : Bool :=
  match e.step.1 with
  | .ok _ => true
  | .error _ => false

/-- The emulators from which the first `k` steps are made. -/
def path (e : Emulator) (k : Nat) : List Emulator :=
  (List.range k).map e.after

/-- The last of several steps comes after the others. -/
theorem after_succ_last (e : Emulator) (k : Nat) : e.after (k + 1) = (e.after k).step.2 :=
  Function.iterate_succ_apply' _ k e

/-- Steps after steps. -/
theorem after_add (e : Emulator) (j k : Nat) : e.after (j + k) = (e.after j).after k := by
  rw [Nat.add_comm]
  exact Function.iterate_add_apply _ k j e

/-- A step counts if it is answered without a fault. -/
theorem step_steps (e : Emulator) :
    e.step.2.steps = e.steps + [e].countP answers := by
  unfold answers step
  split
  next => simp_all
  next => simp_all
  next printed m hstep => cases printed <;> simp_all [deliver]

/-- Of several steps those count that are answered without a fault. -/
theorem after_steps (e : Emulator) (k : Nat) :
    (e.after k).steps = e.steps + (e.path k).countP answers := by
  induction k with
  | zero => rfl
  | succ k ih =>
    have hpath : e.path (k + 1) = e.path k ++ [e.after k] := by
      simp [path, List.range_succ]
    rw [after_succ_last, step_steps, ih, hpath, List.countP_append, Nat.add_assoc]

/-! ## The end of a run -/

/-- The end of a run that begins at `e`, and the number of steps that are tried in it: it
comes with the first step that stops or fails, if that is within the limit, and else with
the limit.  A step that fails is tried and not made. -/
inductive Ends (e : Emulator) (limit : Option Nat) : (tried : Nat) → RunResult → Prop
  | halted {j : Nat} (hlimit : ∀ n ∈ limit, j < n)
      (hbefore : ∀ i < j, (e.after i).step.1 = .ok false)
      (hstop : (e.after j).step.1 = .ok true) :
      Ends e limit (j + 1) ⟨.halted, j + 1, e.after (j + 1)⟩
  | fault {j : Nat} {f : Fault} (hlimit : ∀ n ∈ limit, j < n)
      (hbefore : ∀ i < j, (e.after i).step.1 = .ok false)
      (hfault : (e.after j).step.1 = .error f) :
      Ends e limit (j + 1) ⟨.fault f, j, e.after (j + 1)⟩
  | limitReached {n : Nat} (hlimit : limit = some n)
      (hbefore : ∀ i < n, (e.after i).step.1 = .ok false) :
      Ends e limit n ⟨.limitReached, n, e.after n⟩

/-- A result that is reached when some steps have been made before. -/
def RunResult.later (made : Nat) (r : RunResult) : RunResult :=
  { r with steps := made + r.steps }

/-- Steps that were made before a run count in its result. -/
theorem runFrom_eq_later (made : Nat) (e : Emulator) (budget : Nat) :
    runFrom made e budget = (e.runSteps budget).later made := by
  induction budget generalizing made e with
  | zero => rfl
  | succ budget ih =>
    unfold runSteps runFrom
    split
    · rfl
    · rfl
    · rw [ih, ih (0 + 1)]
      simp [RunResult.later, Nat.add_assoc]

/-- A run ends with a first step that stops. -/
theorem runSteps_of_stop {e : Emulator} (h : e.step.1 = .ok true) (budget : Nat) :
    e.runSteps (budget + 1) = ⟨.halted, 1, e.after 1⟩ := by
  unfold runSteps runFrom
  split <;> simp_all [after]

/-- A run ends with a first step that fails. -/
theorem runSteps_of_fault {e : Emulator} {f : Fault} (h : e.step.1 = .error f)
    (budget : Nat) : e.runSteps (budget + 1) = ⟨.fault f, 0, e.after 1⟩ := by
  unfold runSteps runFrom
  split <;> simp_all [after]

/-- A run goes on from a first step that neither stops nor fails. -/
theorem runSteps_succ {e : Emulator} (h : e.step.1 = .ok false) (budget : Nat) :
    e.runSteps (budget + 1) = (e.step.2.runSteps budget).later 1 := by
  have hstep : e.step = (.ok false, e.step.2) := Prod.ext h rfl
  rw [runSteps, runFrom_succ_of_step hstep, runFrom_eq_later]

/-- Steps that neither stop nor fail can be made before a run or in it. -/
theorem runSteps_add {e : Emulator} {j : Nat}
    (h : ∀ i < j, (e.after i).step.1 = .ok false) (budget : Nat) :
    e.runSteps (j + budget) = ((e.after j).runSteps budget).later j := by
  induction j generalizing e with
  | zero => simp [RunResult.later]
  | succ j ih =>
    have hfirst : e.step.1 = .ok false := h 0 (Nat.succ_pos j)
    have hrest : ∀ i < j, (e.step.2.after i).step.1 = .ok false := fun i hi =>
      h (i + 1) (Nat.succ_lt_succ hi)
    calc
      e.runSteps (j + 1 + budget) = e.runSteps (j + budget + 1) := by
        rw [Nat.add_right_comm]
      _ = (((e.after (j + 1)).runSteps budget).later j).later 1 := by
        rw [runSteps_succ hfirst, ih hrest, after_succ]
      _ = ((e.after (j + 1)).runSteps budget).later (j + 1) := by
        simp only [RunResult.later, ← Nat.add_assoc, Nat.add_comm 1 j]

/-- A run within a limit has the end that its steps call for. -/
theorem Ends.runSteps_eq {e : Emulator} {n tried : Nat} {r : RunResult}
    (h : Ends e (some n) tried r) : e.runSteps n = r := by
  cases h with
  | @halted j hlimit hbefore hstop =>
    obtain ⟨k, rfl⟩ := Nat.exists_eq_add_of_lt (hlimit n rfl)
    rw [Nat.add_assoc, runSteps_add hbefore, runSteps_of_stop hstop, after_add e j]
    rfl
  | @fault j f hlimit hbefore hfault =>
    obtain ⟨k, rfl⟩ := Nat.exists_eq_add_of_lt (hlimit n rfl)
    rw [Nat.add_assoc, runSteps_add hbefore, runSteps_of_fault hfault, after_add e j]
    rfl
  | limitReached hlimit hbefore =>
    obtain rfl := Option.some.inj hlimit
    exact runSteps_add hbefore 0

/-- The steps of an emulator call for an end within every limit. -/
theorem exists_ends (e : Emulator) (n : Nat) : ∃ tried r, Ends e (some n) tried r := by
  classical
  by_cases hall : ∀ i < n, (e.after i).step.1 = .ok false
  · exact ⟨_, _, .limitReached rfl hall⟩
  · -- the first step that does not go on ends the run
    have hexists : ∃ i, i < n ∧ (e.after i).step.1 ≠ .ok false := by
      simpa using hall
    obtain ⟨hlt, hends⟩ := Nat.find_spec hexists
    have hlimit : ∀ m ∈ some n, Nat.find hexists < m := by
      simpa using hlt
    have hbefore : ∀ i < Nat.find hexists, (e.after i).step.1 = .ok false := by
      intro i hi
      by_contra hne
      exact Nat.find_min hexists hi ⟨by omega, hne⟩
    cases hanswer : (e.after (Nat.find hexists)).step.1 with
    | error f => exact ⟨_, _, .fault hlimit hbefore hanswer⟩
    | ok stopped =>
      cases stopped with
      | true => exact ⟨_, _, .halted hlimit hbefore hanswer⟩
      | false => exact absurd hanswer hends

/-- A run within a limit comes to an end. -/
theorem ends_runSteps (e : Emulator) (n : Nat) :
    ∃ tried, Ends e (some n) tried (e.runSteps n) := by
  obtain ⟨tried, r, hends⟩ := e.exists_ends n
  exact ⟨tried, hends.runSteps_eq ▸ hends⟩

/-- The end of a run leaves what the tried steps leave. -/
theorem Ends.emulator_eq {e : Emulator} {limit : Option Nat} {tried : Nat} {r : RunResult}
    (h : Ends e limit tried r) : r.emulator = e.after tried := by
  cases h <;> rfl

/-- An end before the limit is the end within every other limit that allows for as many
steps. -/
theorem Ends.change_limit {e : Emulator} {limit limit' : Option Nat} {tried : Nat}
    {r : RunResult} (h : Ends e limit tried r) (hr : r.ending ≠ .limitReached)
    (hlimit : ∀ n ∈ limit', tried ≤ n) : Ends e limit' tried r := by
  cases h with
  | halted _ hbefore hstop => exact .halted hlimit hbefore hstop
  | fault _ hbefore hfault => exact .fault hlimit hbefore hfault
  | limitReached _ _ => exact absurd rfl hr

/-- Without a limit no end comes from it. -/
theorem Ends.ne_limitReached {e : Emulator} {tried : Nat} {r : RunResult}
    (h : Ends e none tried r) : r.ending ≠ .limitReached := by
  cases h with
  | halted _ _ _ => simp
  | fault _ _ _ => simp
  | limitReached hnone _ => simp at hnone

/-- The steps that are tried are those that are made, and one that fails. -/
theorem Ends.tried_eq {e : Emulator} {limit : Option Nat} {tried : Nat} {r : RunResult}
    (h : Ends e limit tried r) :
    tried = match r.ending with
      | .fault _ => r.steps + 1
      | _ => r.steps := by
  cases h <;> rfl

/-- A run has one end. -/
theorem Ends.unique {e : Emulator} {limit : Option Nat} {tried tried' : Nat} {r r' : RunResult}
    (h : Ends e limit tried r) (h' : Ends e limit tried' r') : tried = tried' ∧ r = r' := by
  have hr : r = r' := by
    cases limit with
    | some n => exact h.runSteps_eq.symm.trans h'.runSteps_eq
    | none =>
      -- both ends come within the greater number of steps
      have hwithin : ∀ {k}, k ≤ max tried tried' → ∀ n ∈ some (max tried tried'), k ≤ n :=
        fun hk n hn => Option.mem_some.mp hn ▸ hk
      have hfirst := h.change_limit h.ne_limitReached (hwithin (Nat.le_max_left _ _))
      have hsecond := h'.change_limit h'.ne_limitReached (hwithin (Nat.le_max_right _ _))
      exact hfirst.runSteps_eq.symm.trans hsecond.runSteps_eq
  exact ⟨by rw [h.tried_eq, h'.tried_eq, hr], hr⟩

/-! ## Runs with and without a limit -/

/-- A run with a limit makes no more than so many steps. -/
theorem run_of_limit {e : Emulator} {limit : Option Int} {n : Int}
    (h : limit.or e.maxSteps = some n) (patience : Nat) :
    e.run patience limit = some (e.runSteps n.toNat) := by
  simp [run, limitFor, h]

/-- A run without a limit has a result when it ends before patience does. -/
theorem run_of_no_limit {e : Emulator} {limit : Option Int}
    (h : limit.or e.maxSteps = none) {patience : Nat} {r : RunResult} :
    e.run patience limit = some r ↔ e.runSteps patience = r ∧ r.ending ≠ .limitReached := by
  simp only [run, limitFor, h, Option.ite_none_left_eq_some, Option.some.injEq]
  constructor
  · rintro ⟨hending, rfl⟩
    exact ⟨rfl, hending⟩
  · rintro ⟨rfl, hending⟩
    exact ⟨hending, rfl⟩

/-- A run has the end that its steps call for, and no other result.  Negative limits count
as 0. -/
theorem run_eq_some_iff_ends {e : Emulator} {limit : Option Int} {r : RunResult} :
    (∃ patience, e.run patience limit = some r) ↔
      ∃ tried, Ends e ((limit.or e.maxSteps).map Int.toNat) tried r := by
  cases hlimit : limit.or e.maxSteps with
  | some n =>
    simp only [run_of_limit hlimit, Option.some.injEq, exists_const, Option.map_some]
    constructor
    · rintro rfl
      exact e.ends_runSteps n.toNat
    · rintro ⟨tried, hends⟩
      exact hends.runSteps_eq
  | none =>
    simp only [run_of_no_limit hlimit, Option.map_none]
    constructor
    · rintro ⟨patience, rfl, hending⟩
      obtain ⟨tried, hends⟩ := e.ends_runSteps patience
      exact ⟨tried, hends.change_limit hending (by simp)⟩
    · rintro ⟨tried, hends⟩
      have hending := hends.ne_limitReached
      exact ⟨tried, (hends.change_limit hending (by simp)).runSteps_eq, hending⟩

/-- A run that ends before its limit ends alike with every limit that allows for as many
steps, and without a limit. -/
theorem Ends.run_eq {e : Emulator} {limit : Option Nat} {tried : Nat} {r : RunResult}
    (h : Ends e limit tried r) (hr : r.ending ≠ .limitReached) {limit' : Option Int}
    (hlimit : ∀ n ∈ limit'.or e.maxSteps, tried ≤ n) {patience : Nat}
    (hpatience : tried ≤ patience) : e.run patience limit' = some r := by
  cases hor : limit'.or e.maxSteps with
  | some n =>
    have hn : tried ≤ n.toNat := by
      have := hlimit n hor
      omega
    rw [run_of_limit hor, (h.change_limit hr (by simpa using hn)).runSteps_eq]
  | none =>
    have hends : Ends e (some patience) tried r :=
      h.change_limit hr (by simpa using hpatience)
    exact (run_of_no_limit hor).mpr ⟨hends.runSteps_eq, hr⟩

/-- A run that reaches its limit is continued by a second run as by a longer limit. -/
theorem run_add {e : Emulator} {m k patience : Nat} {r : RunResult}
    (h : e.run patience (some m) = some r) (hr : r.ending = .limitReached) :
    ∃ r', r.emulator.run patience (some k) = some r' ∧
      e.run patience (some (m + k : Nat)) = some (r'.later m) := by
  rw [run_of_limit rfl, Int.toNat_natCast, Option.some.injEq] at h
  obtain ⟨tried, hends⟩ := e.ends_runSteps m
  rw [h] at hends
  cases hends with
  | halted _ _ _ => simp at hr
  | fault _ _ _ => simp at hr
  | limitReached hlimit hbefore =>
    obtain rfl := Option.some.inj hlimit
    exact ⟨_, run_of_limit rfl patience,
      by rw [run_of_limit rfl, Int.toNat_natCast, runSteps_add hbefore, Int.toNat_natCast]⟩

/-! ## Histories -/

/-- What can be asked of an emulator. -/
inductive Request
  | step
  | run (limit : Option Int)
  | load (program : List Int) (offset : Int)
  | feed (values : List Int)
  | write (address value : Int)
  | setCounter (counter : Int)
  deriving DecidableEq, Repr

/-- How an emulator serves a request: the emulators from which a step is made on the way,
and the emulator that is left.  What fails is served as well. -/
inductive Serves (e : Emulator) : Request → List Emulator → Emulator → Prop
  | step : Serves e .step [e] e.step.2
  | run {limit : Option Int} {patience tried : Nat} {r : RunResult}
      (hrun : e.run patience limit = some r)
      (hends : Ends e ((limit.or e.maxSteps).map Int.toNat) tried r) :
      Serves e (.run limit) (e.path tried) r.emulator
  | loaded {program : List Int} {offset : Int} {left : Emulator}
      (hload : (e.load program offset).outcome = .ok left) :
      Serves e (.load program offset) [] left
  | notLoaded {program : List Int} {offset : Int} {f : Fault}
      (hload : (e.load program offset).outcome = .error f) :
      Serves e (.load program offset) [] e
  | fed (values : List Int) : Serves e (.feed values) [] (e.feed values)
  | written {address value : Int} {left : Emulator}
      (hwrite : e.write address value = .ok left) : Serves e (.write address value) [] left
  | notWritten {address value : Int} {f : Fault}
      (hwrite : e.write address value = .error f) : Serves e (.write address value) [] e
  | counterSet (counter : Int) :
      Serves e (.setCounter counter) [] (e.setCounter counter)

/-- The emulators from which a step is made while some requests are served, and the
emulator that is left. -/
inductive History (e : Emulator) : List Request → List Emulator → Emulator → Prop
  | nil : History e [] [] e
  | snoc {requests : List Request} {request : Request} {before more : List Emulator}
      {middle left : Emulator} (hbefore : History e requests before middle)
      (hserves : Serves middle request more left) :
      History e (requests ++ [request]) (before ++ more) left

/-- Loading a program exchanges the mailboxes and nothing else. -/
theorem exists_memory_of_load {e left : Emulator} {program : List Int} {offset : Int}
    (h : (e.load program offset).outcome = .ok left) :
    ∃ memory, left = { e with machine := { e.machine with memory := memory } } := by
  unfold load at h
  split at h
  next => simp [Journal.refuse] at h
  next memory _ => exact ⟨memory, (Except.ok.inj h).symm⟩

/-- Writing a mailbox exchanges the mailboxes and nothing else. -/
theorem exists_memory_of_write {e left : Emulator} {address value : Int}
    (h : e.write address value = .ok left) :
    ∃ memory, left = { e with machine := { e.machine with memory := memory } } := by
  unfold write at h
  cases hmemory : e.machine.memory.write address value with
  | error f => simp [hmemory, Except.map] at h
  | ok memory =>
    simp only [hmemory, Except.map, Except.ok.injEq] at h
    exact ⟨memory, h.symm⟩

/-- While a request is served, the steps without a fault are counted. -/
theorem Serves.steps_eq {e left : Emulator} {request : Request} {executed : List Emulator}
    (h : Serves e request executed left) :
    left.steps = e.steps + executed.countP answers := by
  cases h with
  | step => exact e.step_steps
  | run _ hends => rw [hends.emulator_eq, after_steps]
  | loaded hload =>
    obtain ⟨memory, rfl⟩ := exists_memory_of_load hload
    rfl
  | notLoaded _ => rfl
  | fed _ => rfl
  | written hwrite =>
    obtain ⟨memory, rfl⟩ := exists_memory_of_write hwrite
    rfl
  | notWritten _ => rfl
  | counterSet _ => rfl

/-- In a history the steps without a fault are counted. -/
theorem History.steps_eq {e left : Emulator} {requests : List Request}
    {executed : List Emulator} (h : History e requests executed left) :
    left.steps = e.steps + executed.countP answers := by
  induction h with
  | nil => rfl
  | snoc _ hserves ih => rw [hserves.steps_eq, ih, List.countP_append, Nat.add_assoc]

/-- An emulator has made no steps at first. -/
theorem new_steps {c : Configuration} {e : Emulator} (h : (new c).outcome = .ok e) :
    e.steps = 0 := by
  obtain ⟨memory, rfl⟩ := exists_started h
  rfl

/-- A run makes steps up to the first that stops or fails, within the limit of the call or
else the limit of the emulator, and leaves what these steps leave.  With a limit it always
comes to an end.  Two runs of which the first reaches its limit are one run.  A limit that
is not reached makes no difference.  Over any history an emulator has counted the steps
that were answered without a fault, and it has counted none at first. -/
theorem run_iterates_step (e : Emulator) :
    (∀ (limit : Option Int) (r : RunResult), (∃ patience, e.run patience limit = some r) ↔
      ∃ tried, Ends e ((limit.or e.maxSteps).map Int.toNat) tried r) ∧
    (∀ (limit : Option Int) (n : Int), limit.or e.maxSteps = some n →
      ∃ r, ∀ patience, e.run patience limit = some r) ∧
    (∀ (m k patience : Nat) (r : RunResult), e.run patience (some m) = some r →
      r.ending = .limitReached →
      ∃ r', r.emulator.run patience (some k) = some r' ∧
        e.run patience (some (m + k : Nat)) = some (r'.later m)) ∧
    (∀ (limit : Option Nat) (tried : Nat) (r : RunResult), Ends e limit tried r →
      r.ending ≠ .limitReached →
      ∀ limit' : Option Int, (∀ n ∈ limit'.or e.maxSteps, tried ≤ n) →
        ∀ patience, tried ≤ patience → e.run patience limit' = some r) ∧
    (∀ (requests : List Request) (executed : List Emulator) (left : Emulator),
      History e requests executed left →
      left.steps = e.steps + executed.countP answers) ∧
    (∀ c : Configuration, (new c).outcome = .ok e → e.steps = 0) := by
  refine ⟨fun limit r => run_eq_some_iff_ends, ?_, ?_, ?_, ?_, fun c => new_steps⟩
  · intro limit n hlimit
    exact ⟨_, run_of_limit hlimit⟩
  · intro m k patience r hrun hending
    exact run_add hrun hending
  · intro limit tried r hends hending limit' hlimit patience hpatience
    exact hends.run_eq hending hlimit hpatience
  · intro requests executed left hhistory
    exact hhistory.steps_eq

/-- A machine that reads an input and prints it, comes to a word that is no order, and stops behind
it. -/
def faultyEmulator : Emulator :=
  ⟨{ Machine.new with
      memory := (Memory.empty.load [901, 902, 950, 0] 0).toOption.getD .empty
      pending := [7, 0] }, none, 0, #[], #[]⟩

/-- A run of two steps is continued by a second run as by a longer limit.  The third step ends every
run that comes to it, and it is not counted. -/
theorem run_iterates_step_faulty :
    let e := faultyEmulator
    let paused := e.runSteps 2
    let failed : RunResult := ⟨.fault (.invalidInstruction 950 (some 2)), 2, e.after 3⟩
    (new ⟨[901, 902, 950, 0], 0, 0, some [7], none⟩).outcome = .ok e ∧ e.steps = 0 ∧
      e.run 0 (some 2) = some paused ∧ paused.ending = .limitReached ∧
      (∃ r, paused.emulator.run 0 (some (5 : Nat)) = some r ∧
        e.run 0 (some (2 + 5 : Nat)) = some (r.later 2)) ∧
      Ends e none 3 failed ∧ e.run 3 none = some failed ∧ e.run 3 (some 4) = some failed ∧
      ∃ executed, History e [.run (some 2), .step] executed paused.emulator.step.2 ∧
        paused.emulator.step.2.steps = e.steps + executed.countP answers := by
  intro e paused failed
  obtain ⟨hends, hresult, hadd, hlimits, hcount, hnew⟩ := run_iterates_step e
  have hloaded : (new ⟨[901, 902, 950, 0], 0, 0, some [7], none⟩).outcome = .ok e := by
    decide +kernel
  obtain ⟨r, hrun⟩ := hresult (some 2) 2 rfl
  obtain rfl : paused = r := Option.some.inj (hrun 0)
  have hpaused : paused.ending = .limitReached := by decide +kernel
  have hfailed : Ends e none 3 failed :=
    .fault (by simp) (by decide +kernel) (by decide +kernel)
  have hany := hlimits none 3 failed hfailed (by simp [failed])
  obtain ⟨tried, hserved⟩ := (hends (some 2) paused).mp ⟨0, hrun 0⟩
  have hhistory : History e [.run (some 2), .step] _ paused.emulator.step.2 :=
    .snoc (.snoc .nil (.run (hrun 0) hserved)) .step
  exact ⟨hloaded, hnew _ hloaded, hrun 0, hpaused, hadd 2 5 0 paused (hrun 0) hpaused, hfailed,
    hany none (by simp [e, faultyEmulator]) 3 le_rfl, hany (some 4) (by simp) 3 le_rfl,
    _, hhistory, hcount _ _ _ hhistory⟩

end Emulator

end Mailroom
