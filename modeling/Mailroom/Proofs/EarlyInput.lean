import Mailroom.Proofs.InBasket
import Mailroom.Proofs.Runs

/-!
# Feeding input early or late

Input that is fed before some steps or after them makes the same difference, as long as no
step looks for an input where there is none.  Only the order to read looks at the queue, and
it looks at the front, while inputs are fed to the end.

Main definitions:

- `Machine.RunsDry` says that the next step reads from an empty queue.

Main results:

- Theorem `Machine.step_feed`: a step that does not read from an empty queue does the same
  before and after a feed.
- Theorem `Emulator.after_feed`: so do several steps, of which any may fail.
- Theorem `Machine.pending_of_runsDry`: a step that reads from an empty queue does not.
- Theorem `Emulator.feed_early_or_late` joins them.
-/

namespace Mailroom

namespace Machine

variable {m : Machine}

/-! ## Orders -/

/-- Writing the accumulator does the same before and after a feed. -/
theorem accept_feed (m : Machine) (values : List Int) (value : Int) :
    (m.feed values).accept value =
      ((m.accept value).1, (m.accept value).2.feed values) := by
  unfold accept
  split <;> rfl

/-- Writing a mailbox does the same before and after a feed. -/
theorem deposit_feed (m : Machine) (values : List Int) (a : Address) (value : Int) :
    (m.feed values).deposit a value =
      ((m.deposit a value).1, (m.deposit a value).2.feed values) := by
  have hmemory : (m.feed values).memory = m.memory := rfl
  simp only [deposit, hmemory]
  cases m.memory.put a value <;> rfl

/-- A jump does the same before and after a feed. -/
theorem jump_feed (m : Machine) (values : List Int) (condition : Bool) (target : Address) :
    (m.feed values).jump condition target =
      ((m.jump condition target).1, (m.jump condition target).2.feed values) := by
  cases condition <;> rfl

/-- Reading a value from the front of the queue does the same before and after a feed. -/
theorem read_feed {value : Int} {rest : List Int} (h : m.pending = value :: rest)
    (values : List Int) :
    (m.feed values).plain .read =
      ((m.plain .read).1, (m.plain .read).2.feed values) := by
  have hfed : (m.feed values).pending = value :: (rest ++ values ++ [0]) := by
    rw [feed, h]
    rfl
  simp only [plain, h, hfed]
  exact accept_feed { m with pending := rest } values value

/-- An order does the same before and after a feed, but to read from an empty queue. -/
theorem execute_feed {order : Order} (h : order = .plain .read → m.pending ≠ [])
    (values : List Int) :
    (m.feed values).execute order =
      ((m.execute order).1, (m.execute order).2.feed values) := by
  cases order with
  | branch op target =>
    cases op with
    | always => exact m.jump_feed values true target
    | ifZero => exact m.jump_feed values m.zero target
    | ifPositive => exact m.jump_feed values m.positive target
  | access op a =>
    cases op with
    | add => exact m.accept_feed values _
    | sub => exact m.accept_feed values _
    | store => exact m.deposit_feed values a _
    | storeAddress => exact m.deposit_feed values a _
    | load => exact m.accept_feed values _
  | plain op =>
    cases op with
    | stop => rfl
    | print => rfl
    | read =>
      obtain ⟨value, rest, hpending⟩ := List.exists_cons_of_ne_nil (h rfl)
      exact read_feed hpending values

/-! ## Steps -/

/-- The next step is to read an input, and there is none. -/
def RunsDry (m : Machine) : Prop :=
  m.nextOrder? = some (.plain .read) ∧ m.pending = []

instance (m : Machine) : Decidable m.RunsDry :=
  inferInstanceAs (Decidable (_ ∧ _))

/-- A step that does not read from an empty queue does the same before and after a feed. -/
theorem step_feed (h : ¬ m.RunsDry) (values : List Int) :
    (m.feed values).step = (m.step.1, m.step.2.feed values) := by
  cases horder : m.nextOrder? with
  | some order =>
    have hfed : (m.feed values).nextOrder? = some order := horder
    rw [step_of_nextOrder? horder, step_of_nextOrder? hfed]
    refine execute_feed (m := { m with counter := m.counter + 1 }) ?_ values
    rintro rfl hpending
    exact h ⟨horder, hpending⟩
  | none =>
    -- without an order the step fails before anything can look at the queue
    cases hc : Address.ofInt? m.counter with
    | none => simp [step, feed, hc]
    | some c =>
      have hword : Order.ofWord? (m.memory.get c).val = none := by
        simpa [nextOrder?, hc] using horder
      simp [step, feed, hc, hword]

/-- A step that reads from an empty queue leaves one pending value more before a feed than
after it. -/
theorem pending_of_runsDry (h : m.RunsDry) (values : List Int) :
    (m.feed values).step.2.pending.length + 1 = (m.step.2.feed values).pending.length := by
  obtain ⟨hread, hpending⟩ := h
  have hlate : (m.step.2.feed values).pending = values ++ [0] := by
    rw [step_of_read_nil hread hpending, feed, hpending]
    rfl
  have hfed : (m.feed values).pending = values ++ [0] := by
    rw [feed, hpending]
    rfl
  obtain ⟨value, rest, hcons⟩ := List.exists_cons_of_ne_nil
    (List.append_ne_nil_of_right_ne_nil values (List.cons_ne_nil 0 []))
  have hearly : (m.feed values).step.2.pending = rest := by
    rw [step_of_read_cons (m := m.feed values) hread (hfed.trans hcons), accept_pending]
  rw [hearly, hlate, hcons, List.length_cons]

end Machine

namespace Emulator

variable {e : Emulator}

/-- A step that does not read from an empty queue answers and does the same before and after
a feed. -/
theorem step_feed (h : ¬ e.machine.RunsDry) (values : List Int) :
    (e.feed values).step = (e.step.1, e.step.2.feed values) := by
  have hmachine : (e.feed values).machine.step =
      (e.machine.step.1, e.machine.step.2.feed values) := Machine.step_feed h values
  unfold step
  rw [hmachine]
  cases hstep : e.machine.step with
  | mk outcome m =>
    cases outcome with
    | fault f => rfl
    | stopped => rfl
    | done printed => cases printed <;> rfl

/-- Steps of which none reads from an empty queue do the same before and after a feed. -/
theorem after_feed {k : Nat} (h : ∀ i < k, ¬ (e.after i).machine.RunsDry)
    (values : List Int) : (e.feed values).after k = (e.after k).feed values := by
  induction k with
  | zero => rfl
  | succ k ih =>
    have hbefore := ih fun i hi => h i (Nat.lt_succ_of_lt hi)
    rw [after_succ_last, after_succ_last, hbefore, step_feed (h k (Nat.lt_succ_self k))]

/-- If none of the next `k` steps reads from an empty queue, then inputs can be fed before
these steps or after them: the emulator that is left is the same, with its machine, its
outputs and its count of steps, and each of the steps answers the same, whether it fails or
not.  If the step after them does read from an empty queue, then it makes a difference whether
inputs are fed before it: there is one pending value less. -/
theorem feed_early_or_late {k : Nat} (h : ∀ i < k, ¬ (e.after i).machine.RunsDry)
    (values : List Int) :
    (e.feed values).after k = (e.after k).feed values ∧
    (∀ i < k, ((e.feed values).after i).step.1 = (e.after i).step.1) ∧
    ((e.after k).machine.RunsDry →
      ((e.feed values).after (k + 1)).machine.pending.length + 1 =
        ((e.after (k + 1)).feed values).machine.pending.length) := by
  refine ⟨after_feed h values, ?_, ?_⟩
  · intro i hi
    rw [after_feed (fun j hj => h j (Nat.lt_trans hj hi)) values, step_feed (h i hi)]
  · intro hdry
    rw [after_succ_last, after_succ_last, after_feed h values, step_machine]
    have hpending := Machine.pending_of_runsDry hdry values
    rwa [← step_machine] at hpending

/-- A machine that reads an input, prints it, and comes to a word that is no order and to an
input that is rejected; its next step finds no input. -/
def frugalEmulator : Emulator :=
  ⟨{ Machine.new with
      memory := (Memory.empty.load [901, 902, 950, 901, 901] 0).toOption.getD .empty
      pending := [5, 1000] }, none, 0, #[], #[]⟩

/-- Four steps, of which two fail, can be made before a feed or after it, and the fifth
cannot. -/
theorem feed_early_or_late_frugal :
    (∀ i < 4, ¬ (frugalEmulator.after i).machine.RunsDry) ∧
    (frugalEmulator.feed [3]).after 4 = (frugalEmulator.after 4).feed [3] ∧
    (frugalEmulator.after 3).step.1 = .error (.numberOutOfRange 1000) ∧
    ((frugalEmulator.feed [3]).after 3).step.1 = .error (.numberOutOfRange 1000) ∧
    (frugalEmulator.after 4).machine.RunsDry ∧
    ((frugalEmulator.feed [3]).after 5).machine.pending.length + 1 =
      ((frugalEmulator.after 5).feed [3]).machine.pending.length := by
  have hsteps : ∀ i < 4, ¬ (frugalEmulator.after i).machine.RunsDry := by decide +kernel
  have hfault : (frugalEmulator.after 3).step.1 = .error (.numberOutOfRange 1000) := by
    decide +kernel
  have hdry : (frugalEmulator.after 4).machine.RunsDry := by decide +kernel
  obtain ⟨hafter, hanswers, hdiffer⟩ := feed_early_or_late hsteps [3]
  exact ⟨hsteps, hafter, hfault, (hanswers 3 (by decide)).trans hfault, hdry, hdiffer hdry⟩

end Emulator

end Mailroom
