import Mathlib.Data.List.GetD
import Mailroom.Proofs.Accumulator
import Mailroom.Proofs.Images
import Mailroom.Proofs.Runs
import Mailroom.Proofs.StoredNumbers

/-!
# Programs that can be moved

A program without branches does the same wherever it is loaded, if it keeps its data away
from its own words and from the mailbox behind them.  The counter goes through its words one
by one, so nothing depends on their place; and nothing that the program writes becomes one of
them.

Main definitions:

- `Movable` says that a program does not branch and names no mailbox of its own.
- `Machine.Moved` relates two machines with the same program in different places, and
  `Emulator.Lockstep` two emulators.
- `Fault.moved` is a fault that arises further on.

Main results:

- Theorem `Machine.Moved.execute`: an order does the same in both places.
- Theorem `Machine.Moved.step`: so does a step, and it moves both counters on by one.
- Theorem `Emulator.Abreast.step`: emulators in lockstep answer alike and stay in lockstep.
- Theorem `moved_program_runs_alike` follows them from loading to the end of the run.
-/

namespace Mailroom

/-! ## Orders that keep to their data -/

/-- The words of a program do not branch, and those that name a mailbox name neither one of
the program nor the one behind it, whether it begins at mailbox 0 or at mailbox `k`. -/
structure Movable (words : List Int) (k : Nat) : Prop where
  branchFree : ∀ w ∈ words, ¬ (600 ≤ w ∧ w ≤ 899)
  apart : ∀ w ∈ words, 100 ≤ w → w ≤ 599 →
    ¬ (0 ≤ w % 100 ∧ w % 100 ≤ words.length) ∧
      ¬ ((k : Int) ≤ w % 100 ∧ w % 100 ≤ k + words.length)

/-- The order is no branch, and names no mailbox from 0 to `n` or from `k` to `k + n`. -/
def Order.KeepsApart (n k : Nat) : Order → Prop
  | .plain _ => True
  | .access _ a => n < a.val ∧ (a.val < k ∨ k + n < a.val)
  | .branch _ _ => False

variable {words : List Int} {k : Nat}

/-- The orders of a movable program keep apart from it. -/
theorem Movable.keepsApart_of_mem (h : Movable words k) {order : Order}
    (hmem : order.word ∈ words) : order.KeepsApart words.length k := by
  cases order with
  | plain op => trivial
  | branch op a =>
    rw [Order.word_branch] at hmem
    have hnot := h.branchFree _ hmem
    cases op <;> simp only [BranchOp.base] at hnot <;> omega
  | access op a =>
    rw [Order.word_access] at hmem
    obtain ⟨hhere, hthere⟩ := h.apart _ hmem
      (by cases op <;> simp only [MailboxOp.base] <;> omega)
      (by cases op <;> simp only [MailboxOp.base] <;> omega)
    have hdigits : ((op.base : Int) + a.val) % 100 = a.val := by
      cases op <;> simp only [MailboxOp.base] <;> omega
    rw [hdigits] at hhere hthere
    simp only [Order.KeepsApart]
    omega

/-- So does the order behind the program, which is to stop. -/
theorem Movable.keepsApart (h : Movable words k) {i : Nat} {order : Order}
    (hword : order.word = words.getD i 0) : order.KeepsApart words.length k := by
  by_cases hi : i < words.length
  · rw [List.getD_eq_getElem _ _ hi] at hword
    exact h.keepsApart_of_mem (hword ▸ List.getElem_mem hi)
  · rw [List.getD_eq_default _ _ (Nat.le_of_not_lt hi)] at hword
    obtain rfl : order = .plain .stop :=
      (Option.some.inj (Order.ofWord?_eq_some_iff.mpr hword)).symm
    trivial

/-! ## Faults in another place -/

/-- The fault that arises when the counter is `k` mailboxes further on. -/
def Fault.moved (k : Nat) : Fault → Fault
  | .counterOutOfBounds counter => .counterOutOfBounds (counter + k)
  | .invalidInstruction w (some address) => .invalidInstruction w (some (address + k))
  | f => f

/-- The outcome when the counter is `k` mailboxes further on. -/
def StepOutcome.moved (k : Nat) : StepOutcome → StepOutcome
  | .fault f => .fault (f.moved k)
  | o => o

/-- What a moved step answers. -/
theorem StepOutcome.result_moved (o : StepOutcome) (k : Nat) :
    (o.moved k).result = o.result.mapError (Fault.moved k) := by
  cases o <;> rfl

namespace Machine

/-! ## Machines with the same program in different places -/

/-- Two machines hold the same words from mailbox 0 and from mailbox `k` on, with a 0 behind
them, and the same in all other mailboxes.  Their counters are `k` mailboxes apart, and they
agree on everything else. -/
structure Moved (words : List Int) (k : Nat) (m m' : Machine) : Prop where
  counter : m'.counter = m.counter + k
  acc : m'.acc = m.acc
  zero : m'.zero = m.zero
  positive : m'.positive = m.positive
  halted : m'.halted = m.halted
  pending : m'.pending = m.pending
  here : ∀ a : Address, a.val ≤ words.length → (m.memory.get a).val = words.getD a.val 0
  there : ∀ a : Address, k ≤ a.val → a.val ≤ k + words.length →
    (m'.memory.get a).val = words.getD (a.val - k) 0
  elsewhere : ∀ a : Address, words.length ≤ a.val → a.val < k ∨ k + words.length ≤ a.val →
    m'.memory.get a = m.memory.get a

/-- Two machines do alike: their outcomes differ by the place only, and so do the machines
that they leave. -/
def DoAlike (words : List Int) (k : Nat) (r r' : StepOutcome × Machine) : Prop :=
  r'.1 = r.1.moved k ∧ Moved words k r.2 r'.2

variable {m m' : Machine}

/-- The accumulator is written alike. -/
theorem Moved.accept (h : Moved words k m m') (value : Int) :
    DoAlike words k (m.accept value) (m'.accept value) := by
  by_cases hvalue : value < minAcc ∨ maxAcc < value
  · rw [accept_of_beyond m hvalue, accept_of_beyond m' hvalue]
    exact ⟨rfl, { h with acc := rfl }⟩
  · have hleast : minAcc ≤ value := by omega
    have hgreatest : value ≤ maxAcc := by omega
    rw [accept_of_bounds m hleast hgreatest, accept_of_bounds m' hleast hgreatest]
    exact ⟨rfl, { h with acc := rfl, zero := rfl, positive := rfl }⟩

/-- A mailbox apart from the program is set alike. -/
theorem Moved.set (h : Moved words k m m') {a : Address} (hhere : words.length < a.val)
    (hthere : a.val < k ∨ k + words.length < a.val) (w : Word) :
    Moved words k { m with memory := m.memory.set a w }
      { m' with memory := m'.memory.set a w } := by
  refine { h with here := ?_, there := ?_, elsewhere := ?_ }
  · intro b hb
    have hne : a ≠ b := fun hab => absurd (congrArg Fin.val hab) (by omega)
    rw [Memory.get_set_of_ne _ _ hne, h.here b hb]
  · intro b hleast hgreatest
    have hne : a ≠ b := fun hab => absurd (congrArg Fin.val hab) (by omega)
    rw [Memory.get_set_of_ne _ _ hne, h.there b hleast hgreatest]
  · intro b hleast hgreatest
    by_cases hab : a = b
    · subst hab
      rw [Memory.get_set_self, Memory.get_set_self]
    · rw [Memory.get_set_of_ne _ _ hab, Memory.get_set_of_ne _ _ hab,
        h.elsewhere b hleast hgreatest]

/-- A mailbox apart from the program is written alike. -/
theorem Moved.deposit (h : Moved words k m m') {a : Address} (hhere : words.length < a.val)
    (hthere : a.val < k ∨ k + words.length < a.val) (value : Int) :
    DoAlike words k (m.deposit a value) (m'.deposit a value) := by
  cases hword : Word.ofInt? value with
  | none =>
    simp only [Machine.deposit, Memory.put, hword]
    exact ⟨rfl, h⟩
  | some w =>
    simp only [Machine.deposit, Memory.put, hword]
    exact ⟨rfl, h.set hhere hthere w⟩

/-- An input is read alike. -/
theorem Moved.read (h : Moved words k m m') :
    DoAlike words k (m.plain .read) (m'.plain .read) := by
  cases hpending : m.pending with
  | nil =>
    have hpending' : m'.pending = [] := h.pending.trans hpending
    simp only [plain, hpending, hpending']
    exact ⟨rfl, h⟩
  | cons value rest =>
    have hpending' : m'.pending = value :: rest := h.pending.trans hpending
    have hrest : Moved words k { m with pending := rest } { m' with pending := rest } :=
      { h with pending := rfl }
    simp only [plain, hpending, hpending']
    exact hrest.accept value

/-- An order that keeps apart from the program does the same in both places. -/
theorem Moved.execute (h : Moved words k m m') {order : Order}
    (horder : order.KeepsApart words.length k) :
    DoAlike words k (m.execute order) (m'.execute order) := by
  cases order with
  | branch op a => exact horder.elim
  | access op a =>
    obtain ⟨hhere, hthere⟩ := horder
    have hdata : m'.memory.get a = m.memory.get a :=
      h.elsewhere a (Nat.le_of_lt hhere) (hthere.imp_right Nat.le_of_lt)
    cases op with
    | add =>
      simp only [Machine.execute, access, hdata, h.acc]
      exact h.accept _
    | sub =>
      simp only [Machine.execute, access, hdata, h.acc]
      exact h.accept _
    | load =>
      simp only [Machine.execute, access, hdata]
      exact h.accept _
    | store =>
      simp only [Machine.execute, access, h.acc]
      exact h.deposit hhere hthere _
    | storeAddress =>
      simp only [Machine.execute, access, h.acc]
      exact h.deposit hhere hthere _
  | plain op =>
    cases op with
    | stop => exact ⟨rfl, { h with halted := rfl }⟩
    | read => exact h.read
    | print =>
      refine ⟨?_, h⟩
      simp only [Machine.execute, plain, h.acc]
      rfl

/-- An order that is no branch leaves the counter alone. -/
theorem execute_counter_of_keepsApart {n : Nat} {order : Order} (h : order.KeepsApart n k) :
    (m.execute order).2.counter = m.counter := by
  cases order with
  | branch op a => exact h.elim
  | access op a => cases op <;> simp [Machine.execute, access]
  | plain op =>
    cases op with
    | stop => rfl
    | print => rfl
    | read => cases hpending : m.pending <;> simp [Machine.execute, plain, hpending]

/-! ## One step -/

/-- The next word of the first machine is the next word of the second. -/
theorem Moved.exists_fetch (h : Moved words k m m') {i : Nat} (hcounter : m.counter = i)
    (hi : i ≤ words.length) (hfits : k + words.length ≤ 99) :
    ∃ c c' : Address, m.counter = c.val ∧ m'.counter = c'.val ∧ c'.val = c.val + k ∧
      (m.memory.get c).val = words.getD i 0 ∧ (m'.memory.get c').val = words.getD i 0 := by
  refine ⟨⟨i, by omega⟩, ⟨i + k, by omega⟩, hcounter, ?_, rfl, ?_, ?_⟩
  · rw [h.counter, hcounter]
    rfl
  · exact h.here _ hi
  · have hword := h.there ⟨i + k, by omega⟩ (Nat.le_add_left k i) (by simp only; omega)
    rwa [Nat.add_sub_cancel] at hword

/-- A step does the same in both places, and moves the counter on by one mailbox. -/
theorem Moved.step (h : Moved words k m m') (hmovable : Movable words k)
    (hfits : k + words.length ≤ 99) {i : Nat} (hcounter : m.counter = i)
    (hi : i ≤ words.length) :
    DoAlike words k m.step m'.step ∧ m.step.2.counter = (i + 1 : Nat) := by
  obtain ⟨c, c', hc, hc', hplace, hhere, hthere⟩ := h.exists_fetch hcounter hi hfits
  have hmoved : Moved words k { m with counter := m.counter + 1 }
      { m' with counter := m'.counter + 1 } := by
    refine { h with counter := ?_ }
    simp only [h.counter]
    omega
  have hnext : m.counter + 1 = (i + 1 : Nat) := by
    rw [hcounter]
    rfl
  cases horder : Order.ofWord? (words.getD i 0) with
  | none =>
    have hword := (Order.ofWord?_eq_none_iff _).mp horder
    rw [step_of_noInstruction hc (hhere ▸ hword), step_of_noInstruction hc' (hthere ▸ hword)]
    refine ⟨⟨?_, hmoved⟩, hnext⟩
    simp only [StepOutcome.moved, Fault.moved, hhere, hthere, hplace, Int.natCast_add]
  | some order =>
    have hword := Order.word_of_ofWord? horder
    have hapart := hmovable.keepsApart hword
    rw [step_of_order hc (hword.trans hhere.symm), step_of_order hc' (hword.trans hthere.symm)]
    exact ⟨hmoved.execute hapart, (execute_counter_of_keepsApart hapart).trans hnext⟩

/-- A program that comes to its end stops there. -/
theorem Moved.step_of_end (h : Moved words k m m') (hfits : k + words.length ≤ 99)
    (hcounter : m.counter = words.length) : m.step.1 = .stopped := by
  obtain ⟨c, -, hc, -, -, hhere, -⟩ := h.exists_fetch hcounter (Nat.le_refl _) hfits
  rw [List.getD_eq_default _ _ (Nat.le_refl _)] at hhere
  have hword : (Order.plain .stop).word = (m.memory.get c).val := hhere.symm
  rw [step_of_order hc hword]
  rfl

end Machine

/-! ## Runs -/

namespace Emulator

/-- Two emulators whose machines hold the same program in different places have made the same
steps and printed the same. -/
structure Lockstep (words : List Int) (k : Nat) (e e' : Emulator) : Prop where
  machines : Machine.Moved words k e.machine e'.machine
  steps : e'.steps = e.steps
  outputs : e'.outputs = e.outputs
  delivered : e'.delivered = e.delivered

/-- Two emulators are in lockstep, the first of them before the word with number `i`, and its
accumulator holds a number that it can represent. -/
structure Abreast (words : List Int) (k i : Nat) (e e' : Emulator) : Prop where
  lockstep : Lockstep words k e e'
  counter : e.machine.counter = i
  within : i ≤ words.length
  inRange : e.machine.InRange

variable {e e' : Emulator} {i : Nat}

/-- Emulators whose machines do alike answer alike, and stay in lockstep. -/
theorem Lockstep.step (h : Lockstep words k e e')
    (halike : Machine.DoAlike words k e.machine.step e'.machine.step) :
    e'.step.1 = e.step.1.mapError (Fault.moved k) ∧ Lockstep words k e.step.2 e'.step.2 := by
  obtain ⟨houtcome, hmachines⟩ := halike
  constructor
  · rw [step_result, step_result, houtcome, StepOutcome.result_moved]
  · unfold Emulator.step
    cases hstep : e.machine.step with
    | mk o left =>
      cases hstep' : e'.machine.step with
      | mk o' left' =>
        rw [hstep, hstep'] at houtcome hmachines
        subst houtcome
        cases o with
        | fault f => exact ⟨hmachines, h.steps, h.outputs, h.delivered⟩
        | stopped =>
          exact ⟨hmachines, congrArg (· + 1) h.steps, h.outputs, h.delivered⟩
        | done printed =>
          cases printed with
          | none => exact ⟨hmachines, congrArg (· + 1) h.steps, h.outputs, h.delivered⟩
          | some value =>
            exact ⟨hmachines, congrArg (· + 1) h.steps, congrArg (·.push value) h.outputs,
              congrArg (·.push value) h.delivered⟩

/-- A step of emulators in lockstep answers alike and keeps them in lockstep, and if it goes on
then they come to the next word. -/
theorem Abreast.step (h : Abreast words k i e e') (hmovable : Movable words k)
    (hfits : k + words.length ≤ 99) :
    e'.step.1 = e.step.1.mapError (Fault.moved k) ∧ Lockstep words k e.step.2 e'.step.2 ∧
      (e.step.1 = .ok false → Abreast words k (i + 1) e.step.2 e'.step.2) := by
  have hmachines := h.lockstep.machines
  obtain ⟨halike, hnext⟩ := hmachines.step hmovable hfits h.counter h.within
  obtain ⟨hanswer, hlockstep⟩ := h.lockstep.step halike
  refine ⟨hanswer, hlockstep, fun hgoes => ⟨hlockstep, ?_, ?_, ?_⟩⟩
  · rw [step_machine, hnext]
  · -- behind the last word the machine would have stopped
    have hne : i ≠ words.length := by
      rintro rfl
      have hstopped := hmachines.step_of_end hfits h.counter
      simp [step_result, hstopped, StepOutcome.result] at hgoes
    have hwithin := h.within
    omega
  · rw [step_result] at hgoes
    rw [step_machine]
    obtain ⟨printed, houtcome⟩ := StepOutcome.exists_done_of_result hgoes
    refine h.inRange.act (a := .step) rfl fun v hfault => ?_
    simp [Machine.act, houtcome, StepOutcome.fault?] at hfault

/-- Emulators in lockstep come through their words side by side, as long as the steps go
on. -/
theorem Abreast.after (h : Abreast words k 0 e e') (hmovable : Movable words k)
    (hfits : k + words.length ≤ 99) {j : Nat}
    (hgoes : ∀ i < j, (e.after i).step.1 = .ok false) :
    Abreast words k j (e.after j) (e'.after j) := by
  induction j with
  | zero => exact h
  | succ j ih =>
    have hbefore := ih fun i hi => hgoes i (Nat.lt_succ_of_lt hi)
    rw [after_succ_last, after_succ_last]
    exact (hbefore.step hmovable hfits).2.2 (hgoes j (Nat.lt_succ_self j))

/-- A program without branches fails for a number that the accumulator cannot represent or
for a word that is no order, and for nothing else. -/
theorem Abreast.fault_cases (h : Abreast words k i e e') (hfits : k + words.length ≤ 99)
    {f : Fault} (hfault : e.step.1 = .error f) :
    (∃ value, f = .numberOutOfRange value) ∨
      ∃ w address, f = .invalidInstruction w (some address) := by
  rw [step_result] at hfault
  have houtcome : e.machine.step.1 = .fault f := StepOutcome.eq_fault_of_result hfault
  have htransition := Machine.transition_step e.machine
  rw [houtcome] at htransition
  have hleaves := htransition.faultLeaves
  have hcounter := h.counter
  have hwithin := h.within
  have hrange := h.inRange
  generalize e.machine.step.2 = left at hleaves
  cases hleaves with
  | beyond hbeyond => omega
  | invalid w _ => exact .inr ⟨w, _, rfl⟩
  | rejected value _ => exact .inl ⟨value, rfl⟩
  | rejectedInput value _ _ _ => exact .inl ⟨value, rfl⟩
  | tooWide a hwide =>
    unfold Machine.InRange at hrange
    omega

/-- The run of a program without branches ends with one of its words, or behind them. -/
theorem Abreast.exists_last (h : Abreast words k 0 e e') (hmovable : Movable words k)
    (hfits : k + words.length ≤ 99) :
    ∃ last ≤ words.length, (∀ i < last, (e.after i).step.1 = .ok false) ∧
      (e.after last).step.1 ≠ .ok false := by
  obtain ⟨tried, r, hends⟩ := e.exists_ends (words.length + 1)
  cases hends with
  | halted hlimit hbefore hstop =>
    exact ⟨_, Nat.le_of_lt_succ (hlimit _ rfl), hbefore, by simp [hstop]⟩
  | fault hlimit hbefore hfault =>
    exact ⟨_, Nat.le_of_lt_succ (hlimit _ rfl), hbefore, by simp [hfault]⟩
  | limitReached hlimit hbefore =>
    -- so many steps would lead beyond the word behind the program
    obtain rfl := Option.some.inj hlimit
    exact absurd (h.after hmovable hfits hbefore).within (Nat.not_succ_le_self _)

/-! ## Loading in two places -/

/-- A program of words, loaded at mailbox 0 and started there, and loaded at mailbox `k` and
started there, gives emulators that are in lockstep. -/
theorem exists_abreast (hwords : ∀ w ∈ words, Fits w)
    (hfits : k + words.length ≤ 99) (inputs : Option (List Int)) (limit : Option Int) :
    ∃ e e', (new ⟨words, 0, 0, inputs, limit⟩).outcome = .ok e ∧
      (new ⟨words, k, k, inputs, limit⟩).outcome = .ok e' ∧
      Abreast words k 0 e e' := by
  have hfitsHere : 0 + words.length ≤ 99 := by omega
  obtain ⟨memory, hnew, hget⟩ := exists_new (c := ⟨words, 0, 0, inputs, limit⟩)
    Int.natCast_zero.symm hwords hfitsHere
  obtain ⟨memory', hnew', hget'⟩ := exists_new (c := ⟨words, k, k, inputs, limit⟩) rfl hwords
    hfits
  simp only [Nat.not_lt_zero, if_false, Nat.sub_zero] at hget
  have hleast : (-500 : Int) ≤ 0 := by decide
  have hgreatest : (0 : Int) ≤ 499 := by decide
  refine ⟨_, _, hnew, hnew', ⟨⟨?_, rfl, rfl, rfl⟩, rfl, Nat.zero_le _, hleast, hgreatest⟩⟩
  refine ⟨(Int.zero_add _).symm, rfl, rfl, rfl, rfl, rfl, fun a _ => hget a, ?_, ?_⟩
  · intro a hleast _
    rw [started, hget' a, if_neg (Nat.not_lt_of_le hleast)]
  · intro a hbehind hapart
    apply Word.ext
    rw [started, started, hget a, hget' a, List.getD_eq_default _ _ hbehind]
    rcases hapart with hbelow | habove
    · rw [if_pos hbelow]
    · rw [if_neg (by omega), List.getD_eq_default _ _ (by simp only; omega)]

/-- A program of words without branches, which names neither its own mailboxes nor the one
behind them, is loaded at mailbox 0 and at mailbox `k`, and started with the same inputs.
Both runs go on up to the same step, which stops or fails in both of them, within as many
steps as there are words and one.  If it fails, then for the same number or the same word,
`k` mailboxes further on.  After every number of steps up to that one the counters are `k`
mailboxes apart, and the accumulators, the flags, the inputs, the outputs and all mailboxes
apart from the two programs are the same. -/
theorem moved_program_runs_alike (hwords : ∀ w ∈ words, Fits w)
    (hfits : k + words.length ≤ 99) (hmovable : Movable words k)
    (inputs : Option (List Int)) (limit : Option Int) :
    ∃ e e', (new ⟨words, 0, 0, inputs, limit⟩).outcome = .ok e ∧
      (new ⟨words, k, k, inputs, limit⟩).outcome = .ok e' ∧
      ∃ last ≤ words.length,
        (∀ i < last, (e.after i).step.1 = .ok false ∧ (e'.after i).step.1 = .ok false) ∧
        (e.after last).step.1 ≠ .ok false ∧
        (e'.after last).step.1 = (e.after last).step.1.mapError (Fault.moved k) ∧
        (∀ f, (e.after last).step.1 = .error f →
          (∃ value, f = .numberOutOfRange value) ∨
            ∃ w address, f = .invalidInstruction w (some address)) ∧
        ∀ i ≤ last + 1, Lockstep words k (e.after i) (e'.after i) := by
  obtain ⟨e, e', hnew, hnew', hstart⟩ := exists_abreast hwords hfits inputs limit
  obtain ⟨last, hlast, hbefore, hend⟩ := hstart.exists_last hmovable hfits
  have habreast : ∀ i ≤ last, Abreast words k i (e.after i) (e'.after i) := fun i hi =>
    hstart.after hmovable hfits fun j hj => hbefore j (Nat.lt_of_lt_of_le hj hi)
  refine ⟨e, e', hnew, hnew', last, hlast, ?_, hend, ?_, ?_, ?_⟩
  · intro i hi
    obtain ⟨hanswer, -⟩ := (habreast i (Nat.le_of_lt hi)).step hmovable hfits
    rw [hbefore i hi] at hanswer
    exact ⟨hbefore i hi, hanswer⟩
  · exact ((habreast last (Nat.le_refl _)).step hmovable hfits).1
  · intro f hfault
    exact (habreast last (Nat.le_refl _)).fault_cases hfits hfault
  · intro i hi
    rcases Nat.lt_or_eq_of_le hi with hlt | rfl
    · exact (habreast i (Nat.le_of_lt_succ hlt)).lockstep
    · rw [after_succ_last, after_succ_last]
      exact ((habreast last (Nat.le_refl _)).step hmovable hfits).2.1

/-- A program with a word behind its orders that is no order, in two places that overlap: it
fails over this word in both of them. -/
theorem moved_program_runs_alike_overlapping :
    (∀ w ∈ [901, 350, 902, 150, 150, -7], Fits w) ∧
    Movable [901, 350, 902, 150, 150, -7] 4 ∧
    ∃ e e', (new ⟨[901, 350, 902, 150, 150, -7], 0, 0, some [100], none⟩).outcome = .ok e ∧
      (new ⟨[901, 350, 902, 150, 150, -7], 4, 4, some [100], none⟩).outcome = .ok e' ∧
      (e.after 5).step.1 = .error (.invalidInstruction (-7) (some 5)) ∧
      (e'.after 5).step.1 = .error (.invalidInstruction (-7) (some 9)) ∧
      Lockstep [901, 350, 902, 150, 150, -7] 4 (e.after 6) (e'.after 6) := by
  have hwords : ∀ w ∈ [901, 350, 902, 150, 150, -7], Fits w := by decide
  have hmovable : Movable [901, 350, 902, 150, 150, -7] 4 := ⟨by decide, by decide⟩
  obtain ⟨e, e', hnew, hnew', last, -, hbefore, hend, hanswer, -, hlockstep⟩ :=
    moved_program_runs_alike hwords (by decide) hmovable (some [100]) none
  have hgo : (new ⟨[901, 350, 902, 150, 150, -7], 0, 0, some [100], none⟩).outcome.map
      (fun e => (List.range 5).all fun i => (e.after i).step.1 = .ok false) = .ok true := by
    decide +kernel
  have hfail : (new ⟨[901, 350, 902, 150, 150, -7], 0, 0, some [100], none⟩).outcome.map
      (fun e => (e.after 5).step.1) = .ok (.error (.invalidInstruction (-7) (some 5))) := by
    decide +kernel
  rw [hnew] at hgo hfail
  have hgoes : ∀ i < 5, (e.after i).step.1 = .ok false := fun i hi =>
    of_decide_eq_true (List.all_eq_true.mp (Except.ok.inj hgo) i (List.mem_range.mpr hi))
  have hfault : (e.after 5).step.1 = .error (.invalidInstruction (-7) (some 5)) :=
    Except.ok.inj hfail
  have hlast : last = 5 := by
    rcases Nat.lt_trichotomy last 5 with hlt | rfl | hgt
    · exact absurd (hgoes last hlt) hend
    · rfl
    · have hgoesOn := (hbefore 5 hgt).1
      rw [hfault] at hgoesOn
      contradiction
  subst hlast
  rw [hfault] at hanswer
  exact ⟨hwords, hmovable, e, e', hnew, hnew', hfault, hanswer, hlockstep 6 (by decide)⟩

end Emulator

end Mailroom
