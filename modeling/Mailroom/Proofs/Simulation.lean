import Mailroom.Proofs.Generation
import Mailroom.Proofs.Loading
import Mailroom.Proofs.SourceRun
import Mailroom.Proofs.Transition
import Mathlib.Data.List.GetD

/-!
# Assembled programs mean what their sources say

The words of a program and its source are run side by side.  As long as the run stays
inside the program and does not overwrite it, both are in the same state after every
number of steps, and every step answers the same, a failing one included.

Main definitions:

- `Agrees` relates a state of the source interpreter and a state of the machine.
- `HoldsProgram` says that the mailboxes of the program have not been overwritten.

Main results:

- Theorem `execute_answers`: an order does what its instruction says.
- Theorem `step_answers`: a step does what the instruction with that number says.
- Theorem `run_agrees`: several steps of the emulator agree with those of the source.
- Theorem `assembled_run_agrees`: so do those of a program that is assembled and loaded.
-/

namespace Mailroom

/-! ## Agreement -/

/-- The machine is in the state of a source program, and has printed the same. -/
structure Agrees (s : SourceState) (m : Machine) (printed : List Int) : Prop where
  counter : m.counter = s.next
  acc : m.acc = s.acc
  zero : m.zero = s.zero
  positive : m.positive = s.positive
  mailboxes : ∀ a, (m.memory.get a).val = s.mailboxes a
  pending : m.pending = s.pending
  printed : printed = s.printed

/-- A source program and a machine that have printed the same answer the same, and agree
afterwards. -/
def Answers (printed : List Int) (source : Except Fault Bool × SourceState)
    (target : StepOutcome × Machine) : Prop :=
  source.1 = target.1.result ∧ Agrees source.2 target.2 (printed ++ target.1.printed)

/-- The mailboxes from 0 on hold the words of the program. -/
def HoldsProgram (words : List Int) (s : SourceState) : Prop :=
  ∀ a : Address, a.val < words.length → s.mailboxes a = words.getD a.val 0

variable {s : SourceState} {m : Machine} {printed : List Int}

/-! ## The operations -/

/-- States that agree answer alike with an outcome that prints nothing. -/
theorem Agrees.answers (h : Agrees s m printed) (o : StepOutcome) (ho : o.printed = []) :
    Answers printed (o.result, s) (o, m) := by
  refine ⟨rfl, ?_⟩
  rw [ho, List.append_nil]
  exact h

/-- The accumulator is written alike. -/
theorem Agrees.accept (h : Agrees s m printed) (value : Int) :
    Answers printed (s.accept value) (m.accept value) := by
  by_cases hvalue : -500 ≤ value ∧ value ≤ 499
  · rw [Machine.accept_of_bounds m hvalue.1 hvalue.2, SourceState.accept, if_pos hvalue]
    have hwritten : Agrees
        { s with acc := value, zero := decide (value = 0), positive := decide (0 ≤ value) }
        { m with acc := value, zero := decide (value = 0), positive := decide (0 ≤ value) }
        printed :=
      { h with acc := rfl, zero := rfl, positive := rfl }
    exact hwritten.answers (.done none) rfl
  · have hbeyond : value < Machine.minAcc ∨ Machine.maxAcc < value := by
      simp only [Machine.minAcc, Machine.maxAcc]
      omega
    rw [Machine.accept_of_beyond m hbeyond, SourceState.accept, if_neg hvalue]
    have hwritten : Agrees { s with acc := value } { m with acc := value } printed :=
      { h with acc := rfl }
    exact hwritten.answers (.fault (.numberOutOfRange value)) rfl

/-- A mailbox that is set holds the number, and the others hold what they held. -/
theorem Agrees.set (h : Agrees s m printed) (a : Address) (w : Word) :
    Agrees { s with mailboxes := Function.update s.mailboxes a w.val }
      { m with memory := m.memory.set a w } printed := by
  have hmailboxes : ∀ b, ((m.memory.set a w).get b).val =
      Function.update s.mailboxes a w.val b := by
    intro b
    by_cases hb : b = a
    · subst hb
      simp
    · rw [Function.update_of_ne hb, Memory.get_set_of_ne _ _ (Ne.symm hb), h.mailboxes]
  exact { h with mailboxes := hmailboxes }

/-- A mailbox is written alike. -/
theorem Agrees.put (h : Agrees s m printed) (a : Address) (value : Int) :
    Answers printed (s.put a value) (m.deposit a value) := by
  cases hword : Word.ofInt? value with
  | none =>
    have hbeyond := (Word.ofInt?_eq_none_iff value).mp hword
    have hnot : ¬ (-32768 ≤ value ∧ value ≤ 32767) := by omega
    simp only [Machine.deposit, Memory.put, hword, SourceState.put, if_neg hnot]
    exact h.answers (.fault (.wordTooWide a.val value)) rfl
  | some w =>
    rcases Word.ofInt?_eq_some_iff.mp hword with rfl
    simp only [Machine.deposit, Memory.put, hword, SourceState.put,
      if_pos (And.intro w.least w.greatest)]
    exact (h.set a w).answers (.done none) rfl

/-- An operation on a mailbox is carried out alike. -/
theorem Agrees.access (h : Agrees s m printed) (a : Address) (op : MailboxOp) :
    Answers printed (s.access a op) (m.access a op) := by
  cases op with
  | add =>
    rw [SourceState.access, Machine.access, h.acc, h.mailboxes]
    exact h.accept _
  | sub =>
    rw [SourceState.access, Machine.access, h.acc, h.mailboxes]
    exact h.accept _
  | store =>
    rw [SourceState.access, Machine.access, h.acc]
    exact h.put a _
  | storeAddress =>
    rw [SourceState.access, Machine.access, h.acc]
    exact h.put a _
  | load =>
    rw [SourceState.access, Machine.access, h.mailboxes]
    exact h.accept _

/-- An input is read alike. -/
theorem Agrees.readInput (h : Agrees s m printed) :
    Answers printed s.readInput (m.plain .read) := by
  cases hpending : s.pending with
  | nil =>
    have hmachine : m.pending = [] := h.pending.trans hpending
    simp only [SourceState.readInput, Machine.plain, hpending, hmachine]
    exact h.answers (.done none) rfl
  | cons value rest =>
    have hmachine : m.pending = value :: rest := h.pending.trans hpending
    simp only [SourceState.readInput, Machine.plain, hpending, hmachine]
    have hrest : Agrees { s with pending := rest } { m with pending := rest } printed :=
      { h with pending := rfl }
    exact hrest.accept value

/-- A jump is made alike, to the mailbox with the number of the instruction. -/
theorem Agrees.jump (h : Agrees s m printed) (condition : Bool) (target : Address) :
    Answers printed (.ok false, if condition then { s with next := target.val } else s)
      (m.jump condition target) := by
  cases condition with
  | true =>
    rw [Machine.jump_of_true rfl, if_pos rfl]
    have hjumped : Agrees { s with next := target.val } { m with counter := target.val }
        printed :=
      { h with counter := rfl }
    exact hjumped.answers (.done none) rfl
  | false =>
    rw [Machine.jump_of_false rfl]
    exact h.answers (.done none) rfl

/-- A branch is taken on the same flags. -/
theorem Agrees.execute_branch (h : Agrees s m printed) (op : BranchOp) (target : Address) :
    m.execute (.branch op target) = m.jump (s.takes op) target := by
  cases op with
  | always => rfl
  | ifZero => rw [Machine.execute, SourceState.takes, h.zero]
  | ifPositive => rw [Machine.execute, SourceState.takes, h.positive]

/-! ## One step -/

variable {tokens : List Token}

/-- An order does what the instruction with its operation and mailbox says. -/
theorem Agrees.execute (h : Agrees s m printed) {i : Instruction} {order : Order}
    (haddresses : Addresses tokens i order.address) (hopcode : order.opcode = i.opcode) :
    ∃ r, s.execute tokens i = some r ∧ Answers printed r (m.execute order) := by
  generalize hn : order.address = n at haddresses
  cases haddresses with
  | plain op remark =>
    cases order with
    | access op' a => contradiction
    | branch op' a => contradiction
    | plain op' =>
      cases hopcode
      cases op with
      | stop =>
        have hstopped : Agrees s { m with halted := true } printed := { h with }
        exact ⟨_, rfl, hstopped.answers .stopped rfl⟩
      | read => exact ⟨_, rfl, h.readInput⟩
      | print =>
        have hprinted : printed ++ [m.acc] = s.printed ++ [s.acc] := by
          rw [h.printed, h.acc]
        exact ⟨_, rfl, rfl, { h with printed := hprinted }⟩
  | access op hle =>
    cases order with
    | plain op' => contradiction
    | branch op' a => contradiction
    | access op' a =>
      cases hopcode
      subst hn
      refine ⟨s.access a op, ?_, h.access a op⟩
      rw [SourceState.execute, Order.address, Address.ofInt?_val, Option.map_some]
  | branch op hbinds hle =>
    cases order with
    | plain op' => contradiction
    | access op' a => contradiction
    | branch op' a =>
      cases hopcode
      subst hn
      refine ⟨_, ?_, h.execute_branch op a ▸ h.jump (s.takes op) a⟩
      have htarget := lastLabelled?_eq_some_iff.mpr hbinds
      rw [SourceState.execute, htarget]
      cases s.takes op <;> rfl

/-- A step does what the instruction with that number says, if the mailboxes of the program
still hold it. -/
theorem Agrees.step (h : Agrees s m printed) {words : List Int} (hlength : words.length ≤ 99)
    (hwords : List.Forall₂ (ReadsBack tokens) (instructionsOf tokens) words)
    (hholds : HoldsProgram words s) {i : Located Instruction}
    (hi : (instructionsOf tokens)[s.next]? = some i) :
    ∃ r, s.step tokens = some r ∧ Answers printed r m.step := by
  rcases List.getElem?_eq_some_iff.mp hi with ⟨hnext, rfl⟩
  have hnextWord : s.next < words.length := hwords.length_eq ▸ hnext
  rcases hwords.get hnext hnextWord with ⟨n, order, haddresses, hread, hopcode, rfl⟩
  have hcounter : m.counter = (⟨s.next, by omega⟩ : Address).val := h.counter
  have hword : order.word = (m.memory.get ⟨s.next, by omega⟩).val := by
    rw [h.mailboxes, hholds _ hnextWord, List.getD_eq_getElem _ _ hnextWord]
    exact Order.word_of_ofWord? hread
  have hmoved : Agrees { s with next := s.next + 1 } { m with counter := m.counter + 1 }
      printed :=
    { h with counter := by rw [h.counter]; rfl }
  rw [Machine.step_of_order hcounter hword, SourceState.step, hi, Option.bind_some]
  exact hmoved.execute haddresses hopcode

/-! ## The program stays as it is -/

/-- Writing the accumulator leaves the mailboxes alone. -/
@[simp] theorem SourceState.accept_mailboxes (s : SourceState) (value : Int) :
    (s.accept value).2.mailboxes = s.mailboxes := by
  unfold accept
  split <;> rfl

/-- Reading an input leaves the mailboxes alone. -/
@[simp] theorem SourceState.readInput_mailboxes (s : SourceState) :
    s.readInput.2.mailboxes = s.mailboxes := by
  unfold readInput
  split <;> simp

/-- Writing a mailbox leaves the other mailboxes alone. -/
theorem SourceState.put_mailboxes_of_ne (s : SourceState) {a b : Address} (h : b ≠ a)
    (value : Int) : (s.put a value).2.mailboxes b = s.mailboxes b := by
  unfold put
  split
  · exact Function.update_of_ne h _ _
  · rfl

/-- An instruction that does not store below `n` leaves the mailboxes below `n` alone. -/
theorem SourceState.execute_mailboxes {s : SourceState} {i : Instruction}
    {r : Except Fault Bool × SourceState} {n : Nat} {b : Address}
    (hexecute : s.execute tokens i = some r) (hstores : storesBelow n i = false)
    (hb : b.val < n) : r.2.mailboxes b = s.mailboxes b := by
  cases i with
  | plain op remark =>
    cases op <;> cases hexecute <;> simp
  | access op address =>
    rcases Option.map_eq_some_iff.mp hexecute with ⟨a, ha, rfl⟩
    rcases Address.ofInt?_eq_some_iff.mp ha with rfl
    -- a stored mailbox is not below `n`, and so it is not `b`
    have hne : n ≤ a.val → b ≠ a := by
      rintro hle rfl
      omega
    cases op with
    | add => simp [access]
    | sub => simp [access]
    | load => simp [access]
    | store =>
      simp only [storesBelow, decide_eq_false_iff_not] at hstores
      exact s.put_mailboxes_of_ne (hne (by omega)) _
    | storeAddress =>
      simp only [storesBelow, decide_eq_false_iff_not] at hstores
      exact s.put_mailboxes_of_ne (hne (by omega)) _
  | branch op x =>
    rw [execute] at hexecute
    split at hexecute
    · rcases Option.map_eq_some_iff.mp hexecute with ⟨target, -, rfl⟩
      rfl
    · cases hexecute
      rfl

/-- A step that does not store into the program leaves the program as it is. -/
theorem HoldsProgram.step {words : List Int} (hholds : HoldsProgram words s)
    {i : Located Instruction} (hi : (instructionsOf tokens)[s.next]? = some i)
    (hstores : SourceState.storesBelow words.length i.value = false)
    {r : Except Fault Bool × SourceState} (hstep : s.step tokens = some r) :
    HoldsProgram words r.2 := by
  intro a ha
  rw [SourceState.step, hi, Option.bind_some] at hstep
  rw [SourceState.execute_mailboxes hstep hstores ha]
  exact hholds a ha

/-! ## Many steps -/

/-- An emulator that agrees with a source program goes on to agree with it, and every step
on the way answers alike. -/
theorem run_agrees {e : Emulator} {words : List Int} (hlength : words.length ≤ 99)
    (hwords : List.Forall₂ (ReadsBack tokens) (instructionsOf tokens) words) (k : Nat)
    (h : Agrees s e.machine e.outputs.toList) (hholds : HoldsProgram words s)
    (hconfined : s.confined tokens k = true) :
    (∃ left, s.after tokens k = some left ∧
        Agrees left (e.after k).machine (e.after k).outputs.toList) ∧
      ∀ j < k, ∃ between, s.after tokens j = some between ∧
        (between.step tokens).map (·.1) = some (e.after j).step.1 := by
  induction k generalizing s e with
  | zero => exact ⟨⟨s, rfl, h⟩, fun j hj => absurd hj (Nat.not_lt_zero j)⟩
  | succ k ih =>
    rcases SourceState.confined_succ_iff.mp hconfined with ⟨⟨i, hi, hstores⟩, hrest⟩
    rw [hwords.length_eq] at hstores
    rcases h.step hlength hwords hholds hi with ⟨r, hstep, hresult, hagrees⟩
    have hagrees : Agrees r.2 e.step.2.machine e.step.2.outputs.toList := by
      rw [Emulator.step_machine, Emulator.step_outputs]
      exact hagrees
    obtain ⟨⟨left, hleft, hlast⟩, hbetween⟩ :=
      ih hagrees (hholds.step hi hstores hstep) (hrest r hstep)
    rw [Emulator.after_succ]
    refine ⟨⟨left, ?_, hlast⟩, ?_⟩
    · rw [SourceState.after, hstep, Option.bind_some, hleft]
    · intro j hj
      cases j with
      | zero =>
        refine ⟨s, rfl, ?_⟩
        rw [hstep, Option.map_some, Emulator.after_zero, Emulator.step_result, hresult]
      | succ j =>
        rcases hbetween j (Nat.lt_of_succ_lt_succ hj) with ⟨between, hafter, hsame⟩
        rw [Emulator.after_succ]
        refine ⟨between, ?_, hsame⟩
        rw [SourceState.after, hstep, Option.bind_some, hafter]

/-! ## Assembled programs -/

/-- A loaded program agrees with its source before the first step. -/
theorem initial_agrees {words : List Int} {memory : Memory} (inputs : Option (List Int))
    (limit : Option Int)
    (hget : ∀ a : Address, (memory.get a).val =
      if a.val < 0 then 0 else words.getD (a.val - 0) 0) :
    Agrees (SourceState.initial words inputs)
      (Emulator.started ⟨words, 0, 0, inputs, limit⟩ memory) [] where
  counter := rfl
  acc := rfl
  zero := rfl
  positive := rfl
  mailboxes a := hget a
  pending := rfl
  printed := rfl

/-- A text that assembles to at most 99 words is loaded, and for every number of steps in
which its source stays inside the program and does not overwrite it, the machine agrees
with the source and has answered every step alike. -/
theorem assembled_run_agrees {strict : Bool} {file source : String} {words : List Int}
    (inputs : Option (List Int)) (limit : Option Int) (k : Nat)
    (hassemble : (assemble strict file source).outcome = .ok words)
    (hlength : words.length ≤ 99)
    (hconfined : (SourceState.initial words inputs).confined
      (Reading.ofSource file 1 source).tokens k = true) :
    ∃ e, (Emulator.new ⟨words, 0, 0, inputs, limit⟩).outcome = .ok e ∧
      (∃ s, (SourceState.initial words inputs).after
          (Reading.ofSource file 1 source).tokens k = some s ∧
        Agrees s (e.after k).machine (e.after k).outputs.toList) ∧
      ∀ j < k, ∃ s, (SourceState.initial words inputs).after
          (Reading.ofSource file 1 source).tokens j = some s ∧
        (s.step (Reading.ofSource file 1 source).tokens).map (·.1) =
          some (e.after j).step.1 := by
  have hwords := Assembler.readsBack_of_generate (Assembler.generate_of_assemble hassemble)
  have hbounds : ∀ v ∈ words, -32768 ≤ v ∧ v ≤ 32767 := by
    intro v hv
    have := Assembler.bounds_of_readsBack hwords v hv
    omega
  obtain ⟨memory, hnew, hget⟩ := Emulator.exists_new (c := ⟨words, 0, 0, inputs, limit⟩)
    Int.natCast_zero.symm hbounds (by rw [Nat.zero_add]; exact hlength)
  refine ⟨_, hnew, ?_⟩
  exact run_agrees hlength hwords k (initial_agrees inputs limit hget) (fun _ _ => rfl)
    hconfined

/-- A source with two labels of one name, one of them behind another label.  It adds its
own first word to the input. -/
def echoSource : String :=
  ".start\n.loop\nREAD\nadd 0\n.loop\nb loop"

/-- With an input that the accumulator cannot represent its first two steps fail, and the
run agrees with the source all the same. -/
theorem assembled_run_agrees_after_faults :
    (assemble false "echo" echoSource).outcome = .ok [901, 100, 602] ∧
    [901, 100, 602].length ≤ 99 ∧
    (SourceState.initial [901, 100, 602] (some [40000])).confined
      (Reading.ofSource "echo" 1 echoSource).tokens 4 = true ∧
    ∃ e, (Emulator.new ⟨[901, 100, 602], 0, 0, some [40000], none⟩).outcome = .ok e ∧
      (∃ s, (SourceState.initial [901, 100, 602] (some [40000])).after
          (Reading.ofSource "echo" 1 echoSource).tokens 4 = some s ∧
        Agrees s (e.after 4).machine (e.after 4).outputs.toList) ∧
      ∀ j < 4, ∃ s, (SourceState.initial [901, 100, 602] (some [40000])).after
          (Reading.ofSource "echo" 1 echoSource).tokens j = some s ∧
        (s.step (Reading.ofSource "echo" 1 echoSource).tokens).map (·.1) =
          some (e.after j).step.1 := by
  have hassemble : (assemble false "echo" echoSource).outcome = .ok [901, 100, 602] := by
    decide +kernel
  have hconfined : (SourceState.initial [901, 100, 602] (some [40000])).confined
      (Reading.ofSource "echo" 1 echoSource).tokens 4 = true := by
    decide +kernel
  exact ⟨hassemble, by decide, hconfined,
    assembled_run_agrees (some [40000]) none 4 hassemble (by decide) hconfined⟩

end Mailroom
