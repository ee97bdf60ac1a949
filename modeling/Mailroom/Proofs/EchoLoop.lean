import Mailroom.Proofs.CanonicalText
import Mailroom.Proofs.InBasket
import Mailroom.Proofs.OutBasket

/-!
# A loop that ends with its input

A program that prints its input values one by one and leaves its loop at the first 0.  As
every group of input values is followed by a 0, the loop comes to its end also when no value
is 0.

Main definitions:

- `echoProgram` is the program, and `echoWords` are its words.
- `Echoes` says which values go round the loop, and `echoed` takes those at the beginning of
  the input.
- `Machine.AtLoop` is the invariant of the loop.
- `Emulator.Reaches` joins steps that go on.

Main results:

- Theorem `Emulator.reaches_round`: one round takes four steps, prints one value and comes
  back to the invariant.
- Theorem `Emulator.exists_reaches_rounds`: so do several rounds.
- Theorem `Emulator.echo_loop_ends`: the program prints the values up to the first that does
  not go round the loop, and there it stops or fails.
-/

namespace Mailroom

open Text

/-! ## The program -/

/-- A program that prints its input values up to the first 0. -/
def echoProgram : List Statement :=
  [.label "loop", .instruction (.plain .read none), .instruction (.branch .ifZero "done"),
    .instruction (.plain .print none), .instruction (.branch .always "loop"), .label "done",
    .instruction (.plain .stop none)]

/-- The program as a source text. -/
def echoText : String :=
  "\n".intercalate (echoProgram.map Statement.text)

example : echoText = ".loop\nread\nbz done\nprint\nb loop\n.done\nstop" := by decide

/-- The words of the program. -/
def echoWords : List Int :=
  [901, 704, 902, 600, 0]

/-- The statements of the program are read back from their lines. -/
theorem sayable_of_mem_echoProgram : ∀ s ∈ echoProgram, s.Sayable := by
  have hlabel : ∀ x ∈ ["loop", "done"], IsName x ∧ foldedName x = x ∧ ',' ∉ x.toList := by
    intro x hx
    have hx : x = "loop" ∨ x = "done" := by simpa using hx
    rcases hx with rfl | rfl
    · exact ⟨isName_of_all (by decide) (by decide), by decide +kernel, by decide⟩
    · exact ⟨isName_of_all (by decide) (by decide), by decide +kernel, by decide⟩
  have hbranch : ∀ op x, x ∈ ["loop", "done"] →
      Statement.Sayable (.instruction (.branch op x)) := by
    intro op x hx
    obtain ⟨hname, -, hcomma⟩ := hlabel x hx
    exact .instruction (.branch op (hname.isOperand hcomma)
      (fun hmem => (hname.field _ hmem).2 rfl) hname.inline.not_mem.1)
  intro s hs
  simp only [echoProgram, List.mem_cons, List.not_mem_nil, or_false] at hs
  rcases hs with rfl | rfl | rfl | rfl | rfl | rfl | rfl
  · exact .label (hlabel "loop" (by simp)).1 (hlabel "loop" (by simp)).2.1
  · exact .instruction (.plain .read)
  · exact hbranch .ifZero "done" (by simp)
  · exact .instruction (.plain .print)
  · exact hbranch .always "loop" (by simp)
  · exact .label (hlabel "done" (by simp)).1 (hlabel "done" (by simp)).2.1
  · exact .instruction (.plain .stop)

/-- The program is assembled to its words under every file name. -/
theorem assemble_echoText (strict : Bool) (file : String) :
    (assemble strict file echoText).outcome = .ok echoWords := by
  have hread := Reading.ofSource_texts file 1 sayable_of_mem_echoProgram
  have hsame : (Statement.onLines file 1 echoProgram).map Token.statement =
      (Statement.onLines "echo" 1 echoProgram).map Token.statement := by
    rw [Statement.map_statement_onLines, Statement.map_statement_onLines]
  have halike := ((Assembler.new strict).generate_of_statements hsame).1
  have hwords : ((Assembler.new strict).generate
      (Statement.onLines "echo" 1 echoProgram)).2.outcome = .ok echoWords := by
    cases strict <;> decide +kernel
  rw [assemble, echoText, Assembler.outcome_of_reading _ hread]
  exact (ok_iff_of_mapError_eq halike echoWords).mpr hwords

/-! ## The values that go round the loop -/

/-- A value goes round the loop when it is not 0 and the accumulator can represent it. -/
def Echoes (value : Int) : Prop :=
  value ≠ 0 ∧ -500 ≤ value ∧ value ≤ 499

instance : DecidablePred Echoes :=
  fun value => inferInstanceAs (Decidable (value ≠ 0 ∧ -500 ≤ value ∧ value ≤ 499))

/-- The values before the first that does not go round the loop. -/
def echoed (values : List Int) : List Int :=
  values.takeWhile (fun value => decide (Echoes value))

/-- All values before that one go round the loop. -/
theorem echoes_of_mem_echoed {values : List Int} {value : Int} (h : value ∈ echoed values) :
    Echoes value :=
  of_decide_eq_true (List.mem_takeWhile_imp (p := fun value => decide (Echoes value)) h)

/-- The loop is left without a failure: all values go round it, or the first that does not is
a 0. -/
def LeavesLoop (values : List Int) : Prop :=
  echoed values = values ∨ ∃ rest, values = echoed values ++ 0 :: rest

/-- Otherwise the first value that does not go round the loop is one that the accumulator
cannot represent. -/
theorem exists_rejected {values : List Int} (h : ¬ LeavesLoop values) :
    ∃ value rest, values = echoed values ++ value :: rest ∧ (value < -500 ∨ 499 < value) := by
  let goesRound : Int → Bool := fun value => decide (Echoes value)
  have hsplit : values = echoed values ++ values.dropWhile goesRound :=
    List.takeWhile_append_dropWhile.symm
  have hhead := List.head?_dropWhile_not goesRound values
  cases hrest : values.dropWhile goesRound with
  | nil =>
    rw [hrest, List.append_nil] at hsplit
    exact absurd (.inl hsplit.symm) h
  | cons value rest =>
    rw [hrest] at hsplit hhead
    have hstays : ¬ Echoes value := of_decide_eq_false hhead
    have hne : value ≠ 0 := by
      rintro rfl
      exact h (.inr ⟨rest, hsplit⟩)
    refine ⟨value, rest, hsplit, ?_⟩
    unfold Echoes at hstays
    omega

/-! ## The invariant of the loop -/

/-- The mailboxes hold the program from the first one on. -/
def HoldsEcho (memory : Memory) : Prop :=
  ∀ a : Address, (memory.get a).val = echoWords.getD a.val 0

namespace Machine

variable {m : Machine} {pending rest : List Int} {value : Int}

/-- The machine is at the beginning of the loop, with the given values to read. -/
structure AtLoop (m : Machine) (pending : List Int) : Prop where
  memory : HoldsEcho m.memory
  counter : m.counter = 0
  pending : m.pending = pending

/-- The next order is the one in the program. -/
theorem nextOrder?_of_holdsEcho (h : HoldsEcho m.memory) {c : Address}
    (hcounter : m.counter = c.val) :
    m.nextOrder? = Order.ofWord? (echoWords.getD c.val 0) := by
  rw [nextOrder?, hcounter, Address.ofInt?_val, Option.bind_some, h c]

/-- At the beginning of the loop the first value is read. -/
theorem AtLoop.step_eq (h : m.AtLoop (value :: rest)) :
    m.step = { m with counter := 1, pending := rest }.accept value := by
  have hread := nextOrder?_of_holdsEcho h.memory (c := 0) h.counter
  rw [step_of_read_cons hread h.pending, h.counter]
  rfl

/-- Behind the order to read, a 0 leads out of the loop. -/
theorem step_of_zero (hmemory : HoldsEcho m.memory) (hcounter : m.counter = 1)
    (hzero : m.zero = true) : m.step = (.done none, { m with counter := 4 }) := by
  have hbranch := nextOrder?_of_holdsEcho hmemory (c := 1) hcounter
  rw [step_of_nextOrder? hbranch]
  exact jump_of_true hzero 4

/-- Behind the order to read, every other value stays in the loop. -/
theorem step_of_not_zero (hmemory : HoldsEcho m.memory) (hcounter : m.counter = 1)
    (hzero : m.zero = false) : m.step = (.done none, { m with counter := 2 }) := by
  have hbranch := nextOrder?_of_holdsEcho hmemory (c := 1) hcounter
  rw [step_of_nextOrder? hbranch, hcounter]
  exact jump_of_false hzero 4

/-- The accumulator is printed. -/
theorem step_of_echo (hmemory : HoldsEcho m.memory) (hcounter : m.counter = 2) :
    m.step = (.done (some m.acc), { m with counter := 3 }) := by
  have hprint := nextOrder?_of_holdsEcho hmemory (c := 2) hcounter
  rw [step_of_print hprint, hcounter]
  rfl

/-- The loop begins anew. -/
theorem step_of_again (hmemory : HoldsEcho m.memory) (hcounter : m.counter = 3) :
    m.step = (.done none, { m with counter := 0 }) := by
  have hbranch := nextOrder?_of_holdsEcho hmemory (c := 3) hcounter
  rw [step_of_nextOrder? hbranch]
  rfl

/-- Behind the loop the machine stops. -/
theorem step_of_end (hmemory : HoldsEcho m.memory) (hcounter : m.counter = 4) :
    m.step.1 = .stopped := by
  have hstop := nextOrder?_of_holdsEcho hmemory (c := 4) hcounter
  rw [step_of_nextOrder? hstop]
  rfl

end Machine

/-! ## Steps that go on -/

namespace Emulator

variable {e middle left : Emulator} {j k : Nat}

/-- In `k` steps that go on, one emulator becomes another. -/
structure Reaches (e : Emulator) (k : Nat) (left : Emulator) : Prop where
  after_eq : e.after k = left
  goesOn : ∀ i < k, (e.after i).step.1 = .ok false

/-- Without a step an emulator stays as it is. -/
theorem Reaches.refl (e : Emulator) : e.Reaches 0 e :=
  ⟨rfl, fun i hi => absurd hi (Nat.not_lt_zero i)⟩

/-- Steps after steps. -/
theorem Reaches.trans (hfirst : e.Reaches j middle) (hsecond : middle.Reaches k left) :
    e.Reaches (j + k) left := by
  refine ⟨by rw [after_add, hfirst.after_eq, hsecond.after_eq], fun i hi => ?_⟩
  by_cases hij : i < j
  · exact hfirst.goesOn i hij
  · obtain ⟨n, rfl⟩ := Nat.exists_eq_add_of_le (Nat.le_of_not_lt hij)
    rw [after_add, hfirst.after_eq]
    exact hsecond.goesOn n (by omega)

/-- A step of the machine that goes on is a step of its emulator. -/
theorem reaches_of_step {printed : Option Int} {m : Machine}
    (h : e.machine.step = (.done printed, m)) :
    e.Reaches 1 (({ e with machine := m, steps := e.steps + 1 } : Emulator).deliver printed) := by
  have hstep : e.step = (.ok false,
      ({ e with machine := m, steps := e.steps + 1 } : Emulator).deliver printed) := by
    simp only [step, h]
  refine ⟨congrArg Prod.snd hstep, fun i hi => ?_⟩
  obtain rfl : i = 0 := by omega
  exact congrArg Prod.fst hstep

/-- After steps that go on, a run ends with a step that stops. -/
theorem Reaches.ends_halted (h : e.Reaches k left) (hstop : left.step.1 = .ok true) :
    e.Ends none (k + 1) ⟨.halted, k + 1, left.step.2⟩ := by
  rw [← h.after_eq] at hstop ⊢
  rw [← after_succ_last]
  exact .halted (by simp) h.goesOn hstop

/-- After steps that go on, a run ends with a step that fails. -/
theorem Reaches.ends_fault (h : e.Reaches k left) {f : Fault} (hfault : left.step.1 = .error f) :
    e.Ends none (k + 1) ⟨.fault f, k, left.step.2⟩ := by
  rw [← h.after_eq] at hfault ⊢
  rw [← after_succ_last]
  exact .fault (by simp) h.goesOn hfault

/-! ## Rounds of the loop -/

/-- The emulator behind a round of the loop, in which a value was printed. -/
def afterRound (e : Emulator) (value : Int) (rest : List Int) : Emulator where
  machine := { e.machine with
    counter := 0
    acc := value
    zero := false
    positive := decide (0 ≤ value)
    pending := rest }
  maxSteps := e.maxSteps
  steps := e.steps + 4
  outputs := e.outputs.push value
  delivered := e.delivered.push value

variable {value : Int} {values rest : List Int}

/-- A round takes four steps: the value is read, it does not lead out of the loop, it is
printed, and the loop begins anew. -/
theorem reaches_round (h : e.machine.AtLoop (value :: rest)) (hvalue : Echoes value) :
    e.Reaches 4 (e.afterRound value rest) := by
  obtain ⟨hne, hleast, hgreatest⟩ := hvalue
  have hzero : decide (value = 0) = false := decide_eq_false hne
  have hread := h.step_eq
  rw [Machine.accept_of_bounds _ hleast hgreatest, hzero] at hread
  have hfirst := reaches_of_step hread
  have hsecond := hfirst.trans (reaches_of_step (Machine.step_of_not_zero h.memory rfl rfl))
  have hthird := hsecond.trans (reaches_of_step (Machine.step_of_echo h.memory rfl))
  exact hthird.trans (reaches_of_step (Machine.step_of_again h.memory rfl))

/-- A round comes back to the beginning of the loop. -/
theorem atLoop_afterRound (h : e.machine.AtLoop (value :: rest)) :
    (e.afterRound value rest).machine.AtLoop rest :=
  ⟨h.memory, rfl, rfl⟩

/-- In a round its value is printed. -/
theorem prints_afterRound (e : Emulator) (value : Int) (rest : List Int) :
    e.Prints [value] (e.afterRound value rest) :=
  ⟨Array.toList_push, Array.toList_push⟩

/-- Values that go round the loop are printed in four steps each, and then the loop goes on
with the rest of the input. -/
theorem exists_reaches_rounds (h : e.machine.AtLoop (values ++ rest))
    (hvalues : ∀ value ∈ values, Echoes value) :
    ∃ left, e.Reaches (4 * values.length) left ∧ left.machine.AtLoop rest ∧
      e.Prints values left ∧ left.steps = e.steps + 4 * values.length := by
  induction values generalizing e with
  | nil => exact ⟨e, .refl e, h, prints_nil rfl rfl, rfl⟩
  | cons value values ih =>
    have hround := reaches_round h (hvalues value List.mem_cons_self)
    obtain ⟨left, hreaches, hloop, hprints, hsteps⟩ :=
      ih (atLoop_afterRound h) fun v hv => hvalues v (List.mem_cons_of_mem _ hv)
    have hlength : 4 * (value :: values).length = 4 + 4 * values.length := by
      rw [List.length_cons]
      omega
    have hcount : (e.afterRound value (values ++ rest)).steps = e.steps + 4 := rfl
    rw [hlength]
    refine ⟨left, hround.trans hreaches, hloop, ?_, by omega⟩
    exact (e.prints_afterRound value _).trans hprints

/-! ## The end of the loop -/

/-- At a 0 the loop is left after two steps. -/
theorem exists_reaches_end (h : e.machine.AtLoop (0 :: rest)) :
    ∃ left, e.Reaches 2 left ∧ HoldsEcho left.machine.memory ∧ left.machine.counter = 4 ∧
      e.Prints [] left := by
  have hread := h.step_eq
  rw [Machine.accept_of_bounds _ (by decide) (by decide)] at hread
  have hfirst := reaches_of_step hread
  have hsecond := hfirst.trans (reaches_of_step (Machine.step_of_zero h.memory rfl rfl))
  exact ⟨_, hsecond, h.memory, rfl, prints_nil rfl rfl⟩

/-- With a 0 behind values that go round the loop, the values are printed and the program
stops. -/
theorem exists_ends_halted (h : e.machine.AtLoop (values ++ 0 :: rest))
    (hvalues : ∀ value ∈ values, Echoes value) :
    ∃ left, e.Prints values left ∧ e.Ends none (4 * values.length + 3)
      ⟨.halted, 4 * values.length + 3, left⟩ := by
  obtain ⟨middle, hrounds, hloop, hprints, -⟩ := exists_reaches_rounds h hvalues
  obtain ⟨last, hend, hmemory, hcounter, hnothing⟩ := exists_reaches_end hloop
  have hstop := Machine.step_of_end hmemory hcounter
  have hanswer : last.step.1 = .ok true := by
    rw [step_result, hstop]
    rfl
  have hsilent : last.Prints [] last.step.2 := by
    have hstep := last.prints_step
    rwa [← printed_eq, hstop] at hstep
  refine ⟨last.step.2, ?_, (hrounds.trans hend).ends_halted hanswer⟩
  simpa using (hprints.trans hnothing).trans hsilent

/-- A value that the accumulator cannot represent is taken out of the input, and the step
fails. -/
theorem step_of_rejected (h : e.machine.AtLoop (value :: rest))
    (hvalue : value < -500 ∨ 499 < value) :
    e.step = (.error (.numberOutOfRange value),
      { e with machine := { e.machine with counter := 1, acc := value, pending := rest } }) := by
  have hread := h.step_eq
  rw [Machine.accept_of_beyond _ hvalue] at hread
  simp only [step, hread]

/-- With such a value behind values that go round the loop, these are printed and the run
fails; the other values are still to be read. -/
theorem exists_ends_fault (h : e.machine.AtLoop (values ++ value :: rest))
    (hvalues : ∀ v ∈ values, Echoes v) (hvalue : value < -500 ∨ 499 < value) :
    ∃ left, e.Prints values left ∧ left.steps = e.steps + 4 * values.length ∧
      left.machine.pending = rest ∧ e.Ends none (4 * values.length + 1)
        ⟨.fault (.numberOutOfRange value), 4 * values.length, left⟩ := by
  obtain ⟨middle, hrounds, hloop, hprints, hsteps⟩ := exists_reaches_rounds h hvalues
  have hstep := step_of_rejected hloop hvalue
  refine ⟨middle.step.2, ?_, ?_, ?_, hrounds.ends_fault (congrArg Prod.fst hstep)⟩
  · rw [hstep]
    exact ⟨hprints.outputs, hprints.delivered⟩
  · rw [hstep]
    exact hsteps
  · rw [hstep]

/-! ## Runs of the program -/

/-- The program is loaded with its input, and stands at the beginning of its loop. -/
theorem exists_atLoop (values : List Int) :
    ∃ e, (new ⟨echoWords, 0, 0, some values, none⟩).outcome = .ok e ∧
      e.machine.AtLoop (values ++ [0]) ∧ e.maxSteps = none ∧ e.steps = 0 ∧
      e.outputs.toList = [] := by
  have hwords : ∀ word ∈ echoWords, -32768 ≤ word ∧ word ≤ 32767 := by decide
  have hfits : 0 + echoWords.length ≤ 99 := by decide
  obtain ⟨memory, hnew, hget⟩ :=
    @exists_new ⟨echoWords, 0, 0, some values, none⟩ 0 rfl hwords hfits
  exact ⟨_, hnew, ⟨hget, rfl, rfl⟩, rfl, rfl, rfl⟩

/-- The program prints the values at the beginning of its input that are not 0 and that the
accumulator can represent, in four steps each.  When they are all values, or a 0 comes behind
them, the run stops three steps later.  Otherwise it fails at the value behind them, and the
values behind that one are left with the queued 0. -/
theorem echo_loop_ends (values : List Int) (strict : Bool) (file : String) :
    ∃ words e, (assemble strict file echoText).outcome = .ok words ∧
      (new ⟨words, 0, 0, some values, none⟩).outcome = .ok e ∧
      (LeavesLoop values → ∃ left, left.outputs.toList = echoed values ∧
        ∀ patience, 4 * (echoed values).length + 3 ≤ patience → e.run patience none =
          some ⟨.halted, 4 * (echoed values).length + 3, left⟩) ∧
      (¬ LeavesLoop values → ∃ value rest left, values = echoed values ++ value :: rest ∧
        left.outputs.toList = echoed values ∧ left.steps = 4 * (echoed values).length ∧
        left.machine.pending = rest ++ [0] ∧
        ∀ patience, 4 * (echoed values).length + 1 ≤ patience → e.run patience none =
          some ⟨.fault (.numberOutOfRange value), 4 * (echoed values).length, left⟩) := by
  obtain ⟨e, hnew, hloop, hlimit, hsteps, houtputs⟩ := exists_atLoop values
  have hvalues : ∀ value ∈ echoed values, Echoes value := fun _ => echoes_of_mem_echoed
  have hunlimited : ∀ {tried : Nat}, ∀ n ∈ (none : Option Int).or e.maxSteps, tried ≤ n := by
    simp [hlimit]
  refine ⟨echoWords, e, assemble_echoText strict file, hnew, ?_, ?_⟩
  · intro hleaves
    -- the 0 that ends the loop is in the input or the queued one
    have hzero : ∃ rest, values ++ [0] = echoed values ++ 0 :: rest := by
      rcases hleaves with hall | ⟨rest, hrest⟩
      · exact ⟨[], by rw [hall]⟩
      · refine ⟨rest ++ [0], ?_⟩
        rw [← List.cons_append, ← List.append_assoc, ← hrest]
    obtain ⟨rest, hrest⟩ := hzero
    rw [hrest] at hloop
    obtain ⟨left, hprints, hends⟩ := exists_ends_halted hloop hvalues
    refine ⟨left, by rw [hprints.outputs, houtputs, List.nil_append], ?_⟩
    exact fun patience hpatience => hends.run_eq (by simp) hunlimited hpatience
  · intro hfails
    obtain ⟨value, rest, hrest, hvalue⟩ := exists_rejected hfails
    have hqueued : values ++ [0] = echoed values ++ value :: (rest ++ [0]) := by
      rw [← List.cons_append, ← List.append_assoc, ← hrest]
    rw [hqueued] at hloop
    obtain ⟨left, hprints, hcount, hpending, hends⟩ := exists_ends_fault hloop hvalues hvalue
    refine ⟨value, rest, left, hrest, ?_, by rw [hcount, hsteps, Nat.zero_add], hpending, ?_⟩
    · rw [hprints.outputs, houtputs, List.nil_append]
    · exact fun patience hpatience => hends.run_eq (by simp) hunlimited hpatience

end Emulator

end Mailroom
