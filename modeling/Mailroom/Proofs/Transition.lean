import Mailroom.Machine.Processor
import Mailroom.Proofs.Orders

/-!
# Steps by bands

The meaning of a step, told by rules on plain numbers: the hundreds of the fetched word
say what is done, and its last two digits name the mailbox.  The rules know neither
orders nor operations, and a rule for each failure says what the failure leaves behind.

Main results:

- Theorem `Machine.step_iff_transition_and_faultLeaves`: a step does what the rules
  allow and nothing else, in every state of the machine, and each fault leaves the state
  that belongs to it.
- Theorem `Machine.transition_step`: there is a rule for every state.
- Theorem `Machine.Transition.unique`: no two rules disagree.
- Theorem `Machine.Transition.frame`: a step changes the mailbox that a storing word names, and
  no other.
-/

namespace Mailroom

namespace Machine

/-! ## The rules -/

/-- The word `w` has the hundreds `band`, and its last two digits name the mailbox `a`. -/
def InBand (band w : Int) (a : Address) : Prop :=
  w / 100 = band ∧ w % 100 = a.val

/-- The word `w` is no instruction. -/
def NoInstruction (w : Int) : Prop :=
  w < 0 ∨ (1 ≤ w ∧ w ≤ 99) ∨ w = 900 ∨ 903 ≤ w

/-- Writing `value` to the accumulator of `m`.  The flags follow an accepted value; a
rejected one stays in the accumulator and the flags keep theirs. -/
inductive Writes (m : Machine) (value : Int) : StepOutcome → Machine → Prop
  | accepted (least : -500 ≤ value) (greatest : value ≤ 499) :
      Writes m value (.done none)
        { m with acc := value, zero := decide (value = 0), positive := decide (0 ≤ value) }
  | rejected (h : value < -500 ∨ 499 < value) :
      Writes m value (.fault (.numberOutOfRange value)) { m with acc := value }

/-- Putting `value` into the mailbox `a` of `m`.  A number beyond sixteen bits is put
nowhere. -/
inductive Stores (m : Machine) (a : Address) (value : Int) : StepOutcome → Machine → Prop
  | stored (w : Word) (h : w.val = value) :
      Stores m a value (.done none) { m with memory := m.memory.set a w }
  | tooWide (h : value < -32768 ∨ 32767 < value) :
      Stores m a value (.fault (.wordTooWide a.val value)) m

/-- What the word `w`, fetched from mailbox `c`, makes of the machine `m`, whose counter
has been moved on. -/
inductive Effect (c : Address) (m : Machine) (w : Int) : StepOutcome → Machine → Prop
  | stop (h : w = 0) : Effect c m w .stopped { m with halted := true }
  | add {a : Address} {o : StepOutcome} {left : Machine} (h : InBand 1 w a)
      (hwrite : Writes m (m.acc + (m.memory.get a).val) o left) : Effect c m w o left
  | sub {a : Address} {o : StepOutcome} {left : Machine} (h : InBand 2 w a)
      (hwrite : Writes m (m.acc - (m.memory.get a).val) o left) : Effect c m w o left
  | store {a : Address} {o : StepOutcome} {left : Machine} (h : InBand 3 w a)
      (hstore : Stores m a m.acc o left) : Effect c m w o left
  | storeAddress {a : Address} {o : StepOutcome} {left : Machine} (h : InBand 4 w a)
      (hstore : Stores m a (m.acc.tmod 100) o left) : Effect c m w o left
  | load {a : Address} {o : StepOutcome} {left : Machine} (h : InBand 5 w a)
      (hwrite : Writes m (m.memory.get a).val o left) : Effect c m w o left
  | branch {a : Address} (h : InBand 6 w a) :
      Effect c m w (.done none) { m with counter := a.val }
  | branchOnZero {a : Address} (h : InBand 7 w a) (hflag : m.zero = true) :
      Effect c m w (.done none) { m with counter := a.val }
  | passOnNonzero {a : Address} (h : InBand 7 w a) (hflag : m.zero = false) :
      Effect c m w (.done none) m
  | branchOnPositive {a : Address} (h : InBand 8 w a) (hflag : m.positive = true) :
      Effect c m w (.done none) { m with counter := a.val }
  | passOnNegative {a : Address} (h : InBand 8 w a) (hflag : m.positive = false) :
      Effect c m w (.done none) m
  | read {value : Int} {rest : List Int} {o : StepOutcome} {left : Machine} (h : w = 901)
      (hpending : m.pending = value :: rest)
      (hwrite : Writes { m with pending := rest } value o left) : Effect c m w o left
  | readNothing (h : w = 901) (hpending : m.pending = []) : Effect c m w (.done none) m
  | print (h : w = 902) : Effect c m w (.done (some m.acc)) m
  | invalid (h : NoInstruction w) :
      Effect c m w (.fault (.invalidInstruction w (some c.val))) m

/-- One step of the machine: a counter beyond the mailboxes changes nothing, and otherwise
the counter moves on and the word under it takes effect. -/
inductive Transition (m : Machine) : StepOutcome → Machine → Prop
  | beyond (h : m.counter < 0 ∨ 99 < m.counter) :
      Transition m (.fault (.counterOutOfBounds m.counter)) m
  | fetched {c : Address} {o : StepOutcome} {left : Machine} (h : m.counter = c.val)
      (heffect : Effect c { m with counter := m.counter + 1 } (m.memory.get c).val o left) :
      Transition m o left

/-! ## Writing and storing -/

/-- The accumulator is written by the rules. -/
theorem accept_iff_writes {m left : Machine} {value : Int} {o : StepOutcome} :
    m.accept value = (o, left) ↔ Writes m value o left := by
  constructor
  · intro haccept
    by_cases hvalue : value < minAcc ∨ maxAcc < value
    · rw [accept_of_beyond m hvalue] at haccept
      cases haccept
      exact .rejected hvalue
    · have hleast : minAcc ≤ value := by omega
      have hgreatest : value ≤ maxAcc := by omega
      rw [accept_of_bounds m hleast hgreatest] at haccept
      cases haccept
      exact .accepted hleast hgreatest
  · intro hwrites
    cases hwrites with
    | accepted least greatest => exact accept_of_bounds m least greatest
    | rejected h => exact accept_of_beyond m h

/-- A mailbox is written by the rules. -/
theorem deposit_iff_stores {m left : Machine} {a : Address} {value : Int} {o : StepOutcome} :
    m.deposit a value = (o, left) ↔ Stores m a value o left := by
  constructor
  · intro hdeposit
    cases hword : Word.ofInt? value with
    | none =>
      simp only [deposit, Memory.put, hword] at hdeposit
      cases hdeposit
      exact .tooWide ((Word.ofInt?_eq_none_iff value).mp hword)
    | some w =>
      simp only [deposit, Memory.put, hword] at hdeposit
      cases hdeposit
      exact .stored w (Word.ofInt?_eq_some_iff.mp hword)
  · intro hstores
    cases hstores with
    | stored w h =>
      subst h
      simp only [deposit, Memory.put, Word.ofInt?_val]
    | tooWide h =>
      have hword : Word.ofInt? value = none := (Word.ofInt?_eq_none_iff value).mpr h
      simp only [deposit, Memory.put, hword]

/-! ## Carrying out orders -/

/-- A jump whose condition holds goes to its target. -/
theorem jump_of_true {m : Machine} {condition : Bool} (h : condition = true)
    (target : Address) :
    m.jump condition target = (.done none, { m with counter := target.val }) := by
  subst h
  rfl

/-- A jump whose condition fails changes nothing. -/
theorem jump_of_false {m : Machine} {condition : Bool} (h : condition = false)
    (target : Address) : m.jump condition target = (.done none, m) := by
  subst h
  rfl

/-- The number of an order is in the band of its base. -/
theorem inBand_number (band : Int) (a : Address) : InBand band (100 * band + a.val) a := by
  constructor <;> omega

/-- A word in a band is the base of the band plus the mailbox. -/
theorem InBand.eq_number {band w : Int} {a : Address} (h : InBand band w a) :
    100 * band + a.val = w := by
  rcases h with ⟨hband, ha⟩
  omega

/-- An order has the effect that the rules give to its number. -/
theorem execute_effect (c : Address) (m : Machine) (order : Order) :
    Effect c m order.word (m.execute order).1 (m.execute order).2 := by
  cases order with
  | plain op =>
    cases op with
    | stop => exact .stop rfl
    | read =>
      cases hpending : m.pending with
      | nil =>
        simp only [execute, plain, hpending]
        exact .readNothing rfl hpending
      | cons value rest =>
        simp only [execute, plain, hpending]
        exact .read rfl hpending (accept_iff_writes.mp rfl)
    | print => exact .print rfl
  | access op a =>
    cases op with
    | add => exact .add (inBand_number 1 a) (accept_iff_writes.mp rfl)
    | sub => exact .sub (inBand_number 2 a) (accept_iff_writes.mp rfl)
    | store => exact .store (inBand_number 3 a) (deposit_iff_stores.mp rfl)
    | storeAddress => exact .storeAddress (inBand_number 4 a) (deposit_iff_stores.mp rfl)
    | load => exact .load (inBand_number 5 a) (accept_iff_writes.mp rfl)
  | branch op a =>
    cases op with
    | always => exact .branch (inBand_number 6 a)
    | ifZero =>
      cases hflag : m.zero with
      | true =>
        rw [execute, jump_of_true hflag]
        exact .branchOnZero (inBand_number 7 a) hflag
      | false =>
        rw [execute, jump_of_false hflag]
        exact .passOnNonzero (inBand_number 7 a) hflag
    | ifPositive =>
      cases hflag : m.positive with
      | true =>
        rw [execute, jump_of_true hflag]
        exact .branchOnPositive (inBand_number 8 a) hflag
      | false =>
        rw [execute, jump_of_false hflag]
        exact .passOnNegative (inBand_number 8 a) hflag

/-- An effect is the work of the order with that number, or else the word is no
instruction. -/
theorem Effect.exists_order {c : Address} {m left : Machine} {w : Int} {o : StepOutcome}
    (h : Effect c m w o left) :
    (∃ order : Order, order.word = w ∧ m.execute order = (o, left)) ∨
      (NoInstruction w ∧ o = .fault (.invalidInstruction w (some c.val)) ∧ left = m) := by
  cases h with
  | stop h => exact .inl ⟨.plain .stop, h.symm, rfl⟩
  | add h hwrite => exact .inl ⟨.access .add _, h.eq_number, accept_iff_writes.mpr hwrite⟩
  | sub h hwrite => exact .inl ⟨.access .sub _, h.eq_number, accept_iff_writes.mpr hwrite⟩
  | store h hstore =>
    exact .inl ⟨.access .store _, h.eq_number, deposit_iff_stores.mpr hstore⟩
  | storeAddress h hstore =>
    exact .inl ⟨.access .storeAddress _, h.eq_number, deposit_iff_stores.mpr hstore⟩
  | load h hwrite => exact .inl ⟨.access .load _, h.eq_number, accept_iff_writes.mpr hwrite⟩
  | branch h => exact .inl ⟨.branch .always _, h.eq_number, rfl⟩
  | branchOnZero h hflag => exact .inl ⟨.branch .ifZero _, h.eq_number, jump_of_true hflag _⟩
  | passOnNonzero h hflag =>
    exact .inl ⟨.branch .ifZero _, h.eq_number, jump_of_false hflag _⟩
  | branchOnPositive h hflag =>
    exact .inl ⟨.branch .ifPositive _, h.eq_number, jump_of_true hflag _⟩
  | passOnNegative h hflag =>
    exact .inl ⟨.branch .ifPositive _, h.eq_number, jump_of_false hflag _⟩
  | read h hpending hwrite =>
    refine .inl ⟨.plain .read, h.symm, ?_⟩
    simp only [execute, plain, hpending]
    exact accept_iff_writes.mpr hwrite
  | readNothing h hpending =>
    refine .inl ⟨.plain .read, h.symm, ?_⟩
    simp only [execute, plain, hpending]
  | print h => exact .inl ⟨.plain .print, h.symm, rfl⟩
  | invalid h => exact .inr ⟨h, rfl, rfl⟩

/-! ## Steps -/

/-- A counter beyond the mailboxes is a fault that changes nothing. -/
theorem step_of_beyond {m : Machine} (h : m.counter < 0 ∨ 99 < m.counter) :
    m.step = (.fault (.counterOutOfBounds m.counter), m) := by
  have hnone : Address.ofInt? m.counter = none := (Address.ofInt?_eq_none_iff _).mpr h
  simp only [step, hnone]

/-- A step over an order moves the counter on and carries the order out. -/
theorem step_of_order {m : Machine} {c : Address} {order : Order}
    (hcounter : m.counter = c.val) (hword : order.word = (m.memory.get c).val) :
    m.step = { m with counter := m.counter + 1 }.execute order := by
  have hc : Address.ofInt? m.counter = some c := Address.ofInt?_eq_some_iff.mpr hcounter
  have horder : Order.ofWord? (m.memory.get c).val = some order :=
    Order.ofWord?_eq_some_iff.mpr hword
  simp only [step, hc, horder]

/-- A step over a word that is no instruction moves the counter on and is a fault. -/
theorem step_of_noInstruction {m : Machine} {c : Address} (hcounter : m.counter = c.val)
    (hword : NoInstruction (m.memory.get c).val) :
    m.step = (.fault (.invalidInstruction (m.memory.get c).val (some c.val)),
      { m with counter := m.counter + 1 }) := by
  have hc : Address.ofInt? m.counter = some c := Address.ofInt?_eq_some_iff.mpr hcounter
  have hnone : Order.ofWord? (m.memory.get c).val = none :=
    (Order.ofWord?_eq_none_iff _).mpr hword
  simp only [step, hc, hnone]

/-- Every step follows one of the rules. -/
theorem transition_step (m : Machine) : Transition m m.step.1 m.step.2 := by
  by_cases hbeyond : m.counter < 0 ∨ 99 < m.counter
  · rw [step_of_beyond hbeyond]
    exact .beyond hbeyond
  · rcases Address.exists_of_bounds (n := m.counter) (by omega) (by omega) with ⟨c, hc⟩
    refine .fetched hc ?_
    cases horder : Order.ofWord? (m.memory.get c).val with
    | none =>
      have hword : NoInstruction (m.memory.get c).val :=
        (Order.ofWord?_eq_none_iff _).mp horder
      rw [step_of_noInstruction hc hword]
      exact .invalid hword
    | some order =>
      have hword : order.word = (m.memory.get c).val := Order.word_of_ofWord? horder
      rw [step_of_order hc hword, ← hword]
      exact execute_effect c _ order

/-- What the rules allow is what the step does. -/
theorem Transition.step_eq {m left : Machine} {o : StepOutcome} (h : Transition m o left) :
    m.step = (o, left) := by
  cases h with
  | beyond h => exact step_of_beyond h
  | fetched h heffect =>
    rcases heffect.exists_order with ⟨order, hword, hexecute⟩ | ⟨hword, rfl, rfl⟩
    · rw [step_of_order h hword, hexecute]
    · exact step_of_noInstruction h hword

/-- The rules leave no choice. -/
theorem Transition.unique {m left left' : Machine} {o o' : StepOutcome}
    (h : Transition m o left) (h' : Transition m o' left') : o = o' ∧ left = left' := by
  have heq : (o, left) = (o', left') := h.step_eq.symm.trans h'.step_eq
  exact Prod.mk.inj heq

/-! ## What a step leaves alone -/

/-- Writing to the accumulator leaves the mailboxes alone. -/
theorem Writes.memory_eq {m left : Machine} {value : Int} {o : StepOutcome}
    (h : Writes m value o left) : left.memory = m.memory := by
  cases h <;> rfl

/-- A number that is stored is in its mailbox, and the other mailboxes hold what they held. -/
theorem Stores.frame {m left : Machine} {a : Address} {value : Int} {o : StepOutcome}
    (h : Stores m a value o left) :
    left.memory = m.memory ∨ (left.memory.get a).val = value ∧
      ∀ b, a ≠ b → left.memory.get b = m.memory.get b := by
  cases h with
  | stored w h =>
    refine .inr ⟨?_, fun b hb => m.memory.get_set_of_ne w hb⟩
    rw [← h]
    exact congrArg Word.val (m.memory.get_set_self a w)
  | tooWide _ => exact .inl rfl

/-- A step leaves all mailboxes alone, or all but the one that the fetched word names.  The latter
is a word to store the accumulator or its last two digits, which are in the mailbox then. -/
theorem Transition.frame {m left : Machine} {o : StepOutcome} (h : Transition m o left) :
    left.memory = m.memory ∨ ∃ c a : Address, m.counter = c.val ∧
      (InBand 3 (m.memory.get c).val a ∧ (left.memory.get a).val = m.acc ∨
        InBand 4 (m.memory.get c).val a ∧ (left.memory.get a).val = m.acc.tmod 100) ∧
      ∀ b, a ≠ b → left.memory.get b = m.memory.get b := by
  cases h with
  | beyond _ => exact .inl rfl
  | @fetched c _ _ hcounter heffect =>
    cases heffect with
    | add _ hwrite => exact .inl hwrite.memory_eq
    | sub _ hwrite => exact .inl hwrite.memory_eq
    | load _ hwrite => exact .inl hwrite.memory_eq
    | read _ _ hwrite => exact .inl hwrite.memory_eq
    | store hband hstore =>
      exact hstore.frame.imp_right fun ⟨hvalue, hothers⟩ =>
        ⟨c, _, hcounter, .inl ⟨hband, hvalue⟩, hothers⟩
    | storeAddress hband hstore =>
      exact hstore.frame.imp_right fun ⟨hvalue, hothers⟩ =>
        ⟨c, _, hcounter, .inr ⟨hband, hvalue⟩, hothers⟩
    | _ => exact .inl rfl

/-! ## Failing steps -/

/-- What a failing step leaves of the state `m`, for each kind of fault.  The mailboxes,
the flags and the halt mark stay as they were. -/
inductive FaultLeaves (m : Machine) : Fault → Machine → Prop
  | beyond (h : m.counter < 0 ∨ 99 < m.counter) :
      FaultLeaves m (.counterOutOfBounds m.counter) m
  | invalid (w : Int) (h : NoInstruction w) :
      FaultLeaves m (.invalidInstruction w (some m.counter))
        { m with counter := m.counter + 1 }
  | rejected (value : Int) (h : value < -500 ∨ 499 < value) :
      FaultLeaves m (.numberOutOfRange value)
        { m with counter := m.counter + 1, acc := value }
  | rejectedInput (value : Int) (rest : List Int) (h : value < -500 ∨ 499 < value)
      (hpending : m.pending = value :: rest) :
      FaultLeaves m (.numberOutOfRange value)
        { m with counter := m.counter + 1, acc := value, pending := rest }
  | tooWide (a : Address) (h : m.acc < -32768 ∨ 32767 < m.acc) :
      FaultLeaves m (.wordTooWide a.val m.acc) { m with counter := m.counter + 1 }

/-- The last two digits of a number fit in a mailbox. -/
theorem tmod_hundred_bounds (value : Int) :
    -100 < value.tmod 100 ∧ value.tmod 100 < 100 := by
  constructor
  · exact Int.lt_tmod_of_pos value (by decide)
  · exact Int.tmod_lt_of_pos value (by decide)

/-- A failing effect leaves what its fault says. -/
theorem Effect.faultLeaves {c : Address} {m left : Machine} {w : Int} {f : Fault}
    (hcounter : m.counter = c.val)
    (h : Effect c { m with counter := m.counter + 1 } w (.fault f) left) :
    FaultLeaves m f left := by
  cases h with
  | add _ hwrite => cases hwrite with | rejected h => exact .rejected _ h
  | sub _ hwrite => cases hwrite with | rejected h => exact .rejected _ h
  | load _ hwrite => cases hwrite with | rejected h => exact .rejected _ h
  | read _ hpending hwrite =>
    cases hwrite with | rejected h => exact .rejectedInput _ _ h hpending
  | store _ hstore => cases hstore with | tooWide h => exact .tooWide _ h
  | storeAddress _ hstore =>
    cases hstore with
    | tooWide h =>
      have hbounds := tmod_hundred_bounds m.acc
      simp only at h
      omega
  | invalid h =>
    rw [← hcounter]
    exact .invalid w h

/-- A failing step leaves what its fault says. -/
theorem Transition.faultLeaves {m left : Machine} {f : Fault}
    (h : Transition m (.fault f) left) : FaultLeaves m f left := by
  cases h with
  | beyond h => exact .beyond h
  | fetched h heffect => exact heffect.faultLeaves h

/-! ## The account of a step -/

/-- A step makes of every state what the rules say, and each of its faults leaves the
state that belongs to this fault. -/
theorem step_iff_transition_and_faultLeaves (m left : Machine) (o : StepOutcome) :
    (m.step = (o, left) ↔ Transition m o left) ∧
      ∀ f, m.step = (.fault f, left) → FaultLeaves m f left := by
  refine ⟨⟨?_, fun h => h.step_eq⟩, ?_⟩
  · intro hstep
    have htransition := transition_step m
    rw [hstep] at htransition
    exact htransition
  · intro f hstep
    have htransition := transition_step m
    rw [hstep] at htransition
    exact htransition.faultLeaves

end Machine

end Mailroom
