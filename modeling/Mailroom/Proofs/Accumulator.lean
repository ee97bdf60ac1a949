import Mailroom.Proofs.Histories

/-!
# What a history leaves in a machine

The accumulator is written before its bounds are checked, and the flags are set after
that.  So neither are the contents of the accumulator always within the bounds, nor do
the flags always describe them.  What the flags describe is the last number that the
accumulator accepted.

Main definitions:

- `lastAccepted` is the last accepted number in a record of writes.
- `Machine.Reflects` relates a machine to the record of what was written to its
  accumulator.

Main results:

- Theorem `Machine.Reflects.act`: every action keeps the relation, a failing one included.
- Theorem `Machine.step_memoryFault_iff`: the only fault of the memory in a step is that
  of storing an accumulator that no mailbox can hold.
- Theorem `Machine.afterAll_sound`: what holds of the mailboxes, the accumulator, the flags,
  the counter and the faults after every history of a new machine.
-/

namespace Mailroom

/-- The fault is one of the memory: a mailbox that does not exist, or a number that a
mailbox cannot hold. -/
def Fault.ofMemory : Fault → Bool
  | noSuchMailbox _ => true
  | wordTooWide _ _ => true
  | _ => false

namespace Machine

/-! ## The record of writes -/

/-- The last number that was accepted, and 0 before any was. -/
def lastAccepted (record : List AccWrite) : Int :=
  ((record.filter (·.accepted)).getLast?.map (·.value)).getD 0

/-- An accepted number is the last one. -/
@[simp] theorem lastAccepted_append_accepted (record : List AccWrite) (value : Int) :
    lastAccepted (record ++ [⟨value, true⟩]) = value := by
  simp [lastAccepted]

/-- A rejected number is passed over. -/
@[simp] theorem lastAccepted_append_rejected (record : List AccWrite) (value : Int) :
    lastAccepted (record ++ [⟨value, false⟩]) = lastAccepted record := by
  simp [lastAccepted]

/-- The flags describe the last accepted number, which is within the bounds.  The
accumulator holds this number too, unless the last number of all was rejected: then it
holds that one. -/
structure Reflects (record : List AccWrite) (m : Machine) : Prop where
  least : -500 ≤ lastAccepted record
  greatest : lastAccepted record ≤ 499
  zero : m.zero = decide (lastAccepted record = 0)
  positive : m.positive = decide (0 ≤ lastAccepted record)
  acc_of_accepted : (∀ w ∈ record.getLast?, w.accepted = true) → m.acc = lastAccepted record
  acc_of_rejected : ∀ w ∈ record.getLast?, w.accepted = false → m.acc = w.value

/-- A new machine reflects an empty record. -/
theorem reflects_new : Reflects [] new where
  least := by decide
  greatest := by decide
  zero := rfl
  positive := rfl
  acc_of_accepted _ := rfl
  acc_of_rejected := by simp

variable {record : List AccWrite} {m left : Machine}

/-- A machine with the same accumulator and flags reflects the same record. -/
theorem Reflects.of_same (h : Reflects record m) (hacc : left.acc = m.acc)
    (hzero : left.zero = m.zero) (hpositive : left.positive = m.positive) :
    Reflects record left where
  least := h.least
  greatest := h.greatest
  zero := hzero.trans h.zero
  positive := hpositive.trans h.positive
  acc_of_accepted hlast := hacc.trans (h.acc_of_accepted hlast)
  acc_of_rejected w hw hrejected := hacc.trans (h.acc_of_rejected w hw hrejected)

/-- A step adds what it writes to the record. -/
theorem Reflects.step (h : Reflects record m) :
    Reflects (record ++ (m.accWrite? .step).toList) m.step.2 := by
  cases hwritten : m.nextOrder?.bind m.written? with
  | none =>
    obtain ⟨hacc, hzero, hpositive, -⟩ := step_of_not_written hwritten
    simpa [accWrite?, hwritten] using h.of_same hacc hzero hpositive
  | some value =>
    obtain ⟨hacc, ⟨hleast, hgreatest, ho, hzero, hpositive⟩ | ⟨-, ho, hzero, hpositive⟩⟩ :=
      step_of_written hwritten
    · have hrecord : (m.accWrite? .step).toList = [⟨value, true⟩] := by
        simp [accWrite?, hwritten, ho]
      rw [hrecord]
      constructor
      · simpa using hleast
      · simpa using hgreatest
      · simpa using hzero
      · simpa using hpositive
      · simpa using hacc
      · simp
    · have hrecord : (m.accWrite? .step).toList = [⟨value, false⟩] := by
        simp [accWrite?, hwritten, ho]
      rw [hrecord]
      constructor
      · simpa using h.least
      · simpa using h.greatest
      · simpa using hzero.trans h.zero
      · simpa using hpositive.trans h.positive
      · simp
      · simpa using hacc

/-- New mailboxes leave the accumulator and the flags alone. -/
theorem Reflects.refill (h : Reflects record m) (r : Except Fault Memory) :
    Reflects record (m.refill r).2 := by
  cases r with
  | ok memory => exact h.of_same rfl rfl rfl
  | error fault => exact h

/-- Every action adds what it writes to the record, whether it fails or not. -/
theorem Reflects.act (h : Reflects record m) (a : Action) :
    Reflects (record ++ (m.accWrite? a).toList) (m.act a).2 := by
  have hunwritten : ∀ {left}, Reflects record left → Reflects (record ++ []) left := by
    intro left hleft
    rwa [List.append_nil]
  cases a with
  | step => exact h.step
  | feed values => exact hunwritten (h.of_same rfl rfl rfl)
  | load program offset => exact hunwritten (h.refill _)
  | write address value => exact hunwritten (h.refill _)
  | setCounter counter => exact hunwritten (h.of_same rfl rfl rfl)

/-- A history adds what it writes to the record. -/
theorem Reflects.afterAll (h : Reflects record m) (history : List Action) :
    Reflects (record ++ m.writes history) (m.afterAll history) := by
  induction history generalizing record m with
  | nil => rwa [writes, List.append_nil]
  | cons a rest ih =>
    rw [writes, ← List.append_assoc]
    exact ih (h.act a)

/-! ## Faults of the memory -/

/-- A transition with a fault of the memory stores an accumulator that no mailbox can
hold. -/
theorem Transition.of_memoryFault {f : Fault} (h : Transition m (.fault f) left)
    (hmemory : f.ofMemory = true) :
    ∃ c a : Address, m.counter = c.val ∧ (m.memory.get c).val = 300 + a.val ∧
      (m.acc < -32768 ∨ 32767 < m.acc) ∧ f = .wordTooWide a.val m.acc := by
  cases h with
  | beyond h => simp [Fault.ofMemory] at hmemory
  | @fetched c _ _ hc heffect =>
    cases heffect with
    | add _ hwrite => cases hwrite with | rejected _ => simp [Fault.ofMemory] at hmemory
    | sub _ hwrite => cases hwrite with | rejected _ => simp [Fault.ofMemory] at hmemory
    | load _ hwrite => cases hwrite with | rejected _ => simp [Fault.ofMemory] at hmemory
    | read _ _ hwrite => cases hwrite with | rejected _ => simp [Fault.ofMemory] at hmemory
    | invalid _ => simp [Fault.ofMemory] at hmemory
    | @store a _ _ hband hstore =>
      cases hstore with
      | tooWide hwide => exact ⟨c, a, hc, hband.eq_number.symm, hwide, rfl⟩
    | storeAddress _ hstore =>
      cases hstore with
      | tooWide hwide =>
        -- the last two digits fit into every mailbox
        have hbounds := tmod_hundred_bounds m.acc
        simp only at hwide
        omega

/-- A step raises a fault of the memory when it stores an accumulator that no mailbox can
hold, and then only. -/
theorem step_memoryFault_iff {f : Fault} :
    m.step.1 = .fault f ∧ f.ofMemory = true ↔
      ∃ c a : Address, m.counter = c.val ∧ (m.memory.get c).val = 300 + a.val ∧
        (m.acc < -32768 ∨ 32767 < m.acc) ∧ f = .wordTooWide a.val m.acc := by
  constructor
  · rintro ⟨hstep, hmemory⟩
    have htransition := transition_step m
    rw [hstep] at htransition
    exact htransition.of_memoryFault hmemory
  · rintro ⟨c, a, hc, hword, hwide, rfl⟩
    have hband : InBand 3 (m.memory.get c).val a := by
      rw [hword]
      exact inBand_number 3 a
    have htransition : Transition m (.fault (.wordTooWide a.val m.acc))
        { m with counter := m.counter + 1 } :=
      .fetched hc (.store hband (.tooWide hwide))
    simp [htransition.step_eq, Fault.ofMemory]

/-- An accumulator beyond sixteen bits holds a rejected number. -/
theorem Reflects.last_rejected (h : Reflects record m)
    (hwide : m.acc < -32768 ∨ 32767 < m.acc) : record.getLast? = some ⟨m.acc, false⟩ := by
  have hbeyond : m.acc ≠ lastAccepted record := by
    have hleast := h.least
    have hgreatest := h.greatest
    omega
  cases hlast : record.getLast? with
  | none => exact absurd (h.acc_of_accepted (by simp [hlast])) hbeyond
  | some w =>
    cases haccepted : w.accepted with
    | true => exact absurd (h.acc_of_accepted (by simp [hlast, haccepted])) hbeyond
    | false =>
      have hvalue : m.acc = w.value := h.acc_of_rejected w hlast haccepted
      rw [hvalue, ← haccepted]

/-! ## The counter -/

/-- Writing the accumulator leaves the counter alone. -/
@[simp] theorem accept_counter (m : Machine) (value : Int) :
    (m.accept value).2.counter = m.counter := by
  unfold accept
  split <;> rfl

/-- Writing a mailbox leaves the counter alone. -/
@[simp] theorem deposit_counter (m : Machine) (a : Address) (value : Int) :
    (m.deposit a value).2.counter = m.counter := by
  unfold deposit
  split <;> rfl

/-- A jump leaves the counter alone or moves it to the target. -/
theorem jump_counter (m : Machine) (condition : Bool) (target : Address) :
    (m.jump condition target).2.counter = m.counter ∨
      (m.jump condition target).2.counter = target.val := by
  cases condition with
  | true => exact .inr rfl
  | false => exact .inl rfl

/-- An order leaves the counter where it is, or moves it to a mailbox. -/
theorem execute_counter (m : Machine) (order : Order) :
    (m.execute order).2.counter = m.counter ∨
      ∃ a : Address, (m.execute order).2.counter = a.val := by
  cases order with
  | branch op target =>
    cases op with
    | always => exact (m.jump_counter true target).imp_right fun h => ⟨target, h⟩
    | ifZero => exact (m.jump_counter m.zero target).imp_right fun h => ⟨target, h⟩
    | ifPositive => exact (m.jump_counter m.positive target).imp_right fun h => ⟨target, h⟩
  | access op a => cases op <;> simp [execute, access]
  | plain op =>
    cases op with
    | stop => exact .inl rfl
    | print => exact .inl rfl
    | read => cases hpending : m.pending <;> simp [execute, plain, hpending]

/-- A step whose counter is on a mailbox leaves it on a mailbox or just behind the last. -/
theorem step_counter_bounds (hleast : 0 ≤ m.counter) (hgreatest : m.counter ≤ 99) :
    0 ≤ m.step.2.counter ∧ m.step.2.counter ≤ 100 := by
  obtain ⟨c, hc⟩ := Address.exists_of_bounds hleast hgreatest
  cases horder : Order.ofWord? (m.memory.get c).val with
  | none =>
    have hword := (Order.ofWord?_eq_none_iff _).mp horder
    rw [step_of_noInstruction hc hword]
    simp only
    omega
  | some order =>
    rw [step_of_order hc (Order.word_of_ofWord? horder)]
    rcases execute_counter { m with counter := m.counter + 1 } order with hsame | ⟨a, ha⟩
    · rw [hsame]
      simp only
      omega
    · rw [ha]
      omega

/-! ## All histories -/

/-- A memory is one hundred numbers of sixteen bits. -/
theorem values_bounds (memory : Memory) :
    memory.values.length = 100 ∧
      ∀ value ∈ memory.values, -32768 ≤ value ∧ value ≤ 32767 := by
  constructor
  · simp [Memory.values]
  · intro value hvalue
    obtain ⟨w, -, rfl⟩ := List.mem_map.mp hvalue
    exact ⟨w.least, w.greatest⟩

/-- After every history of a new machine, whatever failed in it, the memory is one hundred
numbers of sixteen bits, the accumulator and the flags reflect what was written, and a step
from a mailbox leaves the counter between 0 and 100.  A step raises a fault of the memory
only to store an accumulator whose last number was rejected, and that rejection is among
the faults of the history. -/
theorem afterAll_sound (history : List Action) :
    ((new.afterAll history).memory.values.length = 100 ∧
      ∀ value ∈ (new.afterAll history).memory.values, -32768 ≤ value ∧ value ≤ 32767) ∧
    Reflects (new.writes history) (new.afterAll history) ∧
    (0 ≤ (new.afterAll history).counter → (new.afterAll history).counter ≤ 99 →
      0 ≤ (new.afterAll history).step.2.counter ∧
        (new.afterAll history).step.2.counter ≤ 100) ∧
    ∀ f, (new.afterAll history).step.1 = .fault f → f.ofMemory = true →
      ∃ c a : Address, (new.afterAll history).counter = c.val ∧
        ((new.afterAll history).memory.get c).val = 300 + a.val ∧
        f = .wordTooWide a.val (new.afterAll history).acc ∧
        (new.writes history).getLast? = some ⟨(new.afterAll history).acc, false⟩ ∧
        .numberOutOfRange (new.afterAll history).acc ∈ new.faults history := by
  have hreflects : Reflects (new.writes history) (new.afterAll history) :=
    reflects_new.afterAll history
  refine ⟨values_bounds _, hreflects, step_counter_bounds, ?_⟩
  intro f hstep hmemory
  obtain ⟨c, a, hc, hword, hwide, rfl⟩ := step_memoryFault_iff.mp ⟨hstep, hmemory⟩
  have hrejected := hreflects.last_rejected hwide
  exact ⟨c, a, hc, hword, rfl, hrejected,
    rejected_mem_faults (List.mem_of_getLast? hrejected)⟩

/-- An input that is rejected can be stored no more, and the flags are those of the 7 before
it. -/
example :
    let m := new.afterAll [.load [901, 901, 305] 0, .feed [7, 40000], .step, .step]
    m.step.1 = .fault (.wordTooWide 5 40000) ∧ m.zero = false ∧ m.positive = true := by
  decide +kernel

end Machine

end Mailroom
