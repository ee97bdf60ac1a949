import Mathlib.Data.Finset.Filter
import Mathlib.Data.Fintype.Basic
import Mailroom.Proofs.Histories

/-!
# What a running program stores

A program may write into any mailbox, its own words included.  But what it writes comes from
the accumulator, whole or cut to its last two digits, and the accumulator holds numbers below
all orders to load, to branch, to read and to print.  So no such order is ever made by a
running program; it can only overwrite those that are there.

Main definitions:

- `Machine.stores` lists what the steps of a history store.
- `Holds` relates a memory to the one before some stores.
- `Memory.highWords` is the set of mailboxes with a word that cannot be stored.

Main results:

- Theorems `Machine.step_memory_of_stored` and `Machine.step_memory_of_not_stored`: a step
  puts what it stores into its mailbox, and leaves all others alone.
- Theorem `Machine.holds_afterAll`: every mailbox holds what was last stored in it.
- Theorem `Machine.highWords_afterAll_subset`: the words that cannot be stored get fewer.
- Theorem `Machine.running_stores_small` joins them.
-/

namespace Mailroom

/-! ## Stores -/

/-- A number that is stored in a mailbox, and the operation that stores it. -/
structure Store where
  op : MailboxOp
  mailbox : Address
  number : Int
  deriving DecidableEq, Repr

/-- The number is one that the accumulator can represent, and it has two digits at most if
the operation keeps only two. -/
structure Store.Small (s : Store) : Prop where
  least : -500 ≤ s.number
  greatest : s.number ≤ 499
  digits : s.op = .storeAddress → -99 ≤ s.number ∧ s.number ≤ 99

/-- A small number is the number of a word. -/
theorem Store.Small.exists_word {s : Store} (h : s.Small) : ∃ w : Word, w.val = s.number :=
  ⟨⟨s.number, Int.le_trans (by decide) h.least, Int.le_trans h.greatest (by decide)⟩, rfl⟩

/-- The last of some stores in the mailbox `a`. -/
def lastStore? (a : Address) (record : List Store) : Option Store :=
  (record.filter (·.mailbox = a)).getLast?

/-- The last store of two records is that of the later one, if it has any. -/
theorem lastStore?_append (a : Address) (earlier later : List Store) :
    lastStore? a (earlier ++ later) = (lastStore? a later).or (lastStore? a earlier) := by
  rw [lastStore?, List.filter_append, List.getLast?_append]
  rfl

/-- The last store in a mailbox is one of the record. -/
theorem mem_of_lastStore? {a : Address} {record : List Store} {s : Store}
    (h : lastStore? a record = some s) : s ∈ record :=
  List.mem_of_mem_filter (List.mem_of_getLast? h)

/-- Every mailbox holds the number that was last stored in it, and a mailbox without a store
holds the word that it held before. -/
def Holds (before : Memory) (record : List Store) (after : Memory) : Prop :=
  ∀ a : Address,
    match lastStore? a record with
    | none => after.get a = before.get a
    | some s => (after.get a).val = s.number

/-- Without a store nothing changes. -/
theorem holds_nil (memory : Memory) : Holds memory [] memory :=
  fun _ => rfl

/-- A word that is set is the last one stored. -/
theorem holds_set (memory : Memory) {s : Store} {w : Word} (hw : w.val = s.number) :
    Holds memory [s] (memory.set s.mailbox w) := by
  intro a
  by_cases ha : s.mailbox = a
  · subst ha
    simpa [lastStore?] using hw
  · simpa [lastStore?, ha] using memory.get_set_of_ne w ha

/-- Stores are made one record after the other. -/
theorem Holds.trans {before middle after : Memory} {earlier later : List Store}
    (hearlier : Holds before earlier middle) (hlater : Holds middle later after) :
    Holds before (earlier ++ later) after := by
  intro a
  have hfirst := hearlier a
  have hsecond := hlater a
  rw [lastStore?_append]
  cases hlast : lastStore? a later with
  | some s => simpa [hlast] using hsecond
  | none =>
    rw [hlast] at hsecond
    cases hbefore : lastStore? a earlier with
    | some s => simpa [hbefore, ← hsecond] using hfirst
    | none => simpa [hbefore, ← hsecond] using hfirst

namespace Machine

/-! ## Steps that store, and steps that do not -/

/-- What an order stores, if it is one to store: the accumulator, or its last two digits. -/
def stored? (m : Machine) : Order → Option Store
  | .access .store a => some ⟨.store, a, m.acc⟩
  | .access .storeAddress a => some ⟨.storeAddress, a, lowDigits m.acc⟩
  | _ => none

/-- What an action makes a step store. -/
def store? (m : Machine) : Action → Option Store
  | .step => m.nextOrder?.bind m.stored?
  | _ => none

/-- What the steps of a history store, in order. -/
def stores (m : Machine) : List Action → List Store
  | [] => []
  | a :: rest => (m.store? a).toList ++ (m.act a).2.stores rest

/-- Writing the accumulator leaves the mailboxes alone. -/
@[simp] theorem accept_memory (m : Machine) (value : Int) :
    (m.accept value).2.memory = m.memory := by
  unfold accept
  split <;> rfl

/-- A jump leaves the mailboxes alone. -/
@[simp] theorem jump_memory (m : Machine) (condition : Bool) (target : Address) :
    (m.jump condition target).2.memory = m.memory := by
  unfold jump
  split <;> rfl

/-- A word is put into its mailbox. -/
theorem deposit_word (m : Machine) (a : Address) (w : Word) :
    m.deposit a w.val = (.done none, { m with memory := m.memory.set a w }) := by
  simp only [deposit, Memory.put, Word.ofInt?_val]

/-- An order that stores nothing leaves the mailboxes alone. -/
theorem execute_memory_of_not_stored {m : Machine} {order : Order}
    (h : m.stored? order = none) : (m.execute order).2.memory = m.memory := by
  cases order with
  | branch op a => cases op <;> simp [execute]
  | access op a => cases op <;> simp_all [stored?, execute, access]
  | plain op =>
    cases op with
    | stop => rfl
    | print => rfl
    | read => cases hpending : m.pending <;> simp [execute, plain, hpending]

/-- An order that stores puts the number into its mailbox, if a word can hold it. -/
theorem execute_memory_of_stored {m : Machine} {order : Order} {s : Store} {w : Word}
    (h : m.stored? order = some s) (hw : w.val = s.number) :
    (m.execute order).2.memory = m.memory.set s.mailbox w := by
  cases order with
  | branch op a => simp [stored?] at h
  | plain op => simp [stored?] at h
  | access op a =>
    cases op with
    | add => simp [stored?] at h
    | sub => simp [stored?] at h
    | load => simp [stored?] at h
    | store =>
      obtain rfl := Option.some.inj h
      rw [execute, access, ← show w.val = m.acc from hw, deposit_word]
    | storeAddress =>
      obtain rfl := Option.some.inj h
      rw [execute, access, ← show w.val = lowDigits m.acc from hw, deposit_word]

/-- A step that stores nothing leaves the mailboxes alone. -/
theorem step_memory_of_not_stored {m : Machine} (h : m.store? .step = none) :
    m.step.2.memory = m.memory := by
  cases horder : m.nextOrder? with
  | none =>
    obtain ⟨f, counter, hstep, -⟩ := step_of_nextOrder?_eq_none horder
    rw [hstep]
  | some order =>
    have hmoved : { m with counter := m.counter + 1 }.stored? order = none := by
      rw [store?, horder] at h
      exact h
    rw [step_of_nextOrder? horder, execute_memory_of_not_stored hmoved]

/-- A step that stores puts the number into its mailbox, if a word can hold it. -/
theorem step_memory_of_stored {m : Machine} {s : Store} {w : Word}
    (h : m.store? .step = some s) (hw : w.val = s.number) :
    m.step.2.memory = m.memory.set s.mailbox w := by
  obtain ⟨order, horder, hstored⟩ := Option.bind_eq_some_iff.mp h
  have hmoved : { m with counter := m.counter + 1 }.stored? order = some s := hstored
  rw [step_of_nextOrder? horder, execute_memory_of_stored hmoved hw]

/-! ## Running programs -/

/-- The action leaves the mailboxes to the steps of the machine. -/
def Action.keepsOut : Action → Bool
  | .load _ _ => false
  | .write _ _ => false
  | _ => true

/-- The accumulator holds a number that it can represent. -/
def InRange (m : Machine) : Prop :=
  -500 ≤ m.acc ∧ m.acc ≤ 499

variable {m : Machine} {a : Action} {history : List Action}

/-- What is stored of an accumulator within its bounds is small. -/
theorem InRange.small (h : m.InRange) {s : Store} (hs : m.store? a = some s) : s.Small := by
  cases a with
  | step =>
    obtain ⟨order, -, hstored⟩ := Option.bind_eq_some_iff.mp hs
    unfold stored? at hstored
    split at hstored
    · obtain rfl := Option.some.inj hstored
      exact ⟨h.1, h.2, by simp⟩
    · obtain rfl := Option.some.inj hstored
      have hbounds := tmod_hundred_bounds m.acc
      constructor <;> simp only [lowDigits] <;> omega
    · contradiction
  | feed values => simp [store?] at hs
  | load program offset => simp [store?] at hs
  | write address value => simp [store?] at hs
  | setCounter counter => simp [store?] at hs

/-- An action that is not rejected for a number keeps the accumulator within its bounds. -/
theorem InRange.act (h : m.InRange) (hkeeps : a.keepsOut = true)
    (haccepted : ∀ v, (m.act a).1 ≠ some (.numberOutOfRange v)) : (m.act a).2.InRange := by
  cases a with
  | feed values => exact h
  | setCounter counter => exact h
  | load program offset => simp [Action.keepsOut] at hkeeps
  | write address value => simp [Action.keepsOut] at hkeeps
  | step =>
    cases hwritten : m.nextOrder?.bind m.written? with
    | none =>
      obtain ⟨hacc, -⟩ := step_of_not_written hwritten
      unfold InRange Machine.act
      rwa [hacc]
    | some value =>
      obtain ⟨hacc, ⟨hleast, hgreatest, -⟩ | ⟨-, hfault, -⟩⟩ := step_of_written hwritten
      · unfold InRange Machine.act
        rw [hacc]
        exact ⟨hleast, hgreatest⟩
      · exact absurd (congrArg StepOutcome.fault? hfault) (haccepted value)

/-- An action leaves in the mailboxes what it stores. -/
theorem InRange.holds (h : m.InRange) (hkeeps : a.keepsOut = true) :
    Holds m.memory (m.store? a).toList (m.act a).2.memory := by
  cases a with
  | feed values => exact holds_nil _
  | setCounter counter => exact holds_nil _
  | load program offset => simp [Action.keepsOut] at hkeeps
  | write address value => simp [Action.keepsOut] at hkeeps
  | step =>
    cases hs : m.store? .step with
    | none =>
      rw [Machine.act, step_memory_of_not_stored hs]
      exact holds_nil _
    | some s =>
      obtain ⟨w, hw⟩ := (h.small hs).exists_word
      rw [Machine.act, step_memory_of_stored hs hw]
      exact holds_set _ hw

/-- The faults of two histories, one after the other. -/
theorem faults_append (m : Machine) (earlier later : List Action) :
    m.faults (earlier ++ later) = m.faults earlier ++ (m.afterAll earlier).faults later := by
  induction earlier generalizing m with
  | nil => rfl
  | cons a rest ih =>
    rw [List.cons_append, faults, ih, faults, List.append_assoc]
    rfl

/-- The actions of a history leave the mailboxes to the steps, and no step is rejected for a
number. -/
structure Undisturbed (m : Machine) (history : List Action) : Prop where
  keepsOut : ∀ a ∈ history, a.keepsOut = true
  accepted : ∀ v, .numberOutOfRange v ∉ m.faults history

/-- The first action of an undisturbed history is not rejected for a number. -/
theorem Undisturbed.first (h : m.Undisturbed (a :: history)) :
    a.keepsOut = true ∧ ∀ v, (m.act a).1 ≠ some (.numberOutOfRange v) := by
  refine ⟨h.keepsOut a List.mem_cons_self, fun v hv => h.accepted v ?_⟩
  rw [faults, hv]
  exact List.mem_cons_self

/-- The rest of an undisturbed history is undisturbed. -/
theorem Undisturbed.rest (h : m.Undisturbed (a :: history)) :
    (m.act a).2.Undisturbed history where
  keepsOut b hb := h.keepsOut b (List.mem_cons_of_mem a hb)
  accepted v hv := h.accepted v (List.mem_append_right _ hv)

/-- Both parts of an undisturbed history are undisturbed. -/
theorem Undisturbed.parts {earlier later : List Action}
    (h : m.Undisturbed (earlier ++ later)) :
    m.Undisturbed earlier ∧ (m.afterAll earlier).Undisturbed later := by
  constructor
  · refine ⟨fun a ha => h.keepsOut a (List.mem_append_left _ ha), fun v hv => h.accepted v ?_⟩
    rw [faults_append]
    exact List.mem_append_left _ hv
  · refine ⟨fun a ha => h.keepsOut a (List.mem_append_right _ ha), fun v hv => h.accepted v ?_⟩
    rw [faults_append]
    exact List.mem_append_right _ hv

/-- An undisturbed history keeps the accumulator within its bounds. -/
theorem InRange.afterAll (h : m.InRange) (hhistory : m.Undisturbed history) :
    (m.afterAll history).InRange := by
  induction history generalizing m with
  | nil => exact h
  | cons a rest ih =>
    obtain ⟨hkeeps, haccepted⟩ := hhistory.first
    exact ih (h.act hkeeps haccepted) hhistory.rest

/-- Everything that an undisturbed history stores is small. -/
theorem InRange.small_stores (h : m.InRange) (hhistory : m.Undisturbed history) :
    ∀ s ∈ m.stores history, s.Small := by
  induction history generalizing m with
  | nil => simp [stores]
  | cons a rest ih =>
    obtain ⟨hkeeps, haccepted⟩ := hhistory.first
    intro s hs
    rw [stores, List.mem_append, Option.mem_toList] at hs
    rcases hs with hs | hs
    · exact h.small hs
    · exact ih (h.act hkeeps haccepted) hhistory.rest s hs

/-- An undisturbed history leaves in the mailboxes what it stores. -/
theorem holds_afterAll (h : m.InRange) (hhistory : m.Undisturbed history) :
    Holds m.memory (m.stores history) (m.afterAll history).memory := by
  induction history generalizing m with
  | nil => exact holds_nil _
  | cons a rest ih =>
    obtain ⟨hkeeps, haccepted⟩ := hhistory.first
    exact (h.holds hkeeps).trans (ih (h.act hkeeps haccepted) hhistory.rest)

end Machine

/-! ## Words that cannot be stored -/

/-- The mailboxes with a word from 500 on: orders to load, to branch, to read and to print,
and words that are no orders. -/
def Memory.highWords (memory : Memory) : Finset Address :=
  Finset.univ.filter fun a => 500 ≤ (memory.get a).val

namespace Machine

variable {m : Machine} {history : List Action}

/-- In an undisturbed history a mailbox has a high word only if it has had this word from
the beginning. -/
theorem get_of_mem_highWords (h : m.InRange) (hhistory : m.Undisturbed history) {a : Address}
    (ha : a ∈ (m.afterAll history).memory.highWords) :
    (m.afterAll history).memory.get a = m.memory.get a := by
  have hholds := holds_afterAll h hhistory a
  cases hlast : lastStore? a (m.stores history) with
  | none => simpa [hlast] using hholds
  | some s =>
    -- what was stored is small
    have hgreatest := (h.small_stores hhistory s (mem_of_lastStore? hlast)).greatest
    have hhigh := (Finset.mem_filter.mp ha).2
    simp only [hlast] at hholds
    omega

/-- In an undisturbed history no mailbox comes to have a high word. -/
theorem highWords_afterAll_subset (h : m.InRange) (hhistory : m.Undisturbed history) :
    (m.afterAll history).memory.highWords ⊆ m.memory.highWords := by
  intro a ha
  have hsame := get_of_mem_highWords h hhistory ha
  rw [Memory.highWords, Finset.mem_filter, hsame] at ha
  exact Finset.mem_filter.mpr ha

/-- A machine whose accumulator is within its bounds is stepped, and served from outside
without a load or a write to a mailbox, and no step is rejected for a number; any of the steps
may fail for another reason.  Then a mailbox without a store holds the word that it held
before, and the others hold what was last stored in them: a number within the bounds of the
accumulator, and one of two digits at most if that was its last two digits.  No mailbox comes
to have a word from 500 on, and those that have one have kept it from the beginning on. -/
theorem running_stores_small (hleast : -500 ≤ m.acc) (hgreatest : m.acc ≤ 499)
    (hkeepsOut : ∀ a ∈ history, a.keepsOut = true)
    (haccepted : ∀ v, .numberOutOfRange v ∉ m.faults history) :
    (∀ a : Address,
      match lastStore? a (m.stores history) with
      | none => (m.afterAll history).memory.get a = m.memory.get a
      | some s => ((m.afterAll history).memory.get a).val = s.number ∧
        -500 ≤ s.number ∧ s.number ≤ 499 ∧
        (s.op = .storeAddress → -99 ≤ s.number ∧ s.number ≤ 99)) ∧
    ∀ earlier later, history = earlier ++ later →
      (m.afterAll history).memory.highWords ⊆ (m.afterAll earlier).memory.highWords ∧
      ∀ a ∈ (m.afterAll history).memory.highWords,
        (m.afterAll history).memory.get a = (m.afterAll earlier).memory.get a := by
  have hrange : m.InRange := ⟨hleast, hgreatest⟩
  have hhistory : m.Undisturbed history := ⟨hkeepsOut, haccepted⟩
  constructor
  · intro a
    have hholds := holds_afterAll hrange hhistory a
    cases hlast : lastStore? a (m.stores history) with
    | none => simpa [hlast] using hholds
    | some s =>
      have hsmall := hrange.small_stores hhistory s (mem_of_lastStore? hlast)
      rw [hlast] at hholds
      exact ⟨hholds, hsmall.least, hsmall.greatest, hsmall.digits⟩
  · rintro earlier later rfl
    obtain ⟨hearlier, hlater⟩ := hhistory.parts
    have hmiddle := hrange.afterAll hearlier
    rw [afterAll, List.foldl_append]
    exact ⟨highWords_afterAll_subset hmiddle hlater,
      fun a ha => get_of_mem_highWords hmiddle hlater ha⟩

/-- A program that overwrites the three orders behind it, the first of them twice. -/
def overwritingMachine : Machine :=
  { new with
    memory := (Memory.empty.load [302, 403, 699, 901, 402] 0).toOption.getD .empty
    acc := -437 }

/-- Two orders that were overwritten are none any more, and the steps over them fail; then the
first of them is overwritten again. -/
theorem running_stores_small_overwriting :
    let history : List Action := [.step, .step, .step, .feed [7], .step, .step]
    overwritingMachine.faults history =
      [.invalidInstruction (-437) (some 2), .invalidInstruction (-37) (some 3)] ∧
    ((overwritingMachine.afterAll history).memory.get 2).val = -37 ∧
    (overwritingMachine.afterAll history).memory.highWords ⊆
      overwritingMachine.memory.highWords := by
  intro history
  have hfaults : overwritingMachine.faults history =
      [.invalidInstruction (-437) (some 2), .invalidInstruction (-37) (some 3)] := by
    decide +kernel
  have haccepted : ∀ v, .numberOutOfRange v ∉ overwritingMachine.faults history := by
    simp [hfaults]
  have hkeepsOut : ∀ a ∈ history, a.keepsOut = true := by decide
  obtain ⟨hmailboxes, hhigh⟩ := running_stores_small (m := overwritingMachine) (by decide)
    (by decide) hkeepsOut haccepted
  have hlast : lastStore? 2 (overwritingMachine.stores history) =
      some ⟨.storeAddress, 2, -37⟩ := by
    decide +kernel
  have hmailbox := hmailboxes 2
  rw [hlast] at hmailbox
  exact ⟨hfaults, hmailbox.1, (hhigh [] history rfl).1⟩

end Machine

end Mailroom
