import Mailroom.Proofs.Histories

/-!
# The in-basket

Inputs are read in the order in which they were queued, and none is lost or read twice.
They lie in a basket that is filled at one end and emptied at the other; the machine shows
it in reading order.  A read that is rejected by the accumulator has emptied the basket by
one value all the same.

Main definitions:

- `InBasket` is the basket, and `InBasket.inOrder` its values in reading order.
- `Machine.received` lists the values that the reads of a history have taken.
- `Machine.handleAll` keeps a basket beside a machine through a history.

Main results:

- Theorem `Machine.received_append_pending`: what was received and what is pending is what
  was queued.
- Theorem `Machine.handleAll_agrees`: the machine shows its basket.
- Theorem `Machine.inputs_conserved` joins them, for every history of a new machine.
-/

namespace Mailroom

/-! ## The basket -/

/-- A basket of inputs.  Values are put in at the front and taken out at the back. -/
structure InBasket where
  values : List Int
  deriving DecidableEq, Repr

namespace InBasket

/-- The basket without values. -/
def empty : InBasket :=
  ⟨[]⟩

/-- Put a value in at the front. -/
def put (b : InBasket) (value : Int) : InBasket :=
  ⟨value :: b.values⟩

/-- Put values in one after the other, and one 0 after them. -/
def queue (b : InBasket) (values : List Int) : InBasket :=
  (values.foldl put b).put 0

/-- Take the value at the back, if there is one. -/
def take? (b : InBasket) : Option (Int × InBasket) :=
  b.values.getLast?.map fun value => (value, ⟨b.values.dropLast⟩)

/-- The values in the order in which they will be taken. -/
def inOrder (b : InBasket) : List Int :=
  b.values.reverse

/-- A value that is put in will be taken last. -/
@[simp] theorem inOrder_put (b : InBasket) (value : Int) :
    (b.put value).inOrder = b.inOrder ++ [value] := by
  simp [put, inOrder]

/-- Values that are put in will be taken last, in their order. -/
theorem inOrder_foldl_put (b : InBasket) (values : List Int) :
    (values.foldl put b).inOrder = b.inOrder ++ values := by
  induction values generalizing b with
  | nil => simp
  | cons value rest ih => simp [ih]

/-- Values that are queued will be taken last, in their order, and a 0 after them. -/
@[simp] theorem inOrder_queue (b : InBasket) (values : List Int) :
    (b.queue values).inOrder = b.inOrder ++ (values ++ [0]) := by
  simp [queue, inOrder_foldl_put]

/-- Nothing can be taken from an empty basket only. -/
theorem take?_eq_none {b : InBasket} (h : b.inOrder = []) : b.take? = none := by
  have hvalues : b.values = [] := List.reverse_eq_nil_iff.mp h
  simp [take?, hvalues]

/-- The first value in order is taken, and the others are left. -/
theorem take?_eq_some {b : InBasket} {value : Int} {rest : List Int}
    (h : b.inOrder = value :: rest) : b.take? = some (value, ⟨rest.reverse⟩) := by
  have hvalues : b.values = rest.reverse ++ [value] := by
    rw [← List.reverse_reverse b.values, show b.values.reverse = value :: rest from h,
      List.reverse_cons]
  simp [take?, hvalues]

end InBasket

namespace Machine

/-! ## Reading -/

/-- The values that an action queues. -/
def queued : Action → List Int
  | .feed values => values ++ [0]
  | _ => []

/-- The value that an action takes out of the queue: a step that reads from a queue with
values leaves it in the accumulator. -/
def received? (m : Machine) : Action → Option Int
  | .step =>
    if m.nextOrder? = some (.plain .read) ∧ m.pending ≠ [] then some m.step.2.acc else none
  | _ => none

/-- The values that are taken out of the queue in a history, in order. -/
def received (m : Machine) : List Action → List Int
  | [] => []
  | a :: rest => (m.received? a).toList ++ (m.act a).2.received rest

variable {m : Machine}

/-- Writing the accumulator leaves the queue alone. -/
@[simp] theorem accept_pending (m : Machine) (value : Int) :
    (m.accept value).2.pending = m.pending := by
  unfold accept
  split <;> rfl

/-- Writing a mailbox leaves the queue alone. -/
@[simp] theorem deposit_pending (m : Machine) (a : Address) (value : Int) :
    (m.deposit a value).2.pending = m.pending := by
  unfold deposit
  split <;> rfl

/-- A jump leaves the queue alone. -/
@[simp] theorem jump_pending (m : Machine) (condition : Bool) (target : Address) :
    (m.jump condition target).2.pending = m.pending := by
  unfold jump
  split <;> rfl

/-- Orders other than the one to read leave the queue alone. -/
theorem execute_pending {order : Order} (h : order ≠ .plain .read) :
    (m.execute order).2.pending = m.pending := by
  cases order with
  | branch op a => cases op <;> simp [execute]
  | access op a => cases op <;> simp [execute, access]
  | plain op =>
    cases op with
    | stop => rfl
    | print => rfl
    | read => exact absurd rfl h

/-- A step that does not read leaves the queue alone. -/
theorem step_pending_of_ne (h : m.nextOrder? ≠ some (.plain .read)) :
    m.step.2.pending = m.pending := by
  cases horder : m.nextOrder? with
  | none =>
    obtain ⟨f, counter, hstep, -⟩ := step_of_nextOrder?_eq_none horder
    rw [hstep]
  | some order =>
    rw [step_of_nextOrder? horder]
    exact execute_pending (by simpa [horder] using h)

/-- Reading from an empty queue changes nothing but the counter. -/
theorem step_of_read_nil (hread : m.nextOrder? = some (.plain .read)) (h : m.pending = []) :
    m.step = (.done none, { m with counter := m.counter + 1 }) := by
  rw [step_of_nextOrder? hread]
  simp [execute, plain, h]

/-- Reading takes the first value out of the queue and writes it to the accumulator. -/
theorem step_of_read_cons (hread : m.nextOrder? = some (.plain .read)) {value : Int}
    {rest : List Int} (h : m.pending = value :: rest) :
    m.step = { m with counter := m.counter + 1, pending := rest }.accept value := by
  rw [step_of_nextOrder? hread]
  simp [execute, plain, h]

/-- The accumulator holds what was written to it, whether it accepts it or not. -/
@[simp] theorem accept_acc (m : Machine) (value : Int) : (m.accept value).2.acc = value := by
  unfold accept
  split <;> rfl

/-- A step that reads receives the first value of the queue. -/
theorem received?_of_cons (hread : m.nextOrder? = some (.plain .read)) {value : Int}
    {rest : List Int} (h : m.pending = value :: rest) : m.received? .step = some value := by
  simp [received?, hread, h, step_of_read_cons hread h]

/-! ## Conservation -/

/-- New mailboxes leave the queue alone. -/
@[simp] theorem refill_pending (m : Machine) (r : Except Fault Memory) :
    (m.refill r).2.pending = m.pending := by
  cases r <;> rfl

/-- What an action receives comes from the front of the queue, and what it queues goes to
the end. -/
theorem received?_append_pending (m : Machine) (a : Action) :
    (m.received? a).toList ++ (m.act a).2.pending = m.pending ++ queued a := by
  cases a with
  | feed values => simp [received?, act, feed, queued]
  | load program offset => simp [received?, act, queued]
  | write address value => simp [received?, act, queued]
  | setCounter counter => simp [received?, act, queued]
  | step =>
    by_cases hread : m.nextOrder? = some (.plain .read)
    · cases hpending : m.pending with
      | nil => simp [received?, act, queued, hpending, step_of_read_nil hread hpending]
      | cons value rest =>
        simp [act, queued, received?_of_cons hread hpending, step_of_read_cons hread hpending]
    · simp [received?, act, queued, hread, step_pending_of_ne hread]

/-- What a history receives and what it leaves pending is what was pending before and what
it queues. -/
theorem received_append_pending (m : Machine) (history : List Action) :
    m.received history ++ (m.afterAll history).pending =
      m.pending ++ history.flatMap queued := by
  induction history generalizing m with
  | nil => simp [received, afterAll]
  | cons a rest ih =>
    calc
      m.received (a :: rest) ++ (m.afterAll (a :: rest)).pending
          = (m.received? a).toList ++
              ((m.act a).2.received rest ++ ((m.act a).2.afterAll rest).pending) := by
        simp [received, afterAll]
      _ = ((m.received? a).toList ++ (m.act a).2.pending) ++ rest.flatMap queued := by
        rw [ih, List.append_assoc]
      _ = m.pending ++ (a :: rest).flatMap queued := by
        rw [received?_append_pending, List.flatMap_cons, List.append_assoc]

/-! ## The basket beside the machine -/

/-- What an action takes out of the basket of a machine, and the basket that it leaves. -/
def handle (m : Machine) (b : InBasket) : Action → Option Int × InBasket
  | .feed values => (none, b.queue values)
  | .step =>
    match m.nextOrder?, b.take? with
    | some (.plain .read), some (value, left) => (some value, left)
    | _, _ => (none, b)
  | _ => (none, b)

/-- What a history takes out of the basket of a machine, and the basket that it leaves. -/
def handleAll (m : Machine) (b : InBasket) : List Action → List Int × InBasket
  | [] => ([], b)
  | a :: rest =>
    let more := (m.act a).2.handleAll (m.handle b a).2 rest
    ((m.handle b a).1.toList ++ more.1, more.2)

/-- An action receives what it takes out of the basket, and leaves pending what is left in
the basket. -/
theorem handle_agrees {b : InBasket} (h : m.pending = b.inOrder) (a : Action) :
    m.received? a = (m.handle b a).1 ∧ (m.act a).2.pending = (m.handle b a).2.inOrder := by
  cases a with
  | feed values => simp [received?, handle, act, feed, h]
  | load program offset => simp [received?, handle, act, h]
  | write address value => simp [received?, handle, act, h]
  | setCounter counter => simp [received?, handle, act, h]
  | step =>
    by_cases hread : m.nextOrder? = some (.plain .read)
    · cases hpending : m.pending with
      | nil =>
        have htake := InBasket.take?_eq_none (h.symm.trans hpending)
        simp [received?, handle, act, hread, hpending, htake, ← h,
          step_of_read_nil hread hpending]
      | cons value rest =>
        have htake := InBasket.take?_eq_some (h.symm.trans hpending)
        simp [received?_of_cons hread hpending, handle, act, hread, htake,
          step_of_read_cons hread hpending, InBasket.inOrder]
    · have hhandle : m.handle b .step = (none, b) := by
        unfold handle
        split <;> simp_all
      simp [received?, hhandle, act, hread, step_pending_of_ne hread, h]

/-- A history receives what it takes out of the basket, and leaves pending what is left in
the basket. -/
theorem handleAll_agrees {b : InBasket} (h : m.pending = b.inOrder)
    (history : List Action) :
    m.received history = (m.handleAll b history).1 ∧
      (m.afterAll history).pending = (m.handleAll b history).2.inOrder := by
  induction history generalizing m b with
  | nil => exact ⟨rfl, h⟩
  | cons a rest ih =>
    obtain ⟨hreceived, hpending⟩ := handle_agrees h a
    obtain ⟨hmore, hlast⟩ := ih hpending
    refine ⟨?_, hlast⟩
    rw [received, handleAll, hreceived, hmore]

/-- In every history of a new machine, whatever fails in it, the values that were received
and those that are pending are the values that were queued, in order, with a 0 after each
group.  They are taken from a basket that is filled at one end and emptied at the other.  A
read receives the first pending value, also if the accumulator rejects it, and a read from
an empty queue changes nothing but the counter. -/
theorem inputs_conserved (memory : Memory) (history : List Action) :
    let start : Machine := { new with memory := memory }
    start.received history ++ (start.afterAll history).pending = history.flatMap queued ∧
    start.handleAll .empty history =
      (start.received history, ⟨(start.afterAll history).pending.reverse⟩) ∧
    ∀ m : Machine, m.nextOrder? = some (.plain .read) →
      (∀ value rest, m.pending = value :: rest →
        m.received? .step = some value ∧
          m.step = if -500 ≤ value ∧ value ≤ 499 then
            (.done none,
              { m with
                counter := m.counter + 1, acc := value, pending := rest
                zero := decide (value = 0), positive := decide (0 ≤ value) })
          else
            (.fault (.numberOutOfRange value),
              { m with counter := m.counter + 1, acc := value, pending := rest })) ∧
      (m.pending = [] → m.step = (.done none, { m with counter := m.counter + 1 })) := by
  intro start
  obtain ⟨hreceived, hpending⟩ := handleAll_agrees (m := start) (b := .empty) rfl history
  refine ⟨received_append_pending start history, ?_, ?_⟩
  · rw [hreceived, hpending, InBasket.inOrder, List.reverse_reverse]
  · intro m hread
    refine ⟨fun value rest h => ⟨received?_of_cons hread h, ?_⟩, step_of_read_nil hread⟩
    rw [step_of_read_cons hread h]
    split
    next hbounds => exact accept_of_bounds _ hbounds.1 hbounds.2
    next hbounds =>
      refine accept_of_beyond _ ?_
      simp only [minAcc, maxAcc]
      omega

/-- An input that the accumulator rejects is received all the same, and it is no longer
pending. -/
theorem inputs_conserved_rejected :
    let m : Machine :=
      { new with
        memory := Memory.empty.set 0 ⟨901, by decide, by decide⟩
        pending := [1000, 0] }
    m.nextOrder? = some (.plain .read) ∧ m.pending = 1000 :: [0] ∧
      m.received? .step = some 1000 ∧
      m.step = (.fault (.numberOutOfRange 1000),
        { m with counter := m.counter + 1, acc := 1000, pending := [0] }) := by
  intro m
  have hread : m.nextOrder? = some (.plain .read) := by decide +kernel
  obtain ⟨hreceived, hstep⟩ := ((inputs_conserved .empty []).2.2 m hread).1 1000 [0] rfl
  exact ⟨hread, rfl, hreceived, hstep⟩

/-- Two groups of inputs, with a read between them. -/
example :
    let start : Machine :=
      { new with memory := Memory.empty.set 0 ⟨901, by decide, by decide⟩ }
    let history := [.feed [3, 4], .step, .setCounter 0, .feed [5], .step]
    start.received history = [3, 4] ∧ (start.afterAll history).pending = [0, 5, 0] := by
  decide +kernel

end Machine

end Mailroom
