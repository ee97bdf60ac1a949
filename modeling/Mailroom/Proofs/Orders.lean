import Mailroom.Machine.Memory
import Mathlib.Tactic.ByContra
import Mathlib.Tactic.SplitIfs

/-!
# Orders and their numbers

An order and its number determine each other: every order is read back from its number,
and no other number is read as that order.

Main results:

- Theorem `Order.ofWord?_eq_some_iff`: a number is read as the order that it stands for.
- Theorem `Order.ofWord?_eq_none_iff`: the numbers that stand for no order.
- Theorems `Order.word_access` and `Order.word_branch`: the number of an order is the
  base of its operation plus the mailbox.
-/

namespace Mailroom

/-! ## Mailbox numbers -/

namespace Address

/-- A mailbox is found by its own number. -/
@[simp] theorem ofInt?_val (a : Address) : ofInt? (a.val : Int) = some a := by
  have hbounds : 0 ≤ (a.val : Int) ∧ (a.val : Int) < 100 := by omega
  simp only [ofInt?, hbounds, and_self, dif_pos]
  congr 1

/-- A number finds the mailbox that has this number. -/
theorem ofInt?_eq_some_iff {n : Int} {a : Address} : ofInt? n = some a ↔ n = a.val := by
  constructor
  · intro hfound
    unfold ofInt? at hfound
    split at hfound
    next hbounds =>
      cases hfound
      simp only
      omega
    next => contradiction
  · rintro rfl
    exact ofInt?_val a

/-- Every number from 0 to 99 is the number of a mailbox. -/
theorem exists_of_bounds {n : Int} (least : 0 ≤ n) (greatest : n ≤ 99) :
    ∃ a : Address, n = a.val := by
  refine ⟨⟨n.toNat, by omega⟩, ?_⟩
  simp only
  omega

end Address

/-! ## Numbers of orders -/

namespace Order

/-- The number of an order on a mailbox. -/
theorem word_access (op : MailboxOp) (a : Address) : (access op a).word = op.base + a.val :=
  rfl

/-- The number of a branch. -/
theorem word_branch (op : BranchOp) (a : Address) : (branch op a).word = op.base + a.val :=
  rfl

/-- The numbers of orders lie between 0 and 902. -/
theorem word_bounds (order : Order) : 0 ≤ order.word ∧ order.word ≤ 902 := by
  cases order with
  | plain op => cases op <;> decide
  | access op a => rw [word_access]; cases op <;> simp only [MailboxOp.base] <;> omega
  | branch op a => rw [word_branch]; cases op <;> simp only [BranchOp.base] <;> omega

/-- The order of a band has the number of that band and mailbox. -/
theorem word_of_ofBand? {band : Nat} {a : Address} {order : Order}
    (h : ofBand? band a = some order) : order.word = 100 * band + a.val := by
  unfold ofBand? at h
  split at h
  all_goals first | contradiction | (cases h; rfl)

/-- There are orders in the bands 1 to 8 only. -/
theorem ofBand?_eq_none_iff (band : Nat) (a : Address) :
    ofBand? band a = none ↔ band = 0 ∨ 8 < band := by
  constructor
  · intro hnone
    by_contra hband
    have hbands : band = 1 ∨ band = 2 ∨ band = 3 ∨ band = 4 ∨ band = 5 ∨ band = 6 ∨
        band = 7 ∨ band = 8 := by omega
    rcases hbands with rfl | rfl | rfl | rfl | rfl | rfl | rfl | rfl <;> contradiction
  · intro hband
    unfold ofBand?
    split
    all_goals first | rfl | omega

/-- The order that is read from a number has that number. -/
theorem word_of_ofWord? {word : Int} {order : Order} (h : ofWord? word = some order) :
    order.word = word := by
  unfold ofWord? at h
  split_ifs at h with hstop hread hprint hnegative
  · cases h
    exact hstop.symm
  · cases h
    exact hread.symm
  · cases h
    exact hprint.symm
  · have hword := word_of_ofBand? h
    simp only at hword
    omega

/-- A number is read as an order exactly when it is the order's number. -/
theorem ofWord?_eq_some_iff {word : Int} {order : Order} :
    ofWord? word = some order ↔ order.word = word := by
  constructor
  · exact word_of_ofWord?
  · rintro rfl
    exact ofWord?_word order

/-- The numbers that are no orders: the negative ones, those from 1 to 99, 900, and those
above 902. -/
theorem ofWord?_eq_none_iff (word : Int) :
    ofWord? word = none ↔
      word < 0 ∨ (1 ≤ word ∧ word ≤ 99) ∨ word = 900 ∨ 903 ≤ word := by
  unfold ofWord?
  split_ifs with hstop hread hprint hnegative
  · simp only [false_iff]
    omega
  · simp only [false_iff]
    omega
  · simp only [false_iff]
    omega
  · simp only [true_iff]
    omega
  · rw [ofBand?_eq_none_iff]
    omega

end Order

end Mailroom
