/-!
# Slices

A part of a list between two positions.  A negative position counts from the end, and a
position beyond either end stands for that end.

Main definitions:

- `slicePosition` turns a signed position into a place in a list.
- `slice` is the part between two positions.
-/

namespace Mailroom

/-- The place that a signed position names in a list of the given length. -/
def slicePosition (length : Nat) (position : Int) : Nat :=
  if position < 0 then (position + length).toNat else min position.toNat length

/-- The elements from position `start` on and before position `stop`. -/
def slice {α : Type} (xs : List α) (start stop : Int) : List α :=
  (xs.take (slicePosition xs.length stop)).drop (slicePosition xs.length start)

/-- The slice from the beginning to a position within the list is a prefix. -/
theorem slice_zero {α : Type} (xs : List α) (n : Nat) : slice xs 0 n = xs.take n := by
  have hn : ¬ (n : Int) < 0 := by omega
  simp only [slice, slicePosition, hn, if_false, Int.toNat_natCast, Int.lt_irrefl,
    Int.toNat_zero, Nat.zero_min, List.drop_zero]
  rw [← List.take_eq_take_min]

end Mailroom
