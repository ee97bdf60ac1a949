import Std.Data.HashMap

/-!
# Similarity of words

Two words are compared by their matching blocks: the longest run of characters that
stands in both is taken first, and then the texts on its left and on its right are
compared in the same way.  The similarity is twice the number of matched characters
over the number of all characters.

In a word of two hundred characters or more, characters that fill more than about a
hundredth of it are popular: no run starts from them, but a run found by other
characters still grows over them.

Main definitions:

- `matchedChars` is the number of characters in the matching blocks.
- `similarity` is the ratio, a number from 0 to 1.
- `closeMatches` lists the best three candidates that reach the cutoff.
-/

namespace Mailroom.Text

/-! ## Popular characters -/

-- the hash is named, because more than one may be in scope
/-- A table with values for characters. -/
abbrev CharTable (β : Type) : Type :=
  @Std.HashMap Char β instBEqOfDecidableEq instHashableChar

/-- How often each character stands in a word. -/
def occurrences (word : List Char) : CharTable Nat :=
  word.foldr (fun c counts => counts.insert c (counts.getD c 0 + 1)) ∅

/-- The characters that stand in a long word more often than once in a hundred characters
and once more. -/
def popularChars (word : List Char) : List Char :=
  if word.length < 200 then []
  else
    ((occurrences word).toList.filter fun e => word.length / 100 + 1 < e.2).map (·.1)

/-! ## Runs -/

/-- The places of every character in a word, in ascending order.  Popular characters have
none. -/
def placesOf (popular word : List Char) : CharTable (List Nat) :=
  word.zipIdx.foldr
    (fun p places =>
      if popular.contains p.1 then places
      else places.insert p.1 (p.2 :: places.getD p.1 []))
    ∅

/-- The lengths of the runs that start at one character, for its places in a word.  The
second list holds the places and lengths for the character after it; both are in ascending
order of places. -/
def runsFrom : List Nat → List (Nat × Nat) → List (Nat × Nat)
  | [], _ => []
  | place :: places, next =>
    let next := next.dropWhile (·.1 ≤ place)
    let behind :=
      match next with
      | (after, length) :: _ => if after = place + 1 then length else 0
      | [] => 0
    (place, behind + 1) :: runsFrom places next

/-- A run of `size` equal characters at place `start` of one word and at place `other` of
another. -/
structure Block where
  start : Nat
  other : Nat
  size : Nat
  deriving DecidableEq, Repr

/-- The longest run without popular characters: of equally long ones the one that starts
first in `a`, and of those the one that starts first in `b`.  Without any run, the empty one
at the beginning.  Runs are looked at from the last one to the first. -/
def longestRun (popular a b : List Char) : Block :=
  let places := placesOf popular b
  (a.zipIdx.foldr
    (fun p (found : Block × List (Nat × Nat)) =>
      let runs := runsFrom (places.getD p.1 []) found.2
      (runs.foldr
        (fun run best => if best.size ≤ run.2 then ⟨p.2, run.1, run.2⟩ else best) found.1,
        runs))
    (⟨0, 0, 0⟩, [])).1

/-- The number of equal characters at the beginning of two texts. -/
def commonLength (a b : List Char) : Nat :=
  ((a.zip b).takeWhile fun p => p.1 == p.2).length

/-- Make a block longer on both sides while the characters agree, popular ones too. -/
def Block.grow (a b : List Char) (m : Block) : Block :=
  let left := commonLength (a.take m.start).reverse (b.take m.other).reverse
  let right := commonLength (a.drop (m.start + m.size)) (b.drop (m.other + m.size))
  ⟨m.start - left, m.other - left, left + m.size + right⟩

/-! ## Matching blocks -/

/-- The first matching block of two texts, if any character of theirs matches.  A block
lies within the first text. -/
def matchingBlock? (popular a b : List Char) : Option Block :=
  let m := (longestRun popular a b).grow a b
  if 0 < m.size ∧ m.start + m.size ≤ a.length then some m else none

/-- A matching block is not empty and lies within the first text. -/
theorem matchingBlock?_bounds {popular a b : List Char} {m : Block}
    (h : matchingBlock? popular a b = some m) :
    0 < m.size ∧ m.start + m.size ≤ a.length := by
  unfold matchingBlock? at h
  simp only [Option.ite_none_right_eq_some, Option.some.injEq] at h
  obtain ⟨hm, rfl⟩ := h
  exact hm

/-- The number of characters in the matching blocks of two texts: those of the first
block, of the texts before it, and of the texts after it. -/
def matchedWithin (popular a b : List Char) : Nat :=
  match h : matchingBlock? popular a b with
  | none => 0
  | some m =>
    have := matchingBlock?_bounds h
    m.size + matchedWithin popular (a.take m.start) (b.take m.other) +
      matchedWithin popular (a.drop (m.start + m.size)) (b.drop (m.other + m.size))
termination_by a.length
decreasing_by
  · simp only [List.length_take]
    omega
  · simp only [List.length_drop]
    omega

/-- The number of characters of `candidate` that the matching blocks cover. -/
def matchedChars (candidate word : List Char) : Nat :=
  matchedWithin (popularChars word) candidate word

/-- Twice the matched characters over all characters, and 1 for two empty texts. -/
def similarity (candidate word : List Char) : Rat :=
  if candidate.length + word.length = 0 then 1
  else (2 * matchedChars candidate word : Nat) / (candidate.length + word.length : Nat)

/-! ## Close matches -/

/-- The least similarity of a suggestion. -/
def suggestionCutoff : Rat :=
  3 / 5

/-- The greatest number of suggestions. -/
def suggestionLimit : Nat :=
  3

/-- One candidate is a better suggestion than another, or as good: it is more similar, or
equally similar and not before the other in code point order. -/
def isBetterMatch (p q : Rat × String) : Bool :=
  decide (q.1 < p.1) || (p.1 == q.1 && decide (q.2 ≤ p.2))

/-- The candidates that reach the cutoff, from best to worst, at most three. -/
def closeMatches (word : List Char) (candidates : List String) : List String :=
  let scored := candidates.map fun x => (similarity x.toList word, x)
  let kept := scored.filter fun p => decide (suggestionCutoff ≤ p.1)
  ((kept.mergeSort isBetterMatch).take suggestionLimit).map (·.2)

end Mailroom.Text
