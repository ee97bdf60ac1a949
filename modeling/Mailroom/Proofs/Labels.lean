import Mailroom.Assembly.Symbols
import Mathlib.Order.Bounds.Basic

/-!
# Labels on instructions

Where labels stand, told on the tokens of a program alone: a label stands on an
instruction when it is the token directly before it.  The number of an instruction counts
the instructions before it.

Main definitions:

- `instructionsOf` lists the instructions among some tokens.
- `Heads` and `StandsOn` say that a label stands on the instruction with some number.
- `Binds` says that this instruction is the last one with the label.

Main results:

- Theorem `Slot.label_ofTokens_iff`: the slots of a program carry the labels that stand
  on its instructions.
-/

namespace Mailroom

/-! ## Instructions and their labels -/

/-- The instruction in a token. -/
def Token.instruction? : Token → Option (Located Instruction)
  | label _ => none
  | instruction i => some i

/-- The instructions among some tokens, in order. -/
def instructionsOf (tokens : List Token) : List (Located Instruction) :=
  tokens.filterMap Token.instruction?

/-- The label is the token directly before the instruction with number `n`. -/
def Heads (tokens : List Token) (label : Located String) (n : Nat) : Prop :=
  ∃ before i after, tokens = before ++ .label label :: .instruction i :: after ∧
    (instructionsOf before).length = n

/-- A label with the name `x` stands on the instruction with number `n`. -/
def StandsOn (tokens : List Token) (x : String) (n : Nat) : Prop :=
  ∃ label, Heads tokens label n ∧ label.value = x

/-- The last instruction that a label with the name `x` stands on has the number `n`. -/
def Binds (tokens : List Token) (x : String) (n : Nat) : Prop :=
  IsGreatest {m | StandsOn tokens x m} n

/-- No name stands on two instructions. -/
def DistinctLabels (tokens : List Token) : Prop :=
  ∀ x m n, StandsOn tokens x m → StandsOn tokens x n → m = n

/-- An instruction comes before those of the tokens after it. -/
@[simp] theorem instructionsOf_instruction (i : Located Instruction) (rest : List Token) :
    instructionsOf (.instruction i :: rest) = i :: instructionsOf rest :=
  rfl

/-- The instructions among some tokens are tokens. -/
theorem mem_instructionsOf_iff {tokens : List Token} {i : Located Instruction} :
    i ∈ instructionsOf tokens ↔ Token.instruction i ∈ tokens := by
  rw [instructionsOf, List.mem_filterMap]
  constructor
  · rintro ⟨t, ht, hti⟩
    cases t with
    | label => contradiction
    | instruction j =>
      cases hti
      exact ht
  · exact fun hi => ⟨_, hi, rfl⟩

/-! ## Where labels stand -/

/-- No label stands anywhere without tokens. -/
theorem not_heads_nil (label : Located String) (n : Nat) : ¬ Heads [] label n := by
  rintro ⟨before, i, after, htokens, -⟩
  simp at htokens

/-- Behind a first instruction the numbers are one greater. -/
theorem heads_instruction_iff {first : Located Instruction} {rest : List Token}
    {label : Located String} {n : Nat} :
    Heads (.instruction first :: rest) label n ↔ ∃ m, n = m + 1 ∧ Heads rest label m := by
  constructor
  · rintro ⟨before, i, after, htokens, hn⟩
    cases before with
    | nil => simp at htokens
    | cons t before =>
      rcases List.cons.inj htokens with ⟨rfl, hrest⟩
      rw [instructionsOf_instruction, List.length_cons] at hn
      exact ⟨_, hn.symm, before, i, after, hrest, rfl⟩
  · rintro ⟨m, rfl, before, i, after, rfl, rfl⟩
    exact ⟨.instruction first :: before, i, after, rfl, rfl⟩

/-- A first label stands on the instruction after it, if that comes next. -/
theorem heads_label_iff {first : Located String} {rest : List Token}
    {label : Located String} {n : Nat} :
    Heads (.label first :: rest) label n ↔
      (n = 0 ∧ label = first ∧ ∃ i after, rest = .instruction i :: after) ∨
        Heads rest label n := by
  constructor
  · rintro ⟨before, i, after, htokens, hn⟩
    cases before with
    | nil =>
      rw [List.nil_append] at htokens
      rcases List.cons.inj htokens with ⟨hlabel, hrest⟩
      cases hlabel
      exact .inl ⟨hn.symm, rfl, i, after, hrest⟩
    | cons t before =>
      rcases List.cons.inj htokens with ⟨rfl, hrest⟩
      exact .inr ⟨before, i, after, hrest, hn⟩
  · rintro (⟨rfl, rfl, i, after, rfl⟩ | ⟨before, i, after, rfl, rfl⟩)
    · exact ⟨[], i, after, rfl, rfl⟩
    · exact ⟨.label first :: before, i, after, rfl, rfl⟩

/-- A label stands before one of the instructions. -/
theorem Heads.lt_length {tokens : List Token} {label : Located String} {n : Nat}
    (h : Heads tokens label n) : n < (instructionsOf tokens).length := by
  obtain ⟨before, i, after, rfl, rfl⟩ := h
  simp [instructionsOf, Token.instruction?]

/-- A name has only one last instruction. -/
theorem Binds.unique {tokens : List Token} {x : String} {m n : Nat}
    (hm : Binds tokens x m) (hn : Binds tokens x n) : m = n :=
  IsGreatest.unique hm hn

/-- When no name stands on two instructions, a name is bound where it stands. -/
theorem DistinctLabels.binds_iff {tokens : List Token} (h : DistinctLabels tokens) {x : String}
    {n : Nat} : Binds tokens x n ↔ StandsOn tokens x n := by
  constructor
  · exact fun hbinds => hbinds.1
  · exact fun hstands => ⟨hstands, fun m hm => (h x m n hm hstands).le⟩

/-! ## Slots -/

namespace Slot

/-- The slots hold the instructions of the program. -/
theorem map_instruction_ofTokensAfter (previous : Option (Located String))
    (tokens : List Token) :
    (ofTokensAfter previous tokens).map (·.instruction) = instructionsOf tokens := by
  induction tokens generalizing previous with
  | nil => rfl
  | cons t rest ih =>
    cases t with
    | label name => exact ih (some name)
    | instruction i =>
      rw [ofTokensAfter_instruction, List.map_cons, ih, instructionsOf_instruction]

/-- The slots hold the instructions of the program. -/
theorem map_instruction_ofTokens (tokens : List Token) :
    (ofTokens tokens).map (·.instruction) = instructionsOf tokens :=
  map_instruction_ofTokensAfter none tokens

/-- The slots of a program are as many as its instructions. -/
theorem length_ofTokens (tokens : List Token) :
    (ofTokens tokens).length = (instructionsOf tokens).length := by
  rw [← map_instruction_ofTokens, List.length_map]

/-- The label on the slot with number `n`. -/
def labelAt (slots : List Slot) (n : Nat) : Option (Located String) :=
  slots[n]?.bind (·.label)

@[simp] theorem labelAt_nil (n : Nat) : labelAt [] n = none :=
  rfl

@[simp] theorem labelAt_cons_zero (slot : Slot) (rest : List Slot) :
    labelAt (slot :: rest) 0 = slot.label :=
  rfl

@[simp] theorem labelAt_cons_succ (slot : Slot) (rest : List Slot) (n : Nat) :
    labelAt (slot :: rest) (n + 1) = labelAt rest n :=
  rfl

/-- The first slots carry the labels that they carry among all slots. -/
theorem labelAt_take {slots : List Slot} {n k : Nat} (h : k < n) :
    labelAt (slots.take n) k = labelAt slots k := by
  rw [labelAt, List.getElem?_take_of_lt h, labelAt]

/-- A label on one of the first slots is on the slot with the same number among all. -/
theorem labelAt_of_take {slots : List Slot} {n k : Nat} {label : Located String}
    (h : labelAt (slots.take n) k = some label) : k < n ∧ labelAt slots k = some label := by
  have hk : k < n := by
    by_contra hnk
    rw [labelAt, List.getElem?_take_eq_none (Nat.le_of_not_lt hnk)] at h
    contradiction
  rw [labelAt_take hk] at h
  exact ⟨hk, h⟩

/-- The slots after a token carry the labels that stand there, the label in that token
included. -/
theorem labelAt_ofTokensAfter_iff (previous : Option (Located String)) (tokens : List Token)
    (label : Located String) (n : Nat) :
    labelAt (ofTokensAfter previous tokens) n = some label ↔
      Heads ((previous.map Token.label).toList ++ tokens) label n := by
  induction tokens generalizing previous n with
  | nil =>
    cases previous with
    | none => simp [ofTokensAfter, not_heads_nil]
    | some p => simp [ofTokensAfter, heads_label_iff, not_heads_nil]
  | cons t rest ih =>
    cases t with
    | label name =>
      rw [ofTokensAfter_label, ih (some name) n]
      cases previous with
      | none => rfl
      | some p => simp only [Option.map_some, Option.toList_some, List.cons_append, List.nil_append,
          heads_label_iff, reduceCtorEq, false_and, and_false, exists_false, false_or,
          List.cons.injEq]
    | instruction i =>
      rw [ofTokensAfter_instruction]
      -- the slot of `i` has the label before it, and the later slots know nothing of it
      cases n with
      | zero =>
        cases previous with
        | none => simp [heads_instruction_iff]
        | some p => simp [heads_label_iff, heads_instruction_iff, eq_comm]
      | succ n =>
        rw [labelAt_cons_succ, ih none n]
        cases previous with
        | none => simp [heads_instruction_iff]
        | some p => simp [heads_label_iff, heads_instruction_iff]

/-- The slots of a program carry the labels that stand on its instructions. -/
theorem labelAt_ofTokens_iff {tokens : List Token} {label : Located String} {n : Nat} :
    labelAt (ofTokens tokens) n = some label ↔ Heads tokens label n :=
  labelAt_ofTokensAfter_iff none tokens label n

end Slot

/-- Only one label stands directly before an instruction. -/
theorem Heads.unique {tokens : List Token} {first second : Located String} {n : Nat}
    (hfirst : Heads tokens first n) (hsecond : Heads tokens second n) : first = second := by
  rw [← Slot.labelAt_ofTokens_iff] at hfirst hsecond
  exact Option.some.inj (hfirst.symm.trans hsecond)

end Mailroom
