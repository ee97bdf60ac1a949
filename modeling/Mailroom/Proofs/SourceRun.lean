import Mailroom.Proofs.Labels
import Mailroom.Proofs.Stepping
import Mathlib.Logic.Function.Basic

/-!
# Running source programs

An interpreter for programs as they are written.  It counts instructions and not
mailboxes, looks labels up by name each time it branches, and knows neither words nor
orders.  Its hundred mailboxes hold numbers.

Main definitions:

- `lastLabelled?` finds the instruction that a branch goes to.
- `SourceState` is the state of the interpreter, and `SourceState.step` one step.  A step
  without a meaning (no instruction, no such label, no such mailbox) has no result.
- `SourceState.after` makes several steps, of which any may fail.
- `SourceState.Confined` says that a run stays inside the program and leaves its mailboxes
  alone.

Main results:

- Theorem `lastLabelled?_eq_some_iff`: a branch goes to the last instruction with the
  label.
-/

namespace Mailroom

/-! ## Branch targets -/

/-- The first of some tokens is an instruction. -/
def startsWithInstruction : List Token → Bool
  | .instruction _ :: _ => true
  | _ => false

/-- The number of the last instruction whose directly preceding token is a label with the
name `x`. -/
def lastLabelled? (x : String) : List Token → Option Nat
  | [] => none
  | .instruction _ :: rest => (lastLabelled? x rest).map (· + 1)
  | .label name :: rest =>
    (lastLabelled? x rest).or
      (if name.value = x ∧ startsWithInstruction rest then some 0 else none)

/-- The state of a program that is run from its source. -/
structure SourceState where
  next : Nat
  acc : Int
  zero : Bool
  positive : Bool
  mailboxes : Address → Int
  pending : List Int
  printed : List Int

namespace SourceState

/-- The state before the first step: the mailboxes from 0 on hold the words of the program,
and a 0 follows the inputs, if there are any to be queued. -/
def initial (words : List Int) (inputs : Option (List Int)) : SourceState where
  next := 0
  acc := 0
  zero := true
  positive := true
  mailboxes a := words.getD a.val 0
  pending := (inputs.map (· ++ [0])).getD []
  printed := []

/-! ## Instructions -/

/-- Write the accumulator.  A number that it cannot represent stays in it all the same. -/
def accept (s : SourceState) (value : Int) : Except Fault Bool × SourceState :=
  if -500 ≤ value ∧ value ≤ 499 then
    (.ok false,
      { s with acc := value, zero := decide (value = 0), positive := decide (0 ≤ value) })
  else (.error (.numberOutOfRange value), { s with acc := value })

/-- Put a number of sixteen bits into a mailbox. -/
def put (s : SourceState) (a : Address) (value : Int) : Except Fault Bool × SourceState :=
  if -32768 ≤ value ∧ value ≤ 32767 then
    (.ok false, { s with mailboxes := Function.update s.mailboxes a value })
  else (.error (.wordTooWide a.val value), s)

/-- Carry out an instruction on a mailbox. -/
def access (s : SourceState) (a : Address) : MailboxOp → Except Fault Bool × SourceState
  | .add => s.accept (s.acc + s.mailboxes a)
  | .sub => s.accept (s.acc - s.mailboxes a)
  | .store => s.put a s.acc
  | .storeAddress => s.put a (s.acc.tmod 100)
  | .load => s.accept (s.mailboxes a)

/-- Whether a branch is taken. -/
def takes (s : SourceState) : BranchOp → Bool
  | .always => true
  | .ifZero => s.zero
  | .ifPositive => s.positive

/-- Read the oldest pending input, if there is one. -/
def readInput (s : SourceState) : Except Fault Bool × SourceState :=
  match s.pending with
  | [] => (.ok false, s)
  | value :: rest => { s with pending := rest }.accept value

/-- Carry out one instruction of a program. -/
def execute (tokens : List Token) (s : SourceState) :
    Instruction → Option (Except Fault Bool × SourceState)
  | .plain .stop _ => some (.ok true, s)
  | .plain .read _ => some s.readInput
  | .plain .print _ => some (.ok false, { s with printed := s.printed ++ [s.acc] })
  | .access op address => (Address.ofInt? address).map fun a => s.access a op
  | .branch op x =>
    if s.takes op then
      (lastLabelled? x tokens).map fun n => (.ok false, { s with next := n })
    else some (.ok false, s)

/-! ## Steps -/

/-- Fetch the next instruction, count on, and carry it out. -/
def step (tokens : List Token) (s : SourceState) :
    Option (Except Fault Bool × SourceState) :=
  (instructionsOf tokens)[s.next]?.bind fun i =>
    { s with next := s.next + 1 }.execute tokens i.value

/-- The state after `k` steps, of which any may fail. -/
def after (tokens : List Token) (s : SourceState) : Nat → Option SourceState
  | 0 => some s
  | k + 1 => (s.step tokens).bind fun r => r.2.after tokens k

/-- An instruction stores into a mailbox below `n`. -/
def storesBelow (n : Nat) : Instruction → Bool
  | .access .store address => decide (address < n)
  | .access .storeAddress address => decide (address < n)
  | _ => false

/-- In each of the next `k` steps there is an instruction to be fetched, and it does not
store into a mailbox below the number of instructions. -/
def confined (tokens : List Token) (s : SourceState) : Nat → Bool
  | 0 => true
  | k + 1 =>
    (instructionsOf tokens)[s.next]?.any
        (fun i => !storesBelow (instructionsOf tokens).length i.value) &&
      (s.step tokens).all fun r => r.2.confined tokens k

/-- A run is confined when its first step and the run after it are. -/
theorem confined_succ_iff {tokens : List Token} {s : SourceState} {k : Nat} :
    s.confined tokens (k + 1) = true ↔
      (∃ i, (instructionsOf tokens)[s.next]? = some i ∧
        storesBelow (instructionsOf tokens).length i.value = false) ∧
      ∀ r, s.step tokens = some r → r.2.confined tokens k = true := by
  simp only [confined, Bool.and_eq_true, Option.any_eq_true, Option.all_eq_true,
    Bool.not_eq_true']

end SourceState

/-! ## The target of a branch -/

/-- Labels before a first instruction stand on other instructions than it. -/
theorem standsOn_instruction_iff {i : Located Instruction} {rest : List Token} {x : String}
    {n : Nat} :
    StandsOn (.instruction i :: rest) x n ↔ ∃ m, n = m + 1 ∧ StandsOn rest x m := by
  simp only [StandsOn, heads_instruction_iff]
  constructor
  · rintro ⟨label, ⟨m, rfl, hlabel⟩, hname⟩
    exact ⟨m, rfl, label, hlabel, hname⟩
  · rintro ⟨m, rfl, label, hlabel, hname⟩
    exact ⟨label, ⟨m, rfl, hlabel⟩, hname⟩

/-- A first label stands on a first instruction, if that comes next. -/
theorem standsOn_label_iff {label : Located String} {rest : List Token} {x : String}
    {n : Nat} :
    StandsOn (.label label :: rest) x n ↔
      (n = 0 ∧ label.value = x ∧ startsWithInstruction rest = true) ∨ StandsOn rest x n := by
  have hstarts : startsWithInstruction rest = true ↔
      ∃ i after, rest = .instruction i :: after := by
    cases rest with
    | nil => simp [startsWithInstruction]
    | cons t rest => cases t <;> simp [startsWithInstruction]
  simp only [StandsOn, heads_label_iff, hstarts]
  constructor
  · rintro ⟨l, ⟨rfl, rfl, hrest⟩ | hl, hname⟩
    · exact .inl ⟨rfl, hname, hrest⟩
    · exact .inr ⟨l, hl, hname⟩
  · rintro (⟨rfl, hname, hrest⟩ | ⟨l, hl, hname⟩)
    · exact ⟨label, .inl ⟨rfl, rfl, hrest⟩, hname⟩
    · exact ⟨l, .inr hl, hname⟩

/-- A name without a last instruction stands nowhere. -/
theorem lastLabelled?_eq_none {x : String} {tokens : List Token}
    (h : lastLabelled? x tokens = none) (n : Nat) : ¬ StandsOn tokens x n := by
  induction tokens generalizing n with
  | nil =>
    rintro ⟨label, hlabel, -⟩
    exact not_heads_nil label n hlabel
  | cons t rest ih =>
    cases t with
    | label name =>
      rw [lastLabelled?, Option.or_eq_none_iff] at h
      rcases h with ⟨hrest, hfirst⟩
      rw [standsOn_label_iff]
      rintro (⟨-, hname, hstarts⟩ | hlater)
      · simp [hname, hstarts] at hfirst
      · exact ih hrest n hlater
    | instruction i =>
      rw [lastLabelled?, Option.map_eq_none_iff] at h
      rw [standsOn_instruction_iff]
      rintro ⟨m, -, hlater⟩
      exact ih h m hlater

/-- The instruction that is found is the last one with the label. -/
theorem binds_of_lastLabelled? {x : String} {tokens : List Token} {n : Nat}
    (h : lastLabelled? x tokens = some n) : Binds tokens x n := by
  induction tokens generalizing n with
  | nil => contradiction
  | cons t rest ih =>
    cases t with
    | label name =>
      rw [lastLabelled?, Option.or_eq_some_iff] at h
      rcases h with hlater | ⟨hnone, hfirst⟩
      · rcases ih hlater with ⟨hstands, hlast⟩
        refine ⟨standsOn_label_iff.mpr (.inr hstands), ?_⟩
        intro m hm
        rcases standsOn_label_iff.mp hm with ⟨rfl, -, -⟩ | hm
        · exact Nat.zero_le n
        · exact hlast hm
      · split at hfirst
        next hname =>
          cases hfirst
          refine ⟨standsOn_label_iff.mpr (.inl ⟨rfl, hname⟩), ?_⟩
          intro m hm
          rcases standsOn_label_iff.mp hm with ⟨rfl, -, -⟩ | hm
          · exact Nat.le_refl 0
          · exact absurd hm (lastLabelled?_eq_none hnone m)
        next => contradiction
    | instruction i =>
      rw [lastLabelled?, Option.map_eq_some_iff] at h
      rcases h with ⟨m, hm, rfl⟩
      rcases ih hm with ⟨hstands, hlast⟩
      refine ⟨standsOn_instruction_iff.mpr ⟨m, rfl, hstands⟩, ?_⟩
      intro k hk
      rcases standsOn_instruction_iff.mp hk with ⟨j, rfl, hj⟩
      exact Nat.succ_le_succ (hlast hj)

/-- A branch goes to the last instruction with its label. -/
theorem lastLabelled?_eq_some_iff {x : String} {tokens : List Token} {n : Nat} :
    lastLabelled? x tokens = some n ↔ Binds tokens x n := by
  constructor
  · exact binds_of_lastLabelled?
  · intro hbinds
    cases hfound : lastLabelled? x tokens with
    | none => exact absurd hbinds.1 (lastLabelled?_eq_none hfound n)
    | some m => rw [(binds_of_lastLabelled? hfound).unique hbinds]

end Mailroom
