import Mathlib.Data.List.GetD
import Mailroom.Proofs.Reassembly
import Mailroom.Proofs.Runs
import Mailroom.Proofs.SourceRun
import Mailroom.Proofs.Transition

/-!
# Programs that only go forward

A program whose branches all lead forward comes to an end, whatever it stores.  It may
overwrite its own words.  But what it stores are numbers that the accumulator has accepted,
and these lie below every branch, so no step makes a branch or moves one.  Each step then
either ends the run or moves the counter on, and there are only one hundred mailboxes to go
through.

Main definitions:

- `Memory.LeadsForward` says that every branch in the mailboxes names a later mailbox.
- `Emulator.EndsWithin` bounds the steps of a run without a limit.
- `BranchesForward` says that every branch of a program names a label further on.

Main results:

- Theorem `Machine.Transition.forward`: a step that goes on keeps all branches leading
  forward, and moves the counter on.
- Theorem `Emulator.endsWithin_of_forward`: a run from mailbox `c` ends within `101 - c`
  steps.
- Theorem `exists_words_of_forward`: a program whose branches go forward is assembled.
- Theorem `forward_run_ends` joins them, for machines and for source texts.
-/

namespace Mailroom

/-! ## Branches in the mailboxes -/

/-- Every number from 600 to 899 is a branch to the mailbox of its last two digits. -/
theorem Order.exists_branch_of_bounds {word : Int} (hleast : 600 ≤ word)
    (hgreatest : word ≤ 899) :
    ∃ op a, ofWord? word = some (.branch op a) ∧ word % 100 = a.val := by
  cases horder : ofWord? word with
  | none =>
    have hnone := (ofWord?_eq_none_iff word).mp horder
    omega
  | some order =>
    have hnumber := word_of_ofWord? horder
    cases order with
    | plain op =>
      cases op <;> simp only [Order.word, Order.opcode, Opcode.base, PlainOp.base,
        Order.address] at hnumber <;> omega
    | access op a =>
      rw [word_access] at hnumber
      cases op <;> simp only [MailboxOp.base] at hnumber <;> omega
    | branch op a =>
      refine ⟨op, a, rfl, ?_⟩
      rw [word_branch] at hnumber
      cases op <;> simp only [BranchOp.base] at hnumber <;> omega

namespace Memory

/-- Every mailbox that holds a branch names a later mailbox. -/
def LeadsForward (m : Memory) : Prop :=
  ∀ a : Address, 600 ≤ (m.get a).val → (m.get a).val ≤ 899 →
    (a.val : Int) < (m.get a).val % 100

instance (m : Memory) : Decidable m.LeadsForward :=
  inferInstanceAs (Decidable (∀ _ : Address, _ → _ → _))

/-- A number below the branches can be put into every mailbox. -/
theorem LeadsForward.set {m : Memory} (h : m.LeadsForward) (a : Address) {w : Word}
    (hw : w.val < 600) : (m.set a w).LeadsForward := by
  intro b hleast hgreatest
  by_cases hab : a = b
  · subst hab
    rw [get_set_self] at hleast
    omega
  · rw [get_set_of_ne m w hab] at hleast hgreatest ⊢
    exact h b hleast hgreatest

end Memory

/-! ## One step -/

namespace Machine

/-- All branches lead forward, and the accumulator holds a number that it has accepted. -/
structure Forward (m : Machine) : Prop where
  branches : m.memory.LeadsForward
  least : -500 ≤ m.acc
  greatest : m.acc ≤ 499

variable {m left : Machine} {printed : Option Int}

/-- An accepted number keeps the machine going forward. -/
theorem Writes.forward {value : Int} (hwrites : Writes m value (.done printed) left)
    (h : m.Forward) : left.Forward ∧ left.counter = m.counter := by
  cases hwrites with
  | accepted least greatest => exact ⟨⟨h.branches, least, greatest⟩, rfl⟩

/-- A stored number keeps the machine going forward, as it is no branch. -/
theorem Stores.forward {a : Address} {value : Int}
    (hstores : Stores m a value (.done printed) left) (h : m.Forward) (hvalue : value < 600) :
    left.Forward ∧ left.counter = m.counter := by
  cases hstores with
  | stored w hw =>
    have hword : w.val < 600 := by rwa [hw]
    exact ⟨⟨h.branches.set a hword, h.least, h.greatest⟩, rfl⟩

/-- An order that goes on keeps the machine going forward, and leaves the counter behind
the mailbox that the order was fetched from. -/
theorem Effect.forward {c : Address} {w : Int} (heffect : Effect c m w (.done printed) left)
    (h : m.Forward) (hcounter : m.counter = c.val + 1)
    (hw : 600 ≤ w → w ≤ 899 → (c.val : Int) < w % 100) :
    left.Forward ∧ c.val < left.counter := by
  have hpast : c.val < m.counter := by omega
  have hkept : left.Forward ∧ left.counter = m.counter →
      left.Forward ∧ c.val < left.counter := by
    rintro ⟨hforward, hsame⟩
    exact ⟨hforward, hsame ▸ hpast⟩
  -- a branch that is taken leads to a later mailbox
  have hjump : ∀ {band : Int} {a : Address}, InBand band w a → 6 ≤ band → band ≤ 8 →
      ({ m with counter := a.val } : Machine).Forward ∧ (c.val : Int) < a.val := by
    intro band a hband hleast hgreatest
    have hnumber := hband.eq_number
    have hlater := hw (by omega) (by omega)
    rw [hband.2] at hlater
    exact ⟨⟨h.branches, h.least, h.greatest⟩, hlater⟩
  cases heffect with
  | add _ hwrites => exact hkept (hwrites.forward h)
  | sub _ hwrites => exact hkept (hwrites.forward h)
  | load _ hwrites => exact hkept (hwrites.forward h)
  | read _ _ hwrites => exact hkept (hwrites.forward ⟨h.branches, h.least, h.greatest⟩)
  | store _ hstores =>
    have hvalue : m.acc < 600 := lt_of_le_of_lt h.greatest (by decide)
    exact hkept (hstores.forward h hvalue)
  | storeAddress _ hstores =>
    have hvalue : m.acc.tmod 100 < 600 := (tmod_hundred_bounds m.acc).2.trans (by decide)
    exact hkept (hstores.forward h hvalue)
  | branch hband => exact hjump hband (by decide) (by decide)
  | branchOnZero hband _ => exact hjump hband (by decide) (by decide)
  | branchOnPositive hband _ => exact hjump hband (by decide) (by decide)
  | passOnNonzero _ _ => exact ⟨h, hpast⟩
  | passOnNegative _ _ => exact ⟨h, hpast⟩
  | readNothing _ _ => exact ⟨h, hpast⟩
  | print _ => exact ⟨h, hpast⟩

/-- A step that goes on keeps the machine going forward, and moves the counter on. -/
theorem Transition.forward (htransition : Transition m (.done printed) left)
    (h : m.Forward) : left.Forward ∧ m.counter < left.counter := by
  cases htransition with
  | @fetched c _ _ hcounter heffect =>
    rw [hcounter]
    have hmoved : ({ m with counter := m.counter + 1 } : Machine).Forward :=
      ⟨h.branches, h.least, h.greatest⟩
    exact heffect.forward hmoved (by rw [hcounter]) (h.branches c)

end Machine

/-! ## Runs -/

namespace Emulator

/-- A step that neither stops nor fails keeps the machine going forward, and moves the
counter on. -/
theorem step_forward {e : Emulator} (h : e.machine.Forward) (hstep : e.step.1 = .ok false) :
    e.step.2.machine.Forward ∧ e.machine.counter < e.step.2.machine.counter := by
  have htransition := Machine.transition_step e.machine
  rw [step_result] at hstep
  obtain ⟨printed, houtcome⟩ := StepOutcome.exists_done_of_result hstep
  rw [houtcome] at htransition
  rw [step_machine]
  exact htransition.forward h

/-- Every step that goes on moves the counter on by one mailbox or more. -/
theorem after_forward {e : Emulator} (h : e.machine.Forward) {k : Nat}
    (hsteps : ∀ i < k, (e.after i).step.1 = .ok false) :
    (e.after k).machine.Forward ∧ e.machine.counter + k ≤ (e.after k).machine.counter := by
  induction k with
  | zero => simpa using h
  | succ k ih =>
    obtain ⟨hforward, hcounter⟩ := ih fun i hi => hsteps i (Nat.lt_succ_of_lt hi)
    have hlast := step_forward hforward (hsteps k (Nat.lt_succ_self k))
    rw [after_succ_last]
    refine ⟨hlast.1, ?_⟩
    push_cast
    omega

/-- A run without a limit ends, by a stop or a failure, and at most `n` steps are tried in
it. -/
def EndsWithin (e : Emulator) (n : Nat) : Prop :=
  ∃ tried r, Ends e none tried r ∧ tried ≤ n ∧
    ∀ limit : Option Int, limit.or e.maxSteps = none →
      ∀ patience, n ≤ patience → e.run patience limit = some r

/-- A run whose counter cannot stay among the mailboxes comes to an end there. -/
theorem endsWithin_of_forward {e : Emulator} (h : e.machine.Forward) {c : Address}
    (hcounter : e.machine.counter = c.val) : e.EndsWithin (101 - c.val) := by
  obtain ⟨tried, r, hends⟩ := e.exists_ends (101 - c.val)
  have hending : r.ending ≠ .limitReached := by
    cases hends with
    | halted _ _ _ => simp
    | fault _ _ _ => simp
    | limitReached hlimit hbefore =>
      -- the last step is made from a counter behind the mailboxes, and that fails
      obtain rfl := Option.some.inj hlimit
      have hpast := (after_forward h fun i (hi : i < 100 - c.val) => hbefore i (by omega)).2
      have hbeyond := Machine.step_of_beyond (m := (e.after (100 - c.val)).machine)
        (.inr (by omega))
      have hanswer := hbefore (100 - c.val) (by omega)
      simp [step_result, hbeyond, StepOutcome.result] at hanswer
  have htried : tried ≤ 101 - c.val := by
    cases hends with
    | halted hlimit _ _ => exact hlimit _ rfl
    | fault hlimit _ _ => exact hlimit _ rfl
    | limitReached hlimit _ => exact (Option.some.inj hlimit).ge
  refine ⟨tried, r, hends.change_limit hending (by simp), htried, ?_⟩
  intro limit hlimit patience hpatience
  exact hends.run_eq hending (by simp [hlimit]) (htried.trans hpatience)

end Emulator

/-! ## Source programs -/

variable {tokens : List Token}

/-- Every branch of a program names a label whose last instruction comes after the
branch. -/
def BranchesForward (tokens : List Token) : Prop :=
  ∀ n i op x, (instructionsOf tokens)[n]? = some i → i.value = .branch op x →
    ∃ target, Binds tokens x target ∧ n < target

/-- Every mailbox that a program names is one of the hundred. -/
def NamesMailboxes (tokens : List Token) : Prop :=
  ∀ i ∈ instructionsOf tokens, ∀ op address, i.value = .access op address →
    0 ≤ address ∧ address ≤ 99

/-- A label stands on one of the instructions of its program. -/
theorem Binds.lt_length {x : String} {n : Nat} (h : Binds tokens x n) :
    n < (instructionsOf tokens).length := by
  obtain ⟨label, hlabel, -⟩ := h.1
  exact hlabel.lt_length

/-- A program of at most 99 instructions that name mailboxes and whose branches go forward
is assembled. -/
theorem exists_words_of_forward {a : Assembler}
    (hstrict : a.strict = true → DistinctLabels tokens)
    (hlength : (instructionsOf tokens).length ≤ 99) (hforward : BranchesForward tokens)
    (hmailboxes : NamesMailboxes tokens) :
    ∃ words, (a.generate tokens).2.outcome = .ok words := by
  have hencodes : ∀ i ∈ instructionsOf tokens, ∃ word, Encodes tokens i word := by
    intro i hi
    cases hvalue : i.value with
    | plain op remark => exact ⟨_, 0, hvalue ▸ .plain op remark, rfl⟩
    | access op address =>
      obtain ⟨hleast, hgreatest⟩ := hmailboxes i hi op address hvalue
      obtain ⟨n, rfl⟩ := Int.eq_ofNat_of_zero_le hleast
      exact ⟨_, n, hvalue ▸ .access op (by omega), rfl⟩
    | branch op x =>
      obtain ⟨n, hn⟩ := List.getElem?_of_mem hi
      obtain ⟨target, hbinds, -⟩ := hforward n i op x hn hvalue
      have htarget := hbinds.lt_length
      exact ⟨_, target, hvalue ▸ .branch op hbinds (by omega), rfl⟩
  choose! word hword using hencodes
  have hwords : List.Forall₂ (Encodes tokens) (instructionsOf tokens)
      ((instructionsOf tokens).map word) :=
    List.forall₂_map_right_iff.mpr (List.forall₂_same.mpr hword)
  obtain ⟨table, -, htable⟩ := symbolsOf_permissive tokens
  have hgenerates : Generates a.strict tokens (.ok ((instructionsOf tokens).map word))
      table.indices := .words hstrict htable.isSymbolList hwords
  exact ⟨_, (Assembler.generate_of_generates hgenerates).1⟩

/-- The words of a program whose branches go forward lead forward, from mailbox 0 on. -/
theorem leadsForward_of_readsBack {words : List Int} (hforward : BranchesForward tokens)
    (hwords : List.Forall₂ (ReadsBack tokens) (instructionsOf tokens) words) {memory : Memory}
    (hget : ∀ a : Address, (memory.get a).val = words.getD a.val 0) :
    memory.LeadsForward := by
  intro a hleast hgreatest
  rw [hget a] at hleast hgreatest ⊢
  -- a mailbox behind the program holds 0, and that is no branch
  have ha : a.val < words.length := by
    by_contra hbehind
    rw [List.getD_eq_default _ _ (Nat.le_of_not_lt hbehind)] at hleast
    omega
  rw [List.getD_eq_getElem _ _ ha] at hleast hgreatest ⊢
  have hi : a.val < (instructionsOf tokens).length := hwords.length_eq ▸ ha
  have hread : ReadsBack tokens (instructionsOf tokens)[a.val] words[a.val] :=
    hwords.get hi ha
  obtain ⟨op, b, hbranch, hb⟩ := Order.exists_branch_of_bounds hleast hgreatest
  obtain ⟨x, hvalue, hbinds⟩ := hread.exists_branch hbranch
  obtain ⟨target, htarget, hlater⟩ :=
    hforward a.val _ op x (List.getElem?_eq_getElem hi) hvalue
  obtain rfl := htarget.unique hbinds
  rw [hb]
  exact_mod_cast hlater

/-- A program whose branches go forward, assembled and loaded at mailbox 0, comes to an end
from every mailbox. -/
theorem exists_endsWithin_of_forward {a : Assembler} {words : List Int}
    (hlength : (instructionsOf tokens).length ≤ 99) (hforward : BranchesForward tokens)
    (hwords : (a.generate tokens).2.outcome = .ok words) (entry : Address)
    (inputs : Option (List Int)) (limit : Option Int) :
    ∃ e, (Emulator.new ⟨words, 0, entry.val, inputs, limit⟩).outcome = .ok e ∧
      e.EndsWithin (101 - entry.val) := by
  have hread := Assembler.readsBack_of_generate hwords
  have hbounds : ∀ v ∈ words, -32768 ≤ v ∧ v ≤ 32767 := by
    intro v hv
    have := Assembler.bounds_of_readsBack hread v hv
    omega
  have hfits : 0 + words.length ≤ 99 := by
    rw [Nat.zero_add, ← hread.length_eq]
    exact hlength
  obtain ⟨memory, hnew, hget⟩ := Emulator.exists_new
    (c := ⟨words, 0, entry.val, inputs, limit⟩) Int.natCast_zero.symm hbounds hfits
  refine ⟨_, hnew, Emulator.endsWithin_of_forward ⟨?_, ?_, ?_⟩ rfl⟩
  · refine leadsForward_of_readsBack hforward hread fun a => ?_
    simpa [Emulator.started] using hget a
  · simp [Emulator.started, Machine.new]
  · simp [Emulator.started, Machine.new]

/-- A machine whose branches all lead forward comes to an end within as many steps as there
are mailboxes from its counter on, and one.  So does every program of at most 99
instructions whose branches go to labels further on, from whatever mailbox it is started
and whatever it stores; and it is assembled if it names mailboxes only. -/
theorem forward_run_ends :
    (∀ (e : Emulator) (c : Address), e.machine.counter = c.val →
      -500 ≤ e.machine.acc → e.machine.acc ≤ 499 → e.machine.memory.LeadsForward →
      e.EndsWithin (101 - c.val)) ∧
    ∀ (strict : Bool) (file source : String) (tokens : List Token),
      Reading.ofSource file 1 source = ⟨tokens, none⟩ →
      (instructionsOf tokens).length ≤ 99 → BranchesForward tokens →
      (∀ words, (assemble strict file source).outcome = .ok words →
        ∀ (entry : Address) (inputs : Option (List Int)) (limit : Option Int),
          ∃ e, (Emulator.new ⟨words, 0, entry.val, inputs, limit⟩).outcome = .ok e ∧
            e.EndsWithin (101 - entry.val)) ∧
      ((strict = true → DistinctLabels tokens) → NamesMailboxes tokens →
        ∃ words, (assemble strict file source).outcome = .ok words) := by
  constructor
  · intro e c hcounter hleast hgreatest hbranches
    exact Emulator.endsWithin_of_forward ⟨hbranches, hleast, hgreatest⟩ hcounter
  · intro strict file source tokens hread hlength hforward
    have hassemble : (assemble strict file source).outcome =
        ((Assembler.new strict).generate tokens).2.outcome := by
      rw [assemble, Assembler.assemble_of_reading _ hread]
    rw [hassemble]
    constructor
    · intro words hwords entry inputs limit
      exact exists_endsWithin_of_forward hlength hforward hwords entry inputs limit
    · intro hstrict hmailboxes
      exact exists_words_of_forward hstrict hlength hforward hmailboxes

/-- A machine that is about to overwrite the branch in front of it. -/
def overwritingEmulator : Emulator :=
  ⟨{ Machine.new with
      memory := (Memory.empty.set 2 ⟨303, by decide, by decide⟩).set 3
        ⟨704, by decide, by decide⟩
      acc := -500
      counter := 2
      pending := [40000] }, none, 0, #[], #[]⟩

/-- A source that overwrites the branch in front of it with its input. -/
def overwritingSource : String :=
  "read\nsto 2\nbz end\nprint\n.end\nstop"

/-- The tokens of the overwriting source. -/
def overwritingTokens : List Token :=
  [.instruction ⟨.plain .read none, ⟨"overwriting", 1, 1⟩, "read"⟩,
    .instruction ⟨.access .store 2, ⟨"overwriting", 2, 1⟩, "sto 2"⟩,
    .instruction ⟨.branch .ifZero "end", ⟨"overwriting", 3, 1⟩, "bz end"⟩,
    .instruction ⟨.plain .print none, ⟨"overwriting", 4, 1⟩, "print"⟩,
    .label ⟨"end", ⟨"overwriting", 5, 1⟩, ".end"⟩,
    .instruction ⟨.plain .stop none, ⟨"overwriting", 6, 1⟩, "stop"⟩]

/-- The one branch of the overwriting source goes forward. -/
theorem branchesForward_overwriting : BranchesForward overwritingTokens := by
  have hlabel : Binds overwritingTokens "end" 4 :=
    lastLabelled?_eq_some_iff.mp (by decide)
  have hvalues : (instructionsOf overwritingTokens).map (·.value) =
      [.plain .read none, .access .store 2, .branch .ifZero "end", .plain .print none,
        .plain .stop none] := rfl
  intro n i op x hi hvalue
  have hn := congrArg (·[n]?) hvalues
  rw [List.getElem?_map, hi, Option.map_some, hvalue] at hn
  rcases n with _ | _ | _ | _ | _ | n <;> simp at hn
  rw [hn.2]
  exact ⟨4, hlabel, by decide⟩

/-- A machine and a program that overwrite a branch come to an end as well. -/
theorem forward_run_ends_overwriting :
    (overwritingEmulator.machine.memory.LeadsForward ∧ overwritingEmulator.EndsWithin 99) ∧
    Reading.ofSource "overwriting" 1 overwritingSource = ⟨overwritingTokens, none⟩ ∧
    (instructionsOf overwritingTokens).length ≤ 99 ∧ BranchesForward overwritingTokens ∧
    (assemble true "overwriting" overwritingSource).outcome = .ok [901, 302, 704, 902, 0] ∧
    ∃ e, (Emulator.new ⟨[901, 302, 704, 902, 0], 0, 0, some [7], none⟩).outcome = .ok e ∧
      e.EndsWithin 101 := by
  have hmemory : overwritingEmulator.machine.memory.LeadsForward := by decide +kernel
  have hread : Reading.ofSource "overwriting" 1 overwritingSource =
      ⟨overwritingTokens, none⟩ := by decide +kernel
  have hlength : (instructionsOf overwritingTokens).length ≤ 99 := by decide
  have hwords : (assemble true "overwriting" overwritingSource).outcome =
      .ok [901, 302, 704, 902, 0] := by
    rw [assemble, Assembler.assemble_of_reading _ hread]
    decide +kernel
  have hends : overwritingEmulator.EndsWithin 99 :=
    forward_run_ends.1 _ 2 rfl (by decide) (by decide) hmemory
  refine ⟨⟨hmemory, hends⟩, hread, hlength, branchesForward_overwriting, hwords, ?_⟩
  exact (forward_run_ends.2 true _ _ _ hread hlength branchesForward_overwriting).1 _ hwords
    0 (some [7]) none

end Mailroom
