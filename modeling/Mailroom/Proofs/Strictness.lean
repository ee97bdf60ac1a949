import Mailroom.Proofs.Generation
import Mathlib.Data.Set.Card

/-!
# Strict and permissive labels

With strict labels an assembler refuses a label that is bound already; otherwise it warns and
lets the new binding replace the one before.  Both ways bind the labels of a program one after
the other, so they do not differ up to the first warning, and that is where strict labels
refuse the program.

Main definitions:

- `redefinition` is the warning about a label that is bound already.
- `Refusal.IsDuplicate` says that a program is refused for such a label.

Main results:

- Theorem `bindLabels_strict_of_no_warning`: without a warning both ways do the same.
- Theorem `bindLabels_strict_of_warning`: strict labels refuse what the first warning is about.
- Theorem `length_warnings_add_size`: every label that is bound gives a warning or a symbol.
- Theorem `Assembler.strict_and_permissive` joins them for whole programs.
-/

namespace Mailroom

/-! ## Warnings -/

/-- The warning about a label that is bound already. -/
def redefinition (label : Located String) (earlier : Binding) : Notice :=
  .labelRedefined label.location label.value earlier.location

/-- A notice of a binding is no warning. -/
@[simp] theorem warnings_labelBound_cons (name : String) (index : Nat)
    (notices : List Notice) :
    warnings (.labelBound name index :: notices) = warnings notices :=
  rfl

/-- A redefinition is a warning. -/
@[simp] theorem warnings_redefinition_cons (label : Located String) (earlier : Binding)
    (notices : List Notice) :
    warnings (redefinition label earlier :: notices) =
      redefinition label earlier :: warnings notices :=
  rfl

/-! ## One slot -/

section Slots

variable {strict : Bool} {index : Nat} {symbols : SymbolTable} {slot : Slot}
  {label : Located String} {earlier : Binding}

/-- The symbols after one more label is bound. -/
abbrev SymbolTable.bind (symbols : SymbolTable) (label : Located String) (index : Nat) :
    SymbolTable :=
  symbols.insert label.value ⟨index, label.location⟩

/-- A new label is bound without a warning, with strict labels or without. -/
theorem bindLabels_cons_of_new (hlabel : slot.label = some label)
    (hnew : symbols.find? label.value = none) (rest : List Slot) :
    bindLabels strict index symbols (slot :: rest) =
      ⟨.labelBound label.value index ::
          (bindLabels strict (index + 1) (symbols.bind label index) rest).notices,
        (bindLabels strict (index + 1) (symbols.bind label index) rest).outcome⟩ := by
  rw [bindLabels_cons_of_some hlabel, bindLabel_new hnew, Journal.ok_bind]
  rfl

/-- A label that is bound already is bound again with a warning, if labels are not strict. -/
theorem bindLabels_permissive_cons_of_bound (hlabel : slot.label = some label)
    (hbound : symbols.find? label.value = some earlier) (rest : List Slot) :
    bindLabels false index symbols (slot :: rest) =
      ⟨redefinition label earlier :: .labelBound label.value index ::
          (bindLabels false (index + 1) (symbols.bind label index) rest).notices,
        (bindLabels false (index + 1) (symbols.bind label index) rest).outcome⟩ := by
  rw [bindLabels_cons_of_some hlabel, bindLabel_permissive hbound, Journal.ok_bind]
  rfl

/-- A label that is bound already is refused, if labels are strict. -/
theorem bindLabels_strict_cons_of_bound (hlabel : slot.label = some label)
    (hbound : symbols.find? label.value = some earlier) (rest : List Slot) :
    bindLabels true index symbols (slot :: rest) = ⟨[], .error (duplicate label earlier)⟩ := by
  rw [bindLabels_cons_of_some hlabel, bindLabel_strict hbound]
  rfl

end Slots

/-! ## Two runs -/

/-- Strict labels are refused or bound without a warning. -/
theorem warnings_bindLabels_strict (index : Nat) (symbols : SymbolTable) (slots : List Slot) :
    warnings (bindLabels true index symbols slots).notices = [] := by
  induction slots generalizing index symbols with
  | nil => rfl
  | cons slot rest ih =>
    cases hlabel : slot.label with
    | none =>
      rw [bindLabels_cons_of_none hlabel]
      exact ih _ _
    | some label =>
      cases hfound : symbols.find? label.value with
      | none =>
        rw [bindLabels_cons_of_new hlabel hfound, warnings_labelBound_cons]
        exact ih _ _
      | some earlier =>
        rw [bindLabels_strict_cons_of_bound hlabel hfound]
        rfl

/-- All warnings are about labels that are bound already. -/
theorem mem_warnings_bindLabels {index : Nat} {symbols : SymbolTable} {slots : List Slot}
    {w : Notice} (h : w ∈ warnings (bindLabels false index symbols slots).notices) :
    ∃ label earlier, w = redefinition label earlier := by
  induction slots generalizing index symbols with
  | nil => contradiction
  | cons slot rest ih =>
    cases hlabel : slot.label with
    | none =>
      rw [bindLabels_cons_of_none hlabel] at h
      exact ih h
    | some label =>
      cases hfound : symbols.find? label.value with
      | none =>
        rw [bindLabels_cons_of_new hlabel hfound, warnings_labelBound_cons] at h
        exact ih h
      | some earlier =>
        rw [bindLabels_permissive_cons_of_bound hlabel hfound, warnings_redefinition_cons,
          warnings_labelBound_cons, List.mem_cons] at h
        rcases h with rfl | h
        · exact ⟨label, earlier, rfl⟩
        · exact ih h

/-- When there is no warning without strict labels, strict labels make no difference. -/
theorem bindLabels_strict_of_no_warning {index : Nat} {symbols : SymbolTable}
    {slots : List Slot}
    (h : warnings (bindLabels false index symbols slots).notices = []) :
    bindLabels true index symbols slots = bindLabels false index symbols slots := by
  induction slots generalizing index symbols with
  | nil => rfl
  | cons slot rest ih =>
    cases hlabel : slot.label with
    | none =>
      rw [bindLabels_cons_of_none hlabel] at h
      rw [bindLabels_cons_of_none hlabel, bindLabels_cons_of_none hlabel, ih h]
    | some label =>
      cases hfound : symbols.find? label.value with
      | none =>
        rw [bindLabels_cons_of_new hlabel hfound, warnings_labelBound_cons] at h
        rw [bindLabels_cons_of_new hlabel hfound, bindLabels_cons_of_new hlabel hfound, ih h]
      | some earlier =>
        rw [bindLabels_permissive_cons_of_bound hlabel hfound, warnings_redefinition_cons] at h
        contradiction

/-- Strict labels refuse the label that the first warning without them is about. -/
theorem bindLabels_strict_of_warning {index : Nat} {symbols : SymbolTable}
    {slots : List Slot} {first : Notice} {later : List Notice}
    (h : warnings (bindLabels false index symbols slots).notices = first :: later) :
    ∃ label earlier, first = redefinition label earlier ∧
      (bindLabels true index symbols slots).outcome = .error (duplicate label earlier) := by
  induction slots generalizing index symbols with
  | nil => contradiction
  | cons slot rest ih =>
    cases hlabel : slot.label with
    | none =>
      rw [bindLabels_cons_of_none hlabel] at h ⊢
      exact ih h
    | some label =>
      cases hfound : symbols.find? label.value with
      | none =>
        rw [bindLabels_cons_of_new hlabel hfound, warnings_labelBound_cons] at h
        rw [bindLabels_cons_of_new hlabel hfound]
        exact ih h
      | some earlier =>
        rw [bindLabels_permissive_cons_of_bound hlabel hfound, warnings_redefinition_cons] at h
        rw [bindLabels_strict_cons_of_bound hlabel hfound]
        exact ⟨label, earlier, (List.cons.inj h).1.symm, rfl⟩

/-! ## Counting -/

/-- Every label that is bound gives a warning or a new symbol. -/
theorem length_warnings_add_size {index : Nat} {symbols table : SymbolTable}
    {slots : List Slot} (hordered : symbols.Ordered)
    (h : (bindLabels false index symbols slots).outcome = .ok table) :
    (warnings (bindLabels false index symbols slots).notices).length + table.size =
      symbols.size + slots.countP (·.label.isSome) := by
  induction slots generalizing index symbols with
  | nil =>
    cases h
    exact Nat.zero_add _
  | cons slot rest ih =>
    cases hlabel : slot.label with
    | none =>
      rw [bindLabels_cons_of_none hlabel] at h ⊢
      rw [List.countP_cons_of_neg (by simp [hlabel])]
      exact ih hordered h
    | some label =>
      have hordered' : (symbols.bind label index).Ordered := Table.insert_ordered hordered _ _
      rw [List.countP_cons_of_pos (by simp [hlabel])]
      cases hfound : symbols.find? label.value with
      | none =>
        rw [bindLabels_cons_of_new hlabel hfound] at h ⊢
        have hsize := Table.size_insert_of_find?_eq_none hfound (⟨index, label.location⟩ : Binding)
        rw [warnings_labelBound_cons, ih hordered' h, hsize]
        omega
      | some earlier =>
        rw [bindLabels_permissive_cons_of_bound hlabel hfound] at h ⊢
        have hsize := Table.size_insert_of_find?_eq_some hordered hfound ⟨index, label.location⟩
        rw [warnings_redefinition_cons, warnings_labelBound_cons, List.length_cons,
          Nat.add_right_comm, ih hordered' h, hsize]
        omega

/-- The slots with a label are counted by their numbers. -/
theorem Slot.ncard_labelAt (slots : List Slot) :
    {n | ∃ label, labelAt slots n = some label}.ncard = slots.countP (·.label.isSome) := by
  have hfinite : ∀ slots : List Slot, {n | ∃ label, labelAt slots n = some label}.Finite := by
    intro slots
    refine (Set.finite_lt_nat slots.length).subset ?_
    rintro n ⟨label, h⟩
    obtain ⟨slot, hslot, -⟩ := Option.bind_eq_some_iff.mp h
    exact (List.getElem?_eq_some_iff.mp hslot).1
  induction slots with
  | nil => simp
  | cons slot rest ih =>
    -- the numbers behind the first slot are one greater
    have hlater : (Nat.succ '' {n | ∃ label, labelAt rest n = some label}).ncard =
        rest.countP (·.label.isSome) := by
      rw [Set.ncard_image_of_injective _ Nat.succ_injective, ih]
    have hnot : 0 ∉ Nat.succ '' {n | ∃ label, labelAt rest n = some label} := by
      rintro ⟨n, -, hn⟩
      exact absurd hn (Nat.succ_ne_zero n)
    cases hlabel : slot.label with
    | none =>
      rw [List.countP_cons_of_neg (by simp [hlabel]), ← hlater]
      congr 1
      ext n
      cases n with
      | zero => simp [hlabel]
      | succ n => simp
    | some label =>
      rw [List.countP_cons_of_pos (by simp [hlabel]), ← hlater,
        ← Set.ncard_insert_of_notMem hnot ((hfinite rest).image _)]
      congr 1
      ext n
      cases n with
      | zero => simp [hlabel]
      | succ n => simp

/-! ## Programs -/

/-- A program is refused because a label stands on two instructions. -/
def Refusal.IsDuplicate (e : Refusal) : Prop :=
  ∃ d x earlier, e = .report d ∧ d.complaint = .duplicateLabel x earlier

namespace Assembler

variable {tokens : List Token}

/-- An assembler warns of labels only. -/
theorem warnings_generate (a : Assembler) (tokens : List Token) :
    warnings (a.generate tokens).2.notices =
      warnings (symbolsOf a.strict (Slot.ofTokens tokens)).notices := by
  simp only [generate, Build.ofTokens]
  cases houtcome : (symbolsOf a.strict (Slot.ofTokens tokens)).outcome with
  | error d => rfl
  | ok table =>
    simp only
    cases ordersOf table (Slot.ofTokens tokens) <;>
      simp [warnings, List.filter_append, Notice.severity]

/-- Words are generated without warnings when no label stands on two instructions. -/
theorem warnings_generate_of_distinct (a : Assembler) (h : DistinctLabels tokens) :
    warnings (a.generate tokens).2.notices = [] := by
  rw [warnings_generate]
  cases a.strict with
  | true => exact warnings_bindLabels_strict 0 .empty _
  | false =>
    rw [← symbolsOf_strict_of_distinct h]
    exact warnings_bindLabels_strict 0 .empty _

/-- Without strict labels no program is refused for a duplicate label. -/
theorem not_isDuplicate_of_permissive {e : Refusal}
    (h : ((new false).generate tokens).2.outcome = .error e) : ¬ e.IsDuplicate := by
  have hgenerates := generates_generate (new false) tokens
  rw [h] at hgenerates
  rintro ⟨d, x, earlier, rfl, hd⟩
  generalize ((new false).generate tokens).1.build.symbols.indices = symbols at hgenerates
  cases hgenerates with
  | refused _ _ _ _ hrefuses => cases hrefuses <;> exact absurd hd (by simp)
  | duplicate hstrict => exact absurd hstrict (by simp [new])

/-- Without warnings the two ways to treat labels give one result. -/
theorem generate_strict_of_no_warning
    (h : warnings ((new false).generate tokens).2.notices = []) :
    ((new true).generate tokens).2 = ((new false).generate tokens).2 ∧
      ((new true).generate tokens).1.build = ((new false).generate tokens).1.build := by
  rw [warnings_generate] at h
  have hsame : symbolsOf true (Slot.ofTokens tokens) = symbolsOf false (Slot.ofTokens tokens) :=
    bindLabels_strict_of_no_warning h
  simp only [generate, Build.ofTokens, new, hsame, and_self]

/-- The warnings and the symbols together are as many as the instructions with a label. -/
theorem length_warnings_add_size_generate (tokens : List Token) :
    (warnings ((new false).generate tokens).2.notices).length +
        ((new false).generate tokens).1.build.symbols.size =
      {n | ∃ label, Heads tokens label n}.ncard := by
  obtain ⟨table, houtcome, -⟩ := symbolsOf_permissive tokens
  have hcount := length_warnings_add_size Table.empty_ordered houtcome
  simp only [← Slot.labelAt_ofTokens_iff, Slot.ncard_labelAt]
  rw [warnings_generate, (generate_of_symbols (a := new false) houtcome).1]
  exact hcount.trans (Nat.zero_add _)

/-- Strict labels refuse a program exactly when there is a warning without them, and the error
is at the two places of the first warning.  Otherwise both ways do the same: they give the
same words and symbols, or the same error.  Without strict labels every warning is about a
label that is bound again, and there are as many warnings and symbols together as there are
instructions with a label. -/
theorem strict_and_permissive (tokens : List Token) :
    let strict := (new true).generate tokens
    let permissive := (new false).generate tokens
    ((∃ e, strict.2.outcome = .error e ∧ e.IsDuplicate) ↔
      warnings permissive.2.notices ≠ []) ∧
    (∀ first later, warnings permissive.2.notices = first :: later →
      ∃ d x location earlier, first = .labelRedefined location x earlier ∧
        strict.2.outcome = .error (.report d) ∧
        d.complaint = .duplicateLabel x (some earlier) ∧ d.location = some location) ∧
    (warnings permissive.2.notices = [] →
      strict.2 = permissive.2 ∧ strict.1.build = permissive.1.build) ∧
    (∀ w ∈ warnings permissive.2.notices, ∃ label earlier, w = redefinition label earlier) ∧
    (warnings permissive.2.notices).length + permissive.1.build.symbols.size =
      {n | ∃ label, Heads tokens label n}.ncard := by
  intro strict permissive
  have hfirst : ∀ first later, warnings permissive.2.notices = first :: later →
      ∃ d x location earlier, first = .labelRedefined location x earlier ∧
        strict.2.outcome = .error (.report d) ∧
        d.complaint = .duplicateLabel x (some earlier) ∧ d.location = some location := by
    intro first later h
    rw [warnings_generate] at h
    obtain ⟨label, earlier, rfl, hrefused⟩ := bindLabels_strict_of_warning h
    exact ⟨duplicate label earlier, label.value, label.location, earlier.location, rfl,
      (generate_of_duplicate (a := new true) hrefused).2, rfl, rfl⟩
  refine ⟨⟨?_, ?_⟩, hfirst, generate_strict_of_no_warning, ?_,
    length_warnings_add_size_generate tokens⟩
  · rintro ⟨e, hrefused, hduplicate⟩ hnone
    have hsame := (generate_strict_of_no_warning hnone).1
    rw [hsame] at hrefused
    exact not_isDuplicate_of_permissive hrefused hduplicate
  · intro hsome
    obtain ⟨first, later, hwarnings⟩ := List.exists_cons_of_ne_nil hsome
    obtain ⟨d, x, location, earlier, -, hrefused, hd, -⟩ := hfirst first later hwarnings
    exact ⟨.report d, hrefused, d, x, some earlier, rfl, hd⟩
  · intro w hw
    rw [warnings_generate] at hw
    exact mem_warnings_bindLabels hw

/-- A program with a label on two instructions, the second of which is a branch to a label that
stands on none. -/
def reboundTokens : List Token :=
  [.label ⟨"a", ⟨"rebound", 1, 1⟩, ".a"⟩,
    .instruction ⟨.plain .read none, ⟨"rebound", 2, 1⟩, "read"⟩,
    .label ⟨"a", ⟨"rebound", 3, 3⟩, "  .A"⟩,
    .instruction ⟨.branch .always "c", ⟨"rebound", 4, 1⟩, "b c"⟩]

/-- Strict labels refuse this program for its second label, and it is refused for its branch
otherwise. -/
theorem strict_and_permissive_rebound :
    warnings ((new false).generate reboundTokens).2.notices =
        [.labelRedefined ⟨"rebound", 3, 3⟩ "a" ⟨"rebound", 1, 1⟩] ∧
      (∃ d x location earlier,
        Notice.labelRedefined ⟨"rebound", 3, 3⟩ "a" ⟨"rebound", 1, 1⟩ =
            .labelRedefined location x earlier ∧
          ((new true).generate reboundTokens).2.outcome = .error (.report d) ∧
          d.complaint = .duplicateLabel x (some earlier) ∧ d.location = some location) ∧
      ∃ e, ((new false).generate reboundTokens).2.outcome = .error e ∧ ¬ e.IsDuplicate := by
  have hwarnings : warnings ((new false).generate reboundTokens).2.notices =
      [.labelRedefined ⟨"rebound", 3, 3⟩ "a" ⟨"rebound", 1, 1⟩] := by
    decide +kernel
  refine ⟨hwarnings, (strict_and_permissive reboundTokens).2.1 _ _ hwarnings, _, rfl, ?_⟩
  exact @not_isDuplicate_of_permissive reboundTokens _ rfl

end Assembler

end Mailroom
