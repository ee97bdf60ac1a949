import Mailroom.Proofs.Labels

/-!
# Symbol tables

What binding the labels of slots makes of a symbol table.

Main definitions:

- `lastBinding` is the binding of the last slot with some label.

Main results:

- Theorem `bindLabels_permissive_spec`: when labels are not strict, binding succeeds, and
  of several slots with one label the last one counts.
- Theorem `bindLabels_strict_of_distinct`: strict labels make no difference to slots
  without duplicates.
- Theorem `bindLabels_strict_of_duplicate`: otherwise the first duplicate is refused.
-/

namespace Mailroom

open Slot

/-! ## The last binding -/

/-- The binding of the last slot whose label has the name `x`, where the first slot has the
given number. -/
def lastBinding (index : Nat) (x : String) : List Slot → Option Binding
  | [] => none
  | slot :: rest =>
    (lastBinding (index + 1) x rest).or
      (slot.label.bind fun label =>
        if label.value = x then some ⟨index, label.location⟩ else none)

/-- There is no binding exactly when no slot has the label. -/
theorem lastBinding_eq_none_iff {index : Nat} {x : String} {slots : List Slot} :
    lastBinding index x slots = none ↔
      ∀ n label, labelAt slots n = some label → label.value ≠ x := by
  induction slots generalizing index with
  | nil => simp [lastBinding]
  | cons slot rest ih =>
    rw [lastBinding, Option.or_eq_none_iff, ih]
    constructor
    · rintro ⟨hrest, hslot⟩ n label hlabel hname
      cases n with
      | zero =>
        rw [labelAt_cons_zero] at hlabel
        simp [hlabel, hname] at hslot
      | succ n => exact hrest n label hlabel hname
    · intro hall
      refine ⟨fun n label hlabel => hall (n + 1) label hlabel, ?_⟩
      cases hlabel : slot.label with
      | none => rfl
      | some label => simp [hall 0 label hlabel]

/-- A binding that is found comes from the last slot with the label. -/
theorem exists_of_lastBinding {index : Nat} {x : String} {slots : List Slot} {b : Binding}
    (h : lastBinding index x slots = some b) :
    ∃ n label, labelAt slots n = some label ∧ label.value = x ∧
      b = ⟨index + n, label.location⟩ ∧
      ∀ m l, labelAt slots m = some l → l.value = x → m ≤ n := by
  induction slots generalizing index with
  | nil => simp [lastBinding] at h
  | cons slot rest ih =>
    rw [lastBinding, Option.or_eq_some_iff] at h
    rcases h with hlater | ⟨hnone, hslot⟩
    · rcases ih hlater with ⟨n, label, hlabel, hname, hb, hlast⟩
      refine ⟨n + 1, label, hlabel, hname, ?_, ?_⟩
      · rw [hb, Nat.add_right_comm, Nat.add_assoc]
      · intro m l hl hx
        cases m with
        | zero => omega
        | succ m => exact Nat.succ_le_succ (hlast m l hl hx)
    · rcases Option.bind_eq_some_iff.mp hslot with ⟨label, hlabel, hif⟩
      split at hif
      next hname =>
        refine ⟨0, label, hlabel, hname, (Option.some.inj hif).symm, ?_⟩
        intro m l hl hx
        cases m with
        | zero => exact Nat.le_refl 0
        | succ m => exact absurd hx (lastBinding_eq_none_iff.mp hnone m l hl)
      next => contradiction

/-- The last binding is that of the last slot with the label. -/
theorem lastBinding_eq_some_iff {index : Nat} {x : String} {slots : List Slot}
    {b : Binding} :
    lastBinding index x slots = some b ↔
      ∃ n label, labelAt slots n = some label ∧ label.value = x ∧
        b = ⟨index + n, label.location⟩ ∧
        ∀ m l, labelAt slots m = some l → l.value = x → m ≤ n := by
  constructor
  · exact exists_of_lastBinding
  · rintro ⟨n, label, hlabel, hname, rfl, hlast⟩
    cases hfound : lastBinding index x slots with
    | none => exact absurd hname (lastBinding_eq_none_iff.mp hfound n label hlabel)
    | some b =>
      rcases exists_of_lastBinding hfound with ⟨n', label', hlabel', hname', rfl, hlast'⟩
      have hle : n' ≤ n := hlast n' label' hlabel' hname'
      have hge : n ≤ n' := hlast' n label hlabel hname
      obtain rfl : n = n' := Nat.le_antisymm hge hle
      obtain rfl : label = label' := Option.some.inj (hlabel.symm.trans hlabel')
      rfl

/-! ## Binding -/

/-- Binding one label succeeds when labels are not strict. -/
theorem bindLabel_permissive_outcome (index : Nat) (symbols : SymbolTable)
    (label : Located String) :
    (bindLabel false index symbols label).outcome =
      .ok (symbols.insert label.value ⟨index, label.location⟩) := by
  cases hfound : symbols.find? label.value with
  | none => rw [bindLabel_new hfound]
  | some earlier => rw [bindLabel_permissive hfound]

/-- A slot without a label is passed over. -/
theorem bindLabels_cons_of_none {strict : Bool} {index : Nat} {symbols : SymbolTable}
    {slot : Slot} (h : slot.label = none) (rest : List Slot) :
    bindLabels strict index symbols (slot :: rest) =
      bindLabels strict (index + 1) symbols rest := by
  simp only [bindLabels, h]

/-- The label of a slot is bound before those of the later slots. -/
theorem bindLabels_cons_of_some {strict : Bool} {index : Nat} {symbols : SymbolTable}
    {slot : Slot} {label : Located String} (h : slot.label = some label) (rest : List Slot) :
    bindLabels strict index symbols (slot :: rest) =
      bindLabel strict index symbols label >>= fun symbols =>
        bindLabels strict (index + 1) symbols rest := by
  simp only [bindLabels, h]

/-- After an assignment the key is found with the new value and the others as before. -/
theorem find?_insert_eq (symbols : SymbolTable) (label : Located String) (b : Binding)
    (x : String) :
    (symbols.insert label.value b).find? x =
      (if label.value = x then some b else none).or (symbols.find? x) := by
  by_cases hx : label.value = x
  · subst hx
    simp
  · simp [hx, symbols.find?_insert_of_ne b (Ne.symm hx)]

/-- When labels are not strict, binding succeeds.  It keeps the table in order, and a label
has its last binding or else the one that it had before. -/
theorem bindLabels_permissive_spec (index : Nat) (symbols : SymbolTable)
    (slots : List Slot) :
    ∃ table, (bindLabels false index symbols slots).outcome = .ok table ∧
      (symbols.Ordered → table.Ordered) ∧
      ∀ x, table.find? x = (lastBinding index x slots).or (symbols.find? x) := by
  induction slots generalizing index symbols with
  | nil => exact ⟨symbols, rfl, id, fun x => rfl⟩
  | cons slot rest ih =>
    cases hlabel : slot.label with
    | none =>
      rcases ih (index + 1) symbols with ⟨table, houtcome, hordered, hfind⟩
      refine ⟨table, ?_, hordered, ?_⟩
      · rw [bindLabels_cons_of_none hlabel, houtcome]
      · intro x
        rw [hfind x, lastBinding, hlabel, Option.bind_none, Option.or_none]
    | some label =>
      obtain ⟨table, houtcome, hordered, hfind⟩ :=
        ih (index + 1) (symbols.insert label.value ⟨index, label.location⟩)
      refine ⟨table, ?_, ?_, ?_⟩
      · rw [bindLabels_cons_of_some hlabel,
          Journal.outcome_bind_of_ok (bindLabel_permissive_outcome index symbols label),
          houtcome]
      · exact fun h => hordered (Table.insert_ordered h _ _)
      · intro x
        rw [hfind x, find?_insert_eq, lastBinding, hlabel, Option.bind_some, Option.or_assoc]

/-! ## Strict labels -/

/-- Strict labels make no difference to slots whose labels differ from each other and from
those that are bound already. -/
theorem bindLabels_strict_of_distinct {index : Nat} {symbols : SymbolTable}
    {slots : List Slot}
    (hfresh : ∀ n l, labelAt slots n = some l → symbols.find? l.value = none)
    (hdistinct : ∀ m n l l', labelAt slots m = some l → labelAt slots n = some l' →
      l.value = l'.value → m = n) :
    bindLabels true index symbols slots = bindLabels false index symbols slots := by
  induction slots generalizing index symbols with
  | nil => rfl
  | cons slot rest ih =>
    have hrest : ∀ m n l l', labelAt rest m = some l → labelAt rest n = some l' →
        l.value = l'.value → m = n := by
      intro m n l l' hl hl' hvalue
      exact Nat.succ.inj (hdistinct (m + 1) (n + 1) l l' hl hl' hvalue)
    cases hlabel : slot.label with
    | none =>
      rw [bindLabels_cons_of_none hlabel, bindLabels_cons_of_none hlabel]
      exact ih (fun n l hl => hfresh (n + 1) l hl) hrest
    | some label =>
      have hnew : symbols.find? label.value = none := hfresh 0 label hlabel
      rw [bindLabels_cons_of_some hlabel, bindLabels_cons_of_some hlabel,
        bindLabel_new hnew, bindLabel_new hnew]
      -- the later labels are still new after this one is bound
      have hlater : ∀ n l, labelAt rest n = some l →
          (symbols.insert label.value ⟨index, label.location⟩).find? l.value = none := by
        intro n l hl
        have hne : l.value ≠ label.value := by
          intro hvalue
          have heq := hdistinct (n + 1) 0 l label hl hlabel hvalue
          omega
        rw [symbols.find?_insert_of_ne _ hne]
        exact hfresh (n + 1) l hl
      rw [Journal.ok_bind, Journal.ok_bind, ih hlater hrest]

/-- Slots before a point are bound before those after it. -/
theorem bindLabels_append_of_ok {strict : Bool} {index : Nat} {symbols table : SymbolTable}
    {first : List Slot} (h : (bindLabels strict index symbols first).outcome = .ok table)
    (second : List Slot) :
    (bindLabels strict index symbols (first ++ second)).outcome =
      (bindLabels strict (index + first.length) table second).outcome := by
  induction first generalizing index symbols with
  | nil =>
    cases h
    rfl
  | cons slot rest ih =>
    have hindex : index + (slot :: rest).length = index + 1 + rest.length := by
      rw [List.length_cons]
      omega
    rw [hindex, List.cons_append]
    cases hlabel : slot.label with
    | none =>
      rw [bindLabels_cons_of_none hlabel] at h ⊢
      exact ih h
    | some label =>
      rw [bindLabels_cons_of_some hlabel] at h ⊢
      rcases Journal.exists_of_outcome_bind h with ⟨bound, hbound, hrest⟩
      rw [Journal.outcome_bind_of_ok hbound]
      exact ih hrest

/-- Strict labels refuse the first slot whose label is bound by a slot before it. -/
theorem bindLabels_strict_of_duplicate {slots : List Slot} {m n : Nat}
    {earlier label : Located String} (hmn : m < n) (hearlier : labelAt slots m = some earlier)
    (hlabel : labelAt slots n = some label) (hvalue : earlier.value = label.value)
    (hfirst : ∀ m' n' l l', labelAt slots m' = some l → labelAt slots n' = some l' →
      m' < n' → l.value = l'.value → n ≤ n') :
    (bindLabels true 0 .empty slots).outcome =
      .error (duplicate label ⟨m, earlier.location⟩) := by
  rcases Option.bind_eq_some_iff.mp hlabel with ⟨slot, hslot, hslotLabel⟩
  have hsplit : slots = slots.take n ++ slot :: slots.drop (n + 1) := by
    rcases List.getElem?_eq_some_iff.mp hslot with ⟨hlt, hget⟩
    rw [← hget, ← List.drop_eq_getElem_cons hlt, List.take_append_drop]
  -- the slots before the duplicate are bound as if labels were not strict
  have hbefore : ∀ k l, labelAt (slots.take n) k = some l → k < n ∧ labelAt slots k = some l :=
    fun k l => labelAt_of_take
  have hdistinct : ∀ k k' l l', labelAt (slots.take n) k = some l →
      labelAt (slots.take n) k' = some l' → l.value = l'.value → k = k' := by
    intro k k' l l' hl hl' hll
    rcases hbefore k l hl with ⟨hk, hl⟩
    rcases hbefore k' l' hl' with ⟨hk', hl'⟩
    by_contra hne
    rcases Nat.lt_or_gt_of_ne hne with hlt | hgt
    · have := hfirst k k' l l' hl hl' hlt hll
      omega
    · have := hfirst k' k l' l hl' hl hgt hll.symm
      omega
  rcases bindLabels_permissive_spec 0 .empty (slots.take n) with ⟨table, houtcome, -, hfind⟩
  rw [← bindLabels_strict_of_distinct (fun _ _ _ => rfl) hdistinct] at houtcome
  have hbound : table.find? label.value = some ⟨m, earlier.location⟩ := by
    have hlast : lastBinding 0 label.value (slots.take n) = some ⟨m, earlier.location⟩ := by
      refine lastBinding_eq_some_iff.mpr ⟨m, earlier, ?_, hvalue, ?_, ?_⟩
      · rw [labelAt_take hmn, hearlier]
      · rw [Nat.zero_add]
      · intro k l hl hx
        rcases hbefore k l hl with ⟨hk, hl⟩
        by_contra hmk
        have := hfirst m k earlier l hearlier hl (by omega) (hvalue.trans hx.symm)
        omega
    rw [hfind, hlast, Option.some_or]
  rw [hsplit, bindLabels_append_of_ok houtcome, bindLabels_cons_of_some hslotLabel,
    Journal.outcome_bind_of_error]
  rw [bindLabel_strict hbound]

end Mailroom
