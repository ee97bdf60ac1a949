import Mailroom.Proofs.Strictness

/-!
# Other names for labels

A label only says which instruction a branch leads to, so a program may use other names for its
labels as long as different labels keep different names.  The order of the symbols changes with
the names, and so do the labels that are suggested for an undefined one, since these are those
that are spelled like it.

Main definitions:

- `Token.rename` gives the label or the branch of a token another name.
- `SymbolTable.Renamed` says that two tables bind labels alike under their names.
- `Refusal.rename` renames the labels in a refusal, and `Refusal.unprompted` is a refusal without
  suggestions.

Main results:

- Theorem `SymbolTable.Renamed.bind`: tables that bind labels alike still do so after one label
  more.
- Theorem `bindLabels_rename`: the labels of two programs are bound alike.
- Theorem `ordersOf_rename`: their slots are encoded alike.
- Theorem `Assembler.generate_rename` joins them.
-/

namespace Mailroom

/-! ## Names -/

/-- Change a value without its place. -/
def Located.map {α β : Type} (g : α → β) (x : Located α) : Located β :=
  ⟨g x.value, x.location, x.sourceLine⟩

section Names

variable (f : String → String)

/-- An instruction under other names. -/
def Instruction.rename : Instruction → Instruction
  | plain op remark => .plain op remark
  | access op address => .access op address
  | branch op label => .branch op (f label)

/-- A token under other names. -/
def Token.rename : Token → Token
  | label name => .label (name.map f)
  | instruction i => .instruction (i.map (·.rename f))

/-- A slot under other names. -/
def Slot.rename (slot : Slot) : Slot :=
  ⟨slot.instruction.map (·.rename f), slot.label.map (·.map f)⟩

/-- A notice under other names. -/
def Notice.rename : Notice → Notice
  | labelRedefined location label earlier => .labelRedefined location (f label) earlier
  | labelBound label index => .labelBound (f label) index
  | other => other

/-- A complaint under other names. -/
def Complaint.rename : Complaint → Complaint
  | labelOutOfRange label index => .labelOutOfRange (f label) index
  | undefinedLabel label similar => .undefinedLabel (f label) (similar.map f)
  | duplicateLabel label earlier => .duplicateLabel (f label) earlier
  | other => other

/-- A diagnostic under other names. -/
def Diagnostic.rename (d : Diagnostic) : Diagnostic :=
  { d with complaint := d.complaint.rename f }

/-- A refusal under other names. -/
def Refusal.rename : Refusal → Refusal
  | report d => .report (d.rename f)
  | longNumeral cause => .longNumeral cause
  | badAddress cause => .badAddress cause

end Names

/-- A complaint without suggestions. -/
def Complaint.unprompted : Complaint → Complaint
  | undefinedLabel label _ => .undefinedLabel label []
  | other => other

/-- A refusal without suggestions of labels. -/
def Refusal.unprompted : Refusal → Refusal
  | report d => .report { d with complaint := d.complaint.unprompted }
  | longNumeral cause => .longNumeral cause
  | badAddress cause => .badAddress cause

variable {f : String → String}

/-- A notice is as grave under other names. -/
@[simp] theorem Notice.severity_rename (n : Notice) : (n.rename f).severity = n.severity := by
  cases n <;> rfl

/-- The warnings under other names are those among the notices under other names. -/
theorem warnings_rename (notices : List Notice) :
    warnings (notices.map (·.rename f)) = (warnings notices).map (·.rename f) := by
  rw [warnings, List.filter_map, warnings]
  congr 1
  exact List.filter_congr fun n _ => by rw [Function.comp_apply, Notice.severity_rename]

/-- The slots of tokens under other names. -/
theorem Slot.ofTokens_rename (tokens : List Token) :
    ofTokens (tokens.map (·.rename f)) = (ofTokens tokens).map (·.rename f) := by
  have hafter : ∀ previous, ofTokensAfter (previous.map (·.map f)) (tokens.map (·.rename f)) =
      (ofTokensAfter previous tokens).map (·.rename f) := by
    induction tokens with
    | nil => exact fun previous => rfl
    | cons t rest ih =>
      intro previous
      cases t with
      | label name => exact ih (some name)
      | instruction i => exact congrArg _ (ih none)
  exact hafter none

/-! ## Symbols -/

/-- A table in order has no entry twice. -/
theorem Table.Ordered.nodup_entries {κ α : Type} [Ord κ] [Std.ReflOrd κ] {t : Table κ α}
    (h : t.Ordered) : t.entries.Nodup := by
  refine h.imp ?_
  rintro e _ hlt rfl
  exact absurd hlt (by rw [Std.ReflOrd.compare_self]; decide)

/-- Two tables bind labels alike, each under its own names. -/
structure SymbolTable.Renamed (f : String → String) (symbols renamed : SymbolTable) : Prop where
  ordered : symbols.Ordered
  renamed_ordered : renamed.Ordered
  find?_eq_some_iff : ∀ y b,
    renamed.find? y = some b ↔ ∃ x, f x = y ∧ symbols.find? x = some b

namespace SymbolTable.Renamed

variable {symbols renamed : SymbolTable}

/-- Tables without labels bind them alike. -/
theorem empty : Renamed f .empty .empty :=
  ⟨Table.empty_ordered, Table.empty_ordered, fun y b => by simp⟩

/-- A label has the same binding under its other name. -/
theorem find? (h : Renamed f symbols renamed) (hf : Function.Injective f) (x : String) :
    renamed.find? (f x) = symbols.find? x := by
  refine Option.ext fun b => ?_
  rw [h.find?_eq_some_iff]
  constructor
  · rintro ⟨x', hx', hfound⟩
    rwa [hf hx'] at hfound
  · exact fun hfound => ⟨x, rfl, hfound⟩

/-- After one label more is bound, under its own name in each table, labels are still bound
alike. -/
theorem bind (h : Renamed f symbols renamed) (hf : Function.Injective f)
    (label : Located String) (index : Nat) :
    Renamed f (symbols.bind label index) (renamed.bind (label.map f) index) := by
  refine ⟨Table.insert_ordered h.ordered _ _, Table.insert_ordered h.renamed_ordered _ _,
    fun y b => ?_⟩
  have hmapped : renamed.bind (label.map f) index =
      renamed.insert (f label.value) ⟨index, label.location⟩ := rfl
  rw [hmapped]
  by_cases hy : y = f label.value
  · subst hy
    rw [Table.find?_insert_self]
    constructor
    · exact fun hb => ⟨label.value, rfl, by rw [Table.find?_insert_self, hb]⟩
    · rintro ⟨x, hx, hfound⟩
      rwa [hf hx, Table.find?_insert_self] at hfound
  · rw [Table.find?_insert_of_ne _ _ hy, h.find?_eq_some_iff]
    -- a label with another new name had another name
    have hother : ∀ x, f x = y → (symbols.bind label index).find? x = symbols.find? x := by
      intro x hx
      refine Table.find?_insert_of_ne _ _ ?_
      rintro rfl
      exact hy hx.symm
    exact exists_congr fun x => and_congr_right fun hx => by rw [hother x hx]

/-- The entries are the same up to their names and their order. -/
theorem entries_perm (h : Renamed f symbols renamed) (hf : Function.Injective f) :
    renamed.entries.Perm (symbols.entries.map (Prod.map f id)) := by
  have hnodup := h.ordered.nodup_entries.map (hf.prodMap Function.injective_id)
  rw [List.perm_ext_iff_of_nodup h.renamed_ordered.nodup_entries hnodup]
  rintro ⟨y, b⟩
  rw [← Table.find?_eq_some_iff h.renamed_ordered, h.find?_eq_some_iff, List.mem_map]
  constructor
  · rintro ⟨x, rfl, hfound⟩
    exact ⟨(x, b), (Table.find?_eq_some_iff h.ordered).mp hfound, rfl⟩
  · rintro ⟨⟨x, b⟩, hentry, heq⟩
    cases heq
    exact ⟨x, rfl, (Table.find?_eq_some_iff h.ordered).mpr hentry⟩

/-- The symbols are the same up to their names and their order. -/
theorem indices_perm (h : Renamed f symbols renamed) (hf : Function.Injective f) :
    renamed.indices.Perm (symbols.indices.map (Prod.map f id)) := by
  have hperm := (h.entries_perm hf).map fun e => (e.1, e.2.index)
  rw [List.map_map] at hperm
  rw [SymbolTable.indices, SymbolTable.indices, List.map_map]
  exact hperm

/-- The tables have the same size. -/
theorem size (h : Renamed f symbols renamed) (hf : Function.Injective f) :
    renamed.size = symbols.size := by
  have hlength := (h.entries_perm hf).length_eq
  rwa [List.length_map] at hlength

end SymbolTable.Renamed

/-- Two ways to bind labels are alike, each under its own names. -/
inductive BoundAlike (f : String → String) :
    Journal Diagnostic SymbolTable → Journal Diagnostic SymbolTable → Prop
  | bound {symbols renamed : SymbolTable} (notices : List Notice)
      (h : symbols.Renamed f renamed) :
      BoundAlike f ⟨notices, .ok symbols⟩ ⟨notices.map (·.rename f), .ok renamed⟩
  | refused (notices : List Notice) (d : Diagnostic) :
      BoundAlike f ⟨notices, .error d⟩ ⟨notices.map (·.rename f), .error (d.rename f)⟩

/-- A notice before binding labels. -/
theorem BoundAlike.cons {first second : Journal Diagnostic SymbolTable}
    (h : BoundAlike f first second) (n : Notice) :
    BoundAlike f ⟨n :: first.notices, first.outcome⟩
      ⟨n.rename f :: second.notices, second.outcome⟩ := by
  cases h with
  | bound notices h => exact .bound (n :: notices) h
  | refused notices d => exact .refused (n :: notices) d

/-- The labels of slots are bound alike under other names. -/
theorem bindLabels_rename (hf : Function.Injective f) {symbols renamed : SymbolTable}
    (h : symbols.Renamed f renamed) (strict : Bool) (index : Nat) (slots : List Slot) :
    BoundAlike f (bindLabels strict index symbols slots)
      (bindLabels strict index renamed (slots.map (·.rename f))) := by
  induction slots generalizing index symbols renamed with
  | nil => exact .bound [] h
  | cons slot rest ih =>
    rw [List.map_cons]
    cases hlabel : slot.label with
    | none =>
      have hlabel' : (slot.rename f).label = none := by rw [Slot.rename, hlabel]; rfl
      rw [bindLabels_cons_of_none hlabel, bindLabels_cons_of_none hlabel']
      exact ih h (index + 1)
    | some label =>
      have hlabel' : (slot.rename f).label = some (label.map f) := by
        rw [Slot.rename, hlabel]
        rfl
      have hlater := ih (h.bind hf label index) (index + 1)
      have hfind : renamed.find? (label.map f).value = symbols.find? label.value :=
        h.find? hf label.value
      cases hfound : symbols.find? label.value with
      | none =>
        rw [bindLabels_cons_of_new hlabel hfound,
          bindLabels_cons_of_new hlabel' (hfind.trans hfound)]
        exact hlater.cons (.labelBound label.value index)
      | some earlier =>
        cases strict with
        | true =>
          rw [bindLabels_strict_cons_of_bound hlabel hfound,
            bindLabels_strict_cons_of_bound hlabel' (hfind.trans hfound)]
          exact .refused [] (duplicate label earlier)
        | false =>
          rw [bindLabels_permissive_cons_of_bound hlabel hfound,
            bindLabels_permissive_cons_of_bound hlabel' (hfind.trans hfound)]
          exact (hlater.cons (.labelBound label.value index)).cons (redefinition label earlier)

/-! ## Orders -/

section Orders

variable {symbols renamed : SymbolTable}

/-- A slot is encoded alike under other names. -/
theorem Slot.order_rename (hf : Function.Injective f) (h : symbols.Renamed f renamed)
    (slot : Slot) :
    ((slot.rename f).order renamed).mapError Refusal.unprompted =
      (slot.order symbols).mapError fun e => (e.rename f).unprompted := by
  obtain ⟨⟨value, location, sourceLine⟩, label⟩ := slot
  cases value with
  | plain op remark => rfl
  | access op address =>
    simp only [order, rename, Located.map, Instruction.rename]
    by_cases hbeyond : 99 < address
    · rw [if_pos hbeyond]
      rfl
    · rw [if_neg hbeyond]
      cases Address.ofInt? address <;> rfl
  | branch op name =>
    simp only [order, rename, Located.map, Instruction.rename, resolve, h.find? hf]
    cases symbols.find? name with
    | none => rfl
    | some binding =>
      by_cases hreachable : binding.index < 100
      · simp only [dif_pos hreachable]
        rfl
      · simp only [dif_neg hreachable]
        rfl

/-- The slots of a program are encoded alike under other names, up to the first one that is
refused. -/
theorem ordersOf_rename (hf : Function.Injective f) (h : symbols.Renamed f renamed)
    (slots : List Slot) :
    (ordersOf renamed (slots.map (·.rename f))).mapError Refusal.unprompted =
      (ordersOf symbols slots).mapError fun e => (e.rename f).unprompted := by
  induction slots with
  | nil => rfl
  | cons slot rest ih =>
    rw [List.map_cons]
    rcases exists_of_mapError_eq (slot.order_rename hf h) with
      ⟨order, horder, horder'⟩ | ⟨e, e', horder, horder', he⟩
    · rw [ordersOf_cons_of_ok horder, ordersOf_cons_of_ok horder']
      rcases exists_of_mapError_eq ih with
        ⟨orders, horders, horders'⟩ | ⟨e, e', horders, horders', he⟩
      · rw [horders, horders']
        rfl
      · rw [horders, horders']
        exact congrArg Except.error he
    · rw [ordersOf_cons_of_error horder, ordersOf_cons_of_error horder']
      exact congrArg Except.error he

end Orders

/-! ## Programs -/

namespace Assembler

/-- What an assembler makes of a program is the same under other names, up to the order of the
symbols and the suggestions in a refusal. -/
theorem generate_rename (hf : Function.Injective f) (a : Assembler) (tokens : List Token) :
    ((a.generate (tokens.map (·.rename f))).2.outcome.mapError Refusal.unprompted =
        (a.generate tokens).2.outcome.mapError fun e => (e.rename f).unprompted) ∧
      (a.generate (tokens.map (·.rename f))).1.build.symbols.indices.Perm
        ((a.generate tokens).1.build.symbols.indices.map (Prod.map f id)) ∧
      (a.generate (tokens.map (·.rename f))).2.notices =
        (a.generate tokens).2.notices.map (·.rename f) := by
  have hbound := bindLabels_rename hf .empty a.strict 0 (Slot.ofTokens tokens)
  simp only [generate, Build.ofTokens, Slot.ofTokens_rename, symbolsOf, List.length_map]
  generalize bindLabels a.strict 0 .empty (Slot.ofTokens tokens) = plain at hbound ⊢
  generalize bindLabels a.strict 0 .empty ((Slot.ofTokens tokens).map (·.rename f)) = other
    at hbound ⊢
  cases hbound with
  | refused notices d => exact ⟨rfl, .refl _, rfl⟩
  | bound notices h =>
    rcases exists_of_mapError_eq (ordersOf_rename hf h (Slot.ofTokens tokens)) with
      ⟨orders, hplain, hother⟩ | ⟨e, e', hplain, hother, he⟩
    · simp only [hplain, hother]
      refine ⟨rfl, h.indices_perm hf, ?_⟩
      rw [h.size hf, List.map_append, List.map_append]
      rfl
    · simp only [hplain, hother]
      refine ⟨congrArg Except.error he, h.indices_perm hf, ?_⟩
      rw [h.size hf, List.map_append]
      rfl

/-- Other names for labels make no difference to an assembler, as long as different labels keep
different names.  A program has the same words, and its symbols are bound to the same slots under
their other names.  If it is refused, then for the same reason in the same place, except that
other labels may be suggested; and there are the same warnings. -/
theorem generate_renamed_alike (hf : Function.Injective f) (a : Assembler)
    (tokens : List Token) :
    (∀ words, (a.generate (tokens.map (·.rename f))).2.outcome = .ok words ↔
        (a.generate tokens).2.outcome = .ok words) ∧
      (∀ e, (a.generate tokens).2.outcome = .error e →
        ∃ e', (a.generate (tokens.map (·.rename f))).2.outcome = .error e' ∧
          e'.unprompted = (e.rename f).unprompted) ∧
      (a.generate (tokens.map (·.rename f))).1.build.symbols.indices.Perm
        ((a.generate tokens).1.build.symbols.indices.map (Prod.map f id)) ∧
      warnings (a.generate (tokens.map (·.rename f))).2.notices =
        (warnings (a.generate tokens).2.notices).map (·.rename f) := by
  obtain ⟨houtcome, hsymbols, hnotices⟩ := generate_rename hf a tokens
  have hwarnings : warnings (a.generate (tokens.map (·.rename f))).2.notices =
      (warnings (a.generate tokens).2.notices).map (·.rename f) := by
    rw [hnotices, warnings_rename]
  refine ⟨ok_iff_of_mapError_eq houtcome, fun e he => ?_, hsymbols, hwarnings⟩
  rcases exists_of_mapError_eq houtcome with ⟨words, hwords, -⟩ | ⟨_, e', hplain, hother, hsame⟩
  · rw [hwords] at he
    contradiction
  · rw [hplain] at he
    cases he
    exact ⟨e', hother, hsame⟩

/-- With a sign before every label, the program with a label on two instructions is refused for
the same branch, after the same warning. -/
theorem generate_renamed_alike_rebound :
    Function.Injective ("$" ++ · : String → String) ∧
      (∃ e', ((new false).generate (reboundTokens.map (·.rename ("$" ++ ·)))).2.outcome =
          .error e' ∧
        e'.unprompted = .report ⟨.undefinedLabel "$c" [], some ⟨"rebound", 4, 1⟩, some "b c",
          none⟩) ∧
      warnings ((new false).generate (reboundTokens.map (·.rename ("$" ++ ·)))).2.notices =
        [.labelRedefined ⟨"rebound", 3, 3⟩ "$a" ⟨"rebound", 1, 1⟩] := by
  have hf : Function.Injective ("$" ++ · : String → String) :=
    fun _ _ => String.append_right_inj "$" |>.mp
  obtain ⟨-, herror, -, hwarnings⟩ := generate_renamed_alike hf (new false) reboundTokens
  refine ⟨hf, herror _ rfl, hwarnings.trans ?_⟩
  decide +kernel

end Assembler

end Mailroom
