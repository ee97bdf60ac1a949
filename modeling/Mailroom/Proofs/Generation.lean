import Mailroom.Assembly.Assembler
import Mailroom.Proofs.Orders
import Mailroom.Proofs.SymbolTables
import Mathlib.Data.List.Forall2
import Mathlib.Data.Nat.Find

/-!
# Generating words

What an assembler makes of a list of tokens, told on the tokens alone: where labels
stand, which mailbox an instruction is encoded with, and what is wrong with the first
instruction that has none.

Main definitions:

- `Addresses` gives an instruction its mailbox, and `Refuses` says why it has none.
- `IsSymbolList` says that a list holds the labels with their last instructions.
- `Generates` joins them: words, a refused instruction, or a duplicate label.

Main results:

- Theorem `Assembler.generate_iff_generates`: an assembler gives the result that the
  tokens call for and no other one, and its words are read back as the instructions.
-/

namespace Mailroom

open Text

/-! ## Outcomes -/

/-- Outcomes that are the same up to their errors are both results, and these are equal, or they
are both errors. -/
theorem exists_of_mapError_eq {ε ε' α : Type} {r r' : Except ε α} {g g' : ε → ε'}
    (h : r'.mapError g' = r.mapError g) :
    (∃ a, r = .ok a ∧ r' = .ok a) ∨ ∃ e e', r = .error e ∧ r' = .error e' ∧ g' e' = g e := by
  cases r with
  | ok a =>
    cases r' with
    | ok a' => exact .inl ⟨a, rfl, congrArg Except.ok (Except.ok.inj h)⟩
    | error e' => contradiction
  | error e =>
    cases r' with
    | ok a' => contradiction
    | error e' => exact .inr ⟨e, e', rfl, rfl, Except.error.inj h⟩

/-- Outcomes that are the same up to their errors have the same results. -/
theorem ok_iff_of_mapError_eq {ε ε' α : Type} {r r' : Except ε α} {g g' : ε → ε'}
    (h : r'.mapError g' = r.mapError g) (a : α) : r' = .ok a ↔ r = .ok a := by
  rcases exists_of_mapError_eq h with ⟨b, rfl, rfl⟩ | ⟨e, e', rfl, rfl, -⟩
  · exact Iff.rfl
  · exact ⟨nofun, nofun⟩

/-! ## Instructions -/

/-- The mailbox number that an instruction is encoded with.  Plain instructions count as
naming mailbox 0, and a branch names the last instruction with its label. -/
inductive Addresses (tokens : List Token) : Instruction → Nat → Prop
  | plain (op : PlainOp) (remark : Option String) : Addresses tokens (.plain op remark) 0
  | access (op : MailboxOp) {address : Nat} (h : address ≤ 99) :
      Addresses tokens (.access op address) address
  | branch (op : BranchOp) {x : String} {n : Nat} (hbinds : Binds tokens x n) (h : n ≤ 99) :
      Addresses tokens (.branch op x) n

/-- Why an instruction has no mailbox.  The similar labels of an undefined one are sought
among the given names. -/
inductive Refuses (tokens : List Token) (names : List String) (i : Located Instruction) :
    Refusal → Prop
  | beyond {op : MailboxOp} {address : Int} (hi : i.value = .access op address)
      (h : 99 < address) : Refuses tokens names i (i.complain (.mailboxOutOfRange address))
  | negative {op : MailboxOp} {address : Int} (hi : i.value = .access op address)
      (h : address < 0) : Refuses tokens names i (.badAddress ⟨address⟩)
  | undefined {op : BranchOp} {x : String} (hi : i.value = .branch op x)
      (h : ∀ n, ¬ StandsOn tokens x n) :
      Refuses tokens names i (i.complain (.undefinedLabel x (closeMatches x.toList names)))
  | unreachable {op : BranchOp} {x : String} {n : Nat} (hi : i.value = .branch op x)
      (hbinds : Binds tokens x n) (h : 99 < n) :
      Refuses tokens names i (i.complain (.labelOutOfRange x n))

/-- A word is the base of an instruction's operation plus its mailbox. -/
def Encodes (tokens : List Token) (i : Located Instruction) (word : Int) : Prop :=
  ∃ address, Addresses tokens i.value address ∧ word = i.value.opcode.base + address

/-- A word is read back as the operation and the mailbox of an instruction. -/
def ReadsBack (tokens : List Token) (i : Located Instruction) (word : Int) : Prop :=
  ∃ address order, Addresses tokens i.value address ∧ Order.ofWord? word = some order ∧
    order.opcode = i.value.opcode ∧ order.address = address

/-! ## Programs -/

/-- A list holds every label with its last instruction, once and in code point order. -/
def IsSymbolList (tokens : List Token) (symbols : List (String × Nat)) : Prop :=
  (symbols.Pairwise fun a b => a.1 < b.1) ∧
    ∀ x n, (x, n) ∈ symbols ↔ Binds tokens x n

/-- The label on instruction `n` is the first whose name stands on an earlier instruction;
`earlier` is the label on that instruction. -/
def FirstDuplicate (tokens : List Token) (earlier : Located String) (m : Nat)
    (label : Located String) (n : Nat) : Prop :=
  Heads tokens earlier m ∧ Heads tokens label n ∧ m < n ∧ earlier.value = label.value ∧
    ∀ m' n' l l', Heads tokens l m' → Heads tokens l' n' → m' < n' → l.value = l'.value →
      n ≤ n'

/-- The outcome of a program and the symbols that are left.  Duplicate labels matter only
if labels are strict, and then they come before everything else. -/
inductive Generates (strict : Bool) (tokens : List Token) :
    Except Refusal (List Int) → List (String × Nat) → Prop
  | words {symbols : List (String × Nat)} {words : List Int}
      (hstrict : strict = true → DistinctLabels tokens)
      (hsymbols : IsSymbolList tokens symbols)
      (hwords : List.Forall₂ (Encodes tokens) (instructionsOf tokens) words) :
      Generates strict tokens (.ok words) symbols
  | refused {symbols : List (String × Nat)} {before after : List (Located Instruction)}
      {i : Located Instruction} {e : Refusal}
      (hstrict : strict = true → DistinctLabels tokens)
      (hsymbols : IsSymbolList tokens symbols)
      (hsplit : instructionsOf tokens = before ++ i :: after)
      (hbefore : ∀ j ∈ before, ∃ word, Encodes tokens j word)
      (hrefuses : Refuses tokens (symbols.map (·.1)) i e) :
      Generates strict tokens (.error e) symbols
  | duplicate {earlier label : Located String} {m n : Nat} (hstrict : strict = true)
      (hfirst : FirstDuplicate tokens earlier m label n) :
      Generates strict tokens
        (.error (.report (Mailroom.duplicate label ⟨m, earlier.location⟩))) []

/-- The symbols of a program with words are listed. -/
theorem Generates.isSymbolList {strict : Bool} {tokens : List Token} {words : List Int}
    {symbols : List (String × Nat)} (h : Generates strict tokens (.ok words) symbols) :
    IsSymbolList tokens symbols := by
  cases h with
  | words _ hsymbols _ => exact hsymbols

/-- Two symbol lists of a program are the same. -/
theorem IsSymbolList.unique {tokens : List Token} {first second : List (String × Nat)}
    (hfirst : IsSymbolList tokens first) (hsecond : IsSymbolList tokens second) :
    first = second := by
  have hnodup : ∀ {symbols}, IsSymbolList tokens symbols → symbols.Nodup := by
    intro symbols hsymbols
    refine hsymbols.1.imp ?_
    rintro a b hlt rfl
    exact String.lt_irrefl a.1 hlt
  have hperm : first.Perm second := by
    rw [List.perm_ext_iff_of_nodup (hnodup hfirst) (hnodup hsecond)]
    rintro ⟨x, n⟩
    rw [hfirst.2, hsecond.2]
  refine hperm.eq_of_pairwise ?_ hfirst.1 hsecond.1
  intro a b _ _ hab hba
  exact absurd hba (String.lt_asymm hab)

/-! ## The symbol table -/

/-- The symbol table of a program. -/
structure IsTable (tokens : List Token) (table : SymbolTable) : Prop where
  ordered : table.Ordered
  find? : ∀ x, table.find? x = lastBinding 0 x (Slot.ofTokens tokens)

namespace IsTable

variable {tokens : List Token} {table : SymbolTable}

/-- A label is found with the last instruction that it stands on. -/
theorem exists_location_iff (h : IsTable tokens table) {x : String} {n : Nat} :
    (∃ location, table.find? x = some ⟨n, location⟩) ↔ Binds tokens x n := by
  simp only [h.find?, lastBinding_eq_some_iff, Slot.labelAt_ofTokens_iff, Nat.zero_add,
    Binding.mk.injEq]
  constructor
  · rintro ⟨location, k, label, hlabel, hname, ⟨rfl, -⟩, hlast⟩
    refine ⟨⟨label, hlabel, hname⟩, ?_⟩
    rintro m ⟨l, hl, hx⟩
    exact hlast m l hl hx
  · rintro ⟨⟨label, hlabel, hname⟩, hlast⟩
    exact ⟨label.location, n, label, hlabel, hname, ⟨rfl, rfl⟩,
      fun m l hl hx => hlast ⟨l, hl, hx⟩⟩

/-- A label that is not found stands nowhere. -/
theorem find?_eq_none_iff (h : IsTable tokens table) {x : String} :
    table.find? x = none ↔ ∀ n, ¬ StandsOn tokens x n := by
  simp only [h.find?, lastBinding_eq_none_iff, Slot.labelAt_ofTokens_iff]
  constructor
  · rintro hnone n ⟨label, hlabel, hname⟩
    exact hnone n label hlabel hname
  · intro hnone n label hlabel hname
    exact hnone n ⟨label, hlabel, hname⟩

/-- The listed symbols are those of the program. -/
theorem isSymbolList (h : IsTable tokens table) : IsSymbolList tokens table.indices := by
  constructor
  · rw [SymbolTable.indices, List.pairwise_map]
    exact h.ordered.imp fun hlt => compareOfLessAndEq_eq_lt.mp hlt
  · intro x n
    rw [← h.exists_location_iff, SymbolTable.indices, List.mem_map]
    constructor
    · rintro ⟨⟨y, index, location⟩, hentry, heq⟩
      cases heq
      exact ⟨location, (Table.find?_eq_some_iff h.ordered).mpr hentry⟩
    · rintro ⟨location, hfound⟩
      exact ⟨_, (Table.find?_eq_some_iff h.ordered).mp hfound, rfl⟩

end IsTable

/-- The names in the list of symbols are the keys of the table. -/
theorem SymbolTable.map_fst_indices (table : SymbolTable) :
    table.indices.map (·.1) = table.keys := by
  rw [SymbolTable.indices, List.map_map]
  rfl

/-- Without strict labels the symbol table of a program is built. -/
theorem symbolsOf_permissive (tokens : List Token) :
    ∃ table, (symbolsOf false (Slot.ofTokens tokens)).outcome = .ok table ∧
      IsTable tokens table := by
  obtain ⟨table, houtcome, hordered, hfind⟩ :=
    bindLabels_permissive_spec 0 .empty (Slot.ofTokens tokens)
  refine ⟨table, houtcome, hordered Table.empty_ordered, fun x => ?_⟩
  rw [hfind x, Table.find?_empty, Option.or_none]

/-- With strict labels the symbol table of a program without duplicates is built. -/
theorem symbolsOf_strict_of_distinct {tokens : List Token} (h : DistinctLabels tokens) :
    symbolsOf true (Slot.ofTokens tokens) = symbolsOf false (Slot.ofTokens tokens) := by
  refine bindLabels_strict_of_distinct (fun _ _ _ => rfl) ?_
  intro m n l l' hl hl' hvalue
  rw [Slot.labelAt_ofTokens_iff] at hl hl'
  exact h l.value m n ⟨l, hl, rfl⟩ ⟨l', hl', hvalue.symm⟩

/-- With strict labels the first duplicate is refused. -/
theorem symbolsOf_strict_of_duplicate {tokens : List Token} {earlier label : Located String}
    {m n : Nat} (h : FirstDuplicate tokens earlier m label n) :
    (symbolsOf true (Slot.ofTokens tokens)).outcome =
      .error (duplicate label ⟨m, earlier.location⟩) := by
  rcases h with ⟨hearlier, hlabel, hmn, hvalue, hfirst⟩
  refine bindLabels_strict_of_duplicate hmn (Slot.labelAt_ofTokens_iff.mpr hearlier)
    (Slot.labelAt_ofTokens_iff.mpr hlabel) hvalue ?_
  intro m' n' l l' hl hl' hlt hvalue'
  exact hfirst m' n' l l' (Slot.labelAt_ofTokens_iff.mp hl)
    (Slot.labelAt_ofTokens_iff.mp hl') hlt hvalue'

/-! ## Encoding one instruction -/

variable {tokens : List Token} {table : SymbolTable}

/-- A label is resolved to its last instruction, if that is a mailbox. -/
theorem resolve_eq_ok_iff (h : IsTable tokens table) {i : Located Instruction} {x : String}
    {a : Address} : resolve table i x = .ok a ↔ Binds tokens x a.val := by
  constructor
  · intro hresolve
    unfold resolve at hresolve
    split at hresolve
    next => contradiction
    next binding hfound =>
      split at hresolve
      next hlt =>
        cases hresolve
        exact h.exists_location_iff.mp ⟨binding.location, hfound⟩
      next => contradiction
  · intro hbinds
    rcases h.exists_location_iff.mpr hbinds with ⟨location, hfound⟩
    simp only [resolve, hfound, a.isLt, dif_pos]

/-- A label is refused if it stands nowhere, or if its last instruction is no mailbox. -/
theorem resolve_eq_error_iff (h : IsTable tokens table) {i : Located Instruction}
    {x : String} {e : Refusal} :
    resolve table i x = .error e ↔
      ((∀ n, ¬ StandsOn tokens x n) ∧
        e = i.complain (.undefinedLabel x (closeMatches x.toList table.keys))) ∨
      ∃ n, Binds tokens x n ∧ 99 < n ∧ e = i.complain (.labelOutOfRange x n) := by
  constructor
  · intro hresolve
    unfold resolve at hresolve
    split at hresolve
    next hnone =>
      cases hresolve
      exact .inl ⟨h.find?_eq_none_iff.mp hnone, rfl⟩
    next binding hfound =>
      split at hresolve
      next => contradiction
      next hge =>
        cases hresolve
        have hbinds := h.exists_location_iff.mp ⟨binding.location, hfound⟩
        exact .inr ⟨binding.index, hbinds, by omega, rfl⟩
  · rintro (⟨hnone, rfl⟩ | ⟨n, hbinds, hn, rfl⟩)
    · simp only [resolve, h.find?_eq_none_iff.mpr hnone]
    · rcases h.exists_location_iff.mpr hbinds with ⟨location, hfound⟩
      have hge : ¬ n < 100 := by omega
      simp only [resolve, hfound, hge, dif_neg, not_false_eq_true]

/-- A plain instruction is encoded without regard to labels. -/
theorem Slot.order_of_plain {slot : Slot} {op : PlainOp} {remark : Option String}
    (hvalue : slot.instruction.value = .plain op remark) :
    slot.order table = .ok (.plain op) := by
  simp only [Slot.order, hvalue]

/-- A branch is encoded with the mailbox of its label. -/
theorem Slot.order_of_branch {slot : Slot} {op : BranchOp} {x : String}
    (hvalue : slot.instruction.value = .branch op x) :
    slot.order table = (resolve table slot.instruction x).map (.branch op) := by
  simp only [Slot.order, hvalue]

/-- A mailbox instruction is encoded with its own mailbox. -/
theorem Slot.order_of_mailbox {slot : Slot} {op : MailboxOp} {a : Address}
    (hvalue : slot.instruction.value = .access op a.val) :
    slot.order table = .ok (.access op a) := by
  have hle : ¬ 99 < (a.val : Int) := by omega
  simp only [Slot.order, hvalue, hle, if_false, Address.ofInt?_val]

/-- A mailbox number above 99 is refused at its instruction. -/
theorem Slot.order_of_beyond {slot : Slot} {op : MailboxOp} {address : Int}
    (hvalue : slot.instruction.value = .access op address) (h : 99 < address) :
    slot.order table = .error (slot.instruction.complain (.mailboxOutOfRange address)) := by
  simp only [Slot.order, hvalue, h, if_true]

/-- A negative mailbox number is refused. -/
theorem Slot.order_of_negative {slot : Slot} {op : MailboxOp} {address : Int}
    (hvalue : slot.instruction.value = .access op address) (h : address < 0) :
    slot.order table = .error (.badAddress ⟨address⟩) := by
  have hle : ¬ 99 < address := by omega
  have hnone : Address.ofInt? address = none :=
    (Address.ofInt?_eq_none_iff address).mpr (.inl h)
  simp only [Slot.order, hvalue, hle, if_false, hnone]

/-- An instruction that names a mailbox is encoded as the order with its operation and this
mailbox. -/
theorem Slot.order_of_addresses (h : IsTable tokens table) {slot : Slot} {n : Nat}
    (haddresses : Addresses tokens slot.instruction.value n) :
    ∃ order, slot.order table = .ok order ∧
      order.opcode = slot.instruction.value.opcode ∧ order.address = n := by
  generalize hvalue : slot.instruction.value = value at haddresses
  cases haddresses with
  | plain op remark => exact ⟨.plain op, order_of_plain hvalue, rfl, rfl⟩
  | access op hle =>
    exact ⟨.access op ⟨n, by omega⟩, order_of_mailbox hvalue, rfl, rfl⟩
  | branch op hbinds hle =>
    have hresolve := (resolve_eq_ok_iff h (i := slot.instruction)
      (a := ⟨n, Nat.lt_succ_of_le hle⟩)).mpr hbinds
    refine ⟨.branch op ⟨n, by omega⟩, ?_, rfl, rfl⟩
    rw [order_of_branch hvalue, hresolve]
    rfl

/-- An instruction that is refused for some reason is not encoded, for this reason. -/
theorem Slot.order_of_refuses (h : IsTable tokens table) {slot : Slot} {e : Refusal}
    (hrefuses : Refuses tokens table.keys slot.instruction e) :
    slot.order table = .error e := by
  cases hrefuses with
  | beyond hvalue hlt => exact order_of_beyond hvalue hlt
  | negative hvalue hlt => exact order_of_negative hvalue hlt
  | undefined hvalue hnone =>
    rw [order_of_branch hvalue, (resolve_eq_error_iff h).mpr (.inl ⟨hnone, rfl⟩)]
    rfl
  | unreachable hvalue hbinds hlt =>
    rw [order_of_branch hvalue, (resolve_eq_error_iff h).mpr (.inr ⟨_, hbinds, hlt, rfl⟩)]
    rfl

/-- Every instruction names a mailbox or is refused. -/
theorem addresses_or_refuses (h : IsTable tokens table) (i : Located Instruction) :
    (∃ n, Addresses tokens i.value n) ∨ ∃ e, Refuses tokens table.keys i e := by
  cases hvalue : i.value with
  | plain op remark => exact .inl ⟨0, .plain op remark⟩
  | access op address =>
    by_cases hbeyond : 99 < address
    · exact .inr ⟨_, .beyond hvalue hbeyond⟩
    · by_cases hnegative : address < 0
      · exact .inr ⟨_, .negative hvalue hnegative⟩
      · rcases Address.exists_of_bounds (n := address) (by omega) (by omega) with ⟨a, rfl⟩
        exact .inl ⟨a.val, .access op (by omega)⟩
  | branch op x =>
    cases hresolve : resolve table i x with
    | ok a =>
      exact .inl ⟨a.val, .branch op ((resolve_eq_ok_iff h).mp hresolve) (by omega)⟩
    | error e =>
      rcases (resolve_eq_error_iff h).mp hresolve with ⟨hnone, -⟩ | ⟨n, hbinds, hn, -⟩
      · exact .inr ⟨_, .undefined hvalue hnone⟩
      · exact .inr ⟨_, .unreachable hvalue hbinds hn⟩

/-- The word of an instruction is the number of the order in its slot. -/
theorem Slot.order_of_encodes (h : IsTable tokens table) {slot : Slot} {word : Int}
    (hencodes : Encodes tokens slot.instruction word) :
    ∃ order, slot.order table = .ok order ∧ order.word = word := by
  rcases hencodes with ⟨n, haddresses, rfl⟩
  rcases order_of_addresses h haddresses with ⟨order, horder, hopcode, haddress⟩
  refine ⟨order, horder, ?_⟩
  rw [Order.word, hopcode, haddress]

/-- A word is read back as the instruction that it encodes. -/
theorem Encodes.readsBack {i : Located Instruction} {word : Int}
    (h : IsTable tokens table) (hencodes : Encodes tokens i word) :
    ReadsBack tokens i word := by
  rcases hencodes with ⟨n, haddresses, rfl⟩
  let slot : Slot := ⟨i, none⟩
  obtain ⟨order, -, hopcode, haddress⟩ : ∃ order, slot.order table = .ok order ∧
      order.opcode = i.value.opcode ∧ order.address = n :=
    Slot.order_of_addresses h haddresses
  refine ⟨n, order, haddresses, ?_, hopcode, haddress⟩
  rw [Order.ofWord?_eq_some_iff, Order.word, hopcode, haddress]

/-! ## Encoding a program -/

/-- Slots are encoded one after the other. -/
theorem ordersOf_cons_of_ok {slot : Slot} {order : Order}
    (h : slot.order table = .ok order) (rest : List Slot) :
    ordersOf table (slot :: rest) = (ordersOf table rest).map (order :: ·) := by
  simp only [ordersOf, h]

/-- A slot that cannot be encoded ends the encoding. -/
theorem ordersOf_cons_of_error {slot : Slot} {e : Refusal}
    (h : slot.order table = .error e) (rest : List Slot) :
    ordersOf table (slot :: rest) = .error e := by
  simp only [ordersOf, h]

/-- Slots whose instructions all have words are encoded with these words. -/
theorem ordersOf_of_encodes (h : IsTable tokens table) {slots : List Slot}
    {words : List Int}
    (hwords : List.Forall₂ (Encodes tokens) (slots.map (·.instruction)) words) :
    ∃ orders, ordersOf table slots = .ok orders ∧ orders.map Order.word = words := by
  induction slots generalizing words with
  | nil =>
    cases hwords
    exact ⟨[], rfl, rfl⟩
  | cons slot rest ih =>
    rw [List.map_cons] at hwords
    cases hwords with
    | cons hfirst hrest =>
      rcases Slot.order_of_encodes h hfirst with ⟨order, horder, hword⟩
      rcases ih hrest with ⟨orders, horders, hwords⟩
      refine ⟨order :: orders, ?_, ?_⟩
      · rw [ordersOf_cons_of_ok horder, horders]
        rfl
      · rw [List.map_cons, hword, hwords]

/-- The first instruction without a word is what the encoding fails on. -/
theorem ordersOf_of_refuses (h : IsTable tokens table) {slots : List Slot}
    {before after : List (Located Instruction)} {i : Located Instruction} {e : Refusal}
    (hsplit : slots.map (·.instruction) = before ++ i :: after)
    (hbefore : ∀ j ∈ before, ∃ word, Encodes tokens j word)
    (hrefuses : Refuses tokens table.keys i e) : ordersOf table slots = .error e := by
  induction slots generalizing before with
  | nil => simp at hsplit
  | cons slot rest ih =>
    rw [List.map_cons] at hsplit
    cases before with
    | nil =>
      rcases List.cons.inj hsplit with ⟨rfl, -⟩
      exact ordersOf_cons_of_error (Slot.order_of_refuses h hrefuses) rest
    | cons j before =>
      rcases List.cons.inj hsplit with ⟨rfl, hrest⟩
      rcases hbefore _ List.mem_cons_self with ⟨word, hword⟩
      rcases Slot.order_of_encodes h hword with ⟨order, horder, -⟩
      rw [ordersOf_cons_of_ok horder,
        ih hrest fun k hk => hbefore k (List.mem_cons_of_mem _ hk)]
      rfl

/-- Either every instruction has a word, or there is a first one without. -/
theorem encodes_or_refuses (h : IsTable tokens table) (is : List (Located Instruction)) :
    (∃ words, List.Forall₂ (Encodes tokens) is words) ∨
      ∃ before i after e, is = before ++ i :: after ∧
        (∀ j ∈ before, ∃ word, Encodes tokens j word) ∧ Refuses tokens table.keys i e := by
  induction is with
  | nil => exact .inl ⟨[], .nil⟩
  | cons first rest ih =>
    rcases addresses_or_refuses h first with ⟨n, haddresses⟩ | ⟨e, hrefuses⟩
    · have hfirst : Encodes tokens first (first.value.opcode.base + n) :=
        ⟨n, haddresses, rfl⟩
      rcases ih with ⟨words, hwords⟩ | ⟨before, i, after, e, rfl, hbefore, hrefuses⟩
      · exact .inl ⟨_, .cons hfirst hwords⟩
      · refine .inr ⟨first :: before, i, after, e, rfl, ?_, hrefuses⟩
        intro j hj
        rcases List.mem_cons.mp hj with rfl | hj
        · exact ⟨_, hfirst⟩
        · exact hbefore j hj
    · exact .inr ⟨[], first, rest, e, rfl, fun j hj => absurd hj List.not_mem_nil, hrefuses⟩

/-! ## The assembler -/

namespace Assembler

/-- After binding the labels an assembler encodes the slots. -/
theorem generate_of_symbols {a : Assembler}
    (h : (symbolsOf a.strict (Slot.ofTokens tokens)).outcome = .ok table) :
    (a.generate tokens).1.build.symbols = table ∧
      (a.generate tokens).2.outcome =
        (ordersOf table (Slot.ofTokens tokens)).map (·.map Order.word) := by
  simp only [generate, Build.ofTokens, h]
  cases ordersOf table (Slot.ofTokens tokens) <;> exact ⟨rfl, rfl⟩

/-- A duplicate label leaves no symbols. -/
theorem generate_of_duplicate {a : Assembler} {d : Diagnostic}
    (h : (symbolsOf a.strict (Slot.ofTokens tokens)).outcome = .error d) :
    (a.generate tokens).1.build.symbols = .empty ∧
      (a.generate tokens).2.outcome = .error (.report d) := by
  simp only [generate, Build.ofTokens, h, Except.map, and_self]

/-- Either no label stands on two instructions, or there is a first duplicate. -/
theorem distinct_or_firstDuplicate (tokens : List Token) :
    DistinctLabels tokens ∨ ∃ earlier m label n, FirstDuplicate tokens earlier m label n := by
  classical
  by_cases hexists : ∃ n m l l', Heads tokens l m ∧ Heads tokens l' n ∧ m < n ∧
      l.value = l'.value
  · rcases Nat.find_spec hexists with ⟨m, earlier, label, hearlier, hlabel, hmn, hvalue⟩
    refine .inr ⟨earlier, m, label, _, hearlier, hlabel, hmn, hvalue, ?_⟩
    intro m' n' l l' hl hl' hlt hll'
    exact Nat.find_min' hexists ⟨m', l, l', hl, hl', hlt, hll'⟩
  · refine .inl ?_
    rintro x m n ⟨l, hl, rfl⟩ ⟨l', hl', hvalue⟩
    by_contra hne
    rcases Nat.lt_or_gt_of_ne hne with hlt | hgt
    · exact hexists ⟨n, m, l, l', hl, hl', hlt, hvalue.symm⟩
    · exact hexists ⟨m, n, l', l, hl', hl, hgt, hvalue⟩

/-- The symbol table is built unless strict labels meet a duplicate. -/
theorem symbolsOf_of_distinct {strict : Bool}
    (h : strict = true → DistinctLabels tokens) :
    ∃ table, (symbolsOf strict (Slot.ofTokens tokens)).outcome = .ok table ∧
      IsTable tokens table := by
  rcases symbolsOf_permissive tokens with ⟨table, houtcome, htable⟩
  refine ⟨table, ?_, htable⟩
  cases strict with
  | false => exact houtcome
  | true => rw [symbolsOf_strict_of_distinct (h rfl), houtcome]

/-- The tokens call for the result that the assembler gives. -/
theorem generates_generate (a : Assembler) (tokens : List Token) :
    Generates a.strict tokens (a.generate tokens).2.outcome
      (a.generate tokens).1.build.symbols.indices := by
  by_cases hdistinct : a.strict = true → DistinctLabels tokens
  · rcases symbolsOf_of_distinct hdistinct with ⟨table, houtcome, htable⟩
    rcases generate_of_symbols houtcome with ⟨hsymbols, hresult⟩
    rw [hsymbols, hresult]
    rcases encodes_or_refuses htable (instructionsOf tokens) with
      ⟨words, hwords⟩ | ⟨before, i, after, e, hsplit, hbefore, hrefuses⟩
    · obtain ⟨orders, horders, rfl⟩ := ordersOf_of_encodes htable
        ((Slot.map_instruction_ofTokens tokens).symm ▸ hwords)
      rw [horders]
      exact .words hdistinct htable.isSymbolList hwords
    · rw [ordersOf_of_refuses htable
        ((Slot.map_instruction_ofTokens tokens).trans hsplit) hbefore hrefuses]
      rw [← SymbolTable.map_fst_indices] at hrefuses
      exact .refused hdistinct htable.isSymbolList hsplit hbefore hrefuses
  · rw [Classical.not_imp] at hdistinct
    rcases hdistinct with ⟨hstrict, hnot⟩
    obtain ⟨earlier, m, label, n, hfirst⟩ :=
      (distinct_or_firstDuplicate tokens).resolve_left hnot
    have houtcome := symbolsOf_strict_of_duplicate hfirst
    rw [← hstrict] at houtcome
    rcases generate_of_duplicate houtcome with ⟨hsymbols, hresult⟩
    rw [hsymbols, hresult]
    exact .duplicate hstrict hfirst

/-- The assembler gives the result that the tokens call for. -/
theorem generate_of_generates {a : Assembler} {r : Except Refusal (List Int)}
    {symbols : List (String × Nat)} (h : Generates a.strict tokens r symbols) :
    (a.generate tokens).2.outcome = r ∧
      (a.generate tokens).1.build.symbols.indices = symbols := by
  cases h with
  | words hstrict hsymbols hwords =>
    rcases symbolsOf_of_distinct hstrict with ⟨table, houtcome, htable⟩
    rcases generate_of_symbols houtcome with ⟨hleft, hresult⟩
    rw [← Slot.map_instruction_ofTokens] at hwords
    rcases ordersOf_of_encodes htable hwords with ⟨orders, horders, rfl⟩
    rw [hleft, hresult, horders]
    exact ⟨rfl, htable.isSymbolList.unique hsymbols⟩
  | refused hstrict hsymbols hsplit hbefore hrefuses =>
    rcases symbolsOf_of_distinct hstrict with ⟨table, houtcome, htable⟩
    rcases generate_of_symbols houtcome with ⟨hleft, hresult⟩
    rcases htable.isSymbolList.unique hsymbols with rfl
    rw [SymbolTable.map_fst_indices] at hrefuses
    rw [← Slot.map_instruction_ofTokens] at hsplit
    rw [hleft, hresult, ordersOf_of_refuses htable hsplit hbefore hrefuses]
    exact ⟨rfl, rfl⟩
  | duplicate hstrict hfirst =>
    have houtcome := symbolsOf_strict_of_duplicate hfirst
    rw [← hstrict] at houtcome
    rcases generate_of_duplicate houtcome with ⟨hsymbols, hresult⟩
    rw [hsymbols, hresult]
    exact ⟨rfl, rfl⟩

/-- The words of an assembler are read back as the instructions. -/
theorem readsBack_of_generate {a : Assembler} {words : List Int}
    (h : (a.generate tokens).2.outcome = .ok words) :
    List.Forall₂ (ReadsBack tokens) (instructionsOf tokens) words := by
  have hgenerates := generates_generate a tokens
  rw [h] at hgenerates
  rcases symbolsOf_permissive tokens with ⟨table, -, htable⟩
  cases hgenerates with
  | words _ _ hencodes => exact hencodes.imp fun _ _ h => h.readsBack htable

/-- Generated words lie between 0 and 902. -/
theorem bounds_of_readsBack {is : List (Located Instruction)} {words : List Int}
    (h : List.Forall₂ (ReadsBack tokens) is words) : ∀ v ∈ words, 0 ≤ v ∧ v ≤ 902 := by
  induction h with
  | nil => simp
  | cons hfirst _ ih =>
    rcases hfirst with ⟨_, order, -, hread, -, -⟩
    intro v hv
    rcases List.mem_cons.mp hv with rfl | hv
    · rw [← Order.word_of_ofWord? hread]
      exact order.word_bounds
    · exact ih v hv

/-- A text that is read to its end is assembled from its tokens. -/
theorem assemble_of_reading (a : Assembler) {file source : String}
    (h : Reading.ofSource file 1 source = ⟨tokens, none⟩) :
    a.assemble file source =
      ((a.generate tokens).1,
        ⟨.tokenized file tokens.length :: (a.generate tokens).2.notices,
          (a.generate tokens).2.outcome⟩) := by
  rw [assemble, h]
  rfl

/-- The outcome of a text that is read to its end is that of its tokens. -/
theorem outcome_of_reading (a : Assembler) {file source : String}
    (h : Reading.ofSource file 1 source = ⟨tokens, none⟩) :
    (a.assemble file source).2.outcome = (a.generate tokens).2.outcome := by
  rw [assemble_of_reading a h]

/-- A text that is read to its end leaves the build of its tokens. -/
theorem left_of_reading (a : Assembler) {file source : String}
    (h : Reading.ofSource file 1 source = ⟨tokens, none⟩) :
    (a.assemble file source).1 = (a.generate tokens).1 := by
  rw [assemble_of_reading a h]

/-- A text with a line that is refused is refused for this line. -/
theorem assemble_of_refused_line (a : Assembler) {file source : String} {e : Refusal}
    (h : Reading.ofSource file 1 source = ⟨tokens, some e⟩) :
    a.assemble file source = (a, ⟨[], .error e⟩) := by
  rw [assemble, h]
  rfl

/-- A text that is assembled is read to its end, and its words come from its tokens. -/
theorem generate_of_assemble {a : Assembler} {file source : String} {words : List Int}
    (h : (a.assemble file source).2.outcome = .ok words) :
    (a.generate (Reading.ofSource file 1 source).tokens).2.outcome = .ok words := by
  unfold assemble at h
  cases hrefusal : (Reading.ofSource file 1 source).refusal with
  | some e =>
    simp only [Reading.toExcept, hrefusal] at h
    contradiction
  | none =>
    simp only [Reading.toExcept, hrefusal] at h
    exact h

/-- An assembler gives exactly the result and the symbols that the tokens call for, and its
words are read back as the instructions with their mailboxes. -/
theorem generate_iff_generates (a : Assembler) (tokens : List Token)
    (r : Except Refusal (List Int)) (symbols : List (String × Nat)) :
    ((a.generate tokens).2.outcome = r ∧
        (a.generate tokens).1.build.symbols.indices = symbols ↔
      Generates a.strict tokens r symbols) ∧
      ∀ words, (a.generate tokens).2.outcome = .ok words →
        List.Forall₂ (ReadsBack tokens) (instructionsOf tokens) words := by
  refine ⟨⟨?_, generate_of_generates⟩, fun words => readsBack_of_generate⟩
  rintro ⟨rfl, rfl⟩
  exact generates_generate a tokens

end Assembler

end Mailroom
