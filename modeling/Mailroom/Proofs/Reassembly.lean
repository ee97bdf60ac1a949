import Mailroom.Proofs.Restating
import Mailroom.Proofs.Strictness

/-!
# Reassembly

A program that was assembled is disassembled with its symbols, and the source form of the
disassembly is assembled again.

Main definitions:

- `Readable` says what the tokens of every source text have in common.

Main results:

- Theorem `Names.find?_addSymbols`: symbols with different addresses name these addresses.
- Theorem `Assembler.assemble_disassembled`: the second assembly gives the words and the
  symbols of the first one, even with strict labels, and without warnings.
-/

namespace Mailroom

open Text

/-! ## Tokens of source texts -/

/-- What the tokens of every source text have in common: labels are names in lower case,
and branch targets hold no commas. -/
structure Readable (tokens : List Token) : Prop where
  isName : ∀ label, Token.label label ∈ tokens → IsName label.value
  folded : ∀ label, Token.label label ∈ tokens → foldedName label.value = label.value
  no_comma : ∀ i op x, Token.instruction i ∈ tokens → i.value = .branch op x →
    ',' ∉ x.toList

/-- The tokens of a source text are readable. -/
theorem Reading.readable_ofSource (file : String) (first : Int) (source : String) :
    Readable (ofSource file first source).tokens := by
  have hsayable : ∀ t ∈ (ofSource file first source).tokens, t.statement.Sayable :=
    fun t ht => sayable_ofSource ht
  constructor
  · intro label h
    cases hsayable _ h with
    | label hname hfolded => exact hname
  · intro label h
    cases hsayable _ h with
    | label hname hfolded => exact hfolded
  · intro i op x h hx
    have hi := hsayable _ h
    rw [Token.statement, hx] at hi
    cases hi with
    | instruction hbranch =>
      cases hbranch with
      | branch op hoperand hcode hfeed => exact hoperand.no_comma

/-! ## Names from symbols -/

/-- Symbols with different addresses name these addresses. -/
theorem Names.find?_addSymbols {symbols : List (String × Int)}
    (h : ∀ x y a, (x, a) ∈ symbols → (y, a) ∈ symbols → x = y) (names : Names) (a : Int)
    (x : String) :
    (names.addSymbols symbols).find? a = some x ↔
      (x, a) ∈ symbols ∨ (∀ y, (y, a) ∉ symbols) ∧ names.find? a = some x := by
  induction symbols generalizing names with
  | nil => simp [addSymbols]
  | cons s rest ih =>
    have hrest : ∀ x y a, (x, a) ∈ rest → (y, a) ∈ rest → x = y := fun x y a hx hy =>
      h x y a (List.mem_cons_of_mem _ hx) (List.mem_cons_of_mem _ hy)
    have hstep : Names.addSymbols names (s :: rest) =
        Names.addSymbols (names.insert s.2 s.1) rest := rfl
    rw [hstep, ih hrest]
    by_cases ha : a = s.2
    · -- the first symbol counts unless the address is named again
      subst ha
      rw [Table.find?_insert_self]
      constructor
      · rintro (hx | ⟨-, hx⟩)
        · exact .inl (List.mem_cons_of_mem _ hx)
        · cases hx
          exact .inl List.mem_cons_self
      · rintro (hx | ⟨hnone, -⟩)
        · by_cases hagain : ∃ y, (y, s.2) ∈ rest
          · obtain ⟨y, hy⟩ := hagain
            obtain rfl := h x y s.2 hx (List.mem_cons_of_mem _ hy)
            exact .inl hy
          · refine .inr ⟨not_exists.mp hagain, ?_⟩
            rw [h x s.1 s.2 hx List.mem_cons_self]
        · exact absurd List.mem_cons_self (hnone s.1)
    · have hne : ∀ y, (y, a) ≠ s := fun y hy => ha (congrArg Prod.snd hy)
      simp only [Table.find?_insert_of_ne names s.1 ha, List.mem_cons, hne, false_or]

/-! ## Symbols -/

variable {tokens again : List Token} {symbols : List (String × Nat)} {words : List Int}
  {names : Names}

/-- A symbol comes from a label directly before an instruction. -/
theorem IsSymbolList.exists_heads (h : IsSymbolList tokens symbols) {x : String} {n : Nat}
    (hx : (x, n) ∈ symbols) : ∃ label, Heads tokens label n ∧ label.value = x :=
  ((h.2 x n).mp hx).1

/-- Only one label stands directly before an instruction. -/
theorem IsSymbolList.eq_of_address_eq (h : IsSymbolList tokens symbols) {x y : String}
    {n : Nat} (hx : (x, n) ∈ symbols) (hy : (y, n) ∈ symbols) : x = y := by
  obtain ⟨label, hlabel, rfl⟩ := h.exists_heads hx
  obtain ⟨other, hother, rfl⟩ := h.exists_heads hy
  rw [hlabel.unique hother]

/-- A symbol has the address of an instruction. -/
theorem IsSymbolList.lt_length (h : IsSymbolList tokens symbols) {x : String} {n : Nat}
    (hx : (x, n) ∈ symbols) : n < (instructionsOf tokens).length := by
  obtain ⟨label, hlabel, -⟩ := h.exists_heads hx
  exact hlabel.lt_length

/-- The symbols of a source text are names in lower case. -/
theorem IsSymbolList.isName (h : IsSymbolList tokens symbols) (hreadable : Readable tokens)
    {x : String} {n : Nat} (hx : (x, n) ∈ symbols) : IsName x ∧ foldedName x = x := by
  obtain ⟨label, ⟨before, i, after, rfl, -⟩, rfl⟩ := h.exists_heads hx
  exact ⟨hreadable.isName label (by simp), hreadable.folded label (by simp)⟩

/-- The known names are the symbols of a program. -/
def Names.Lists (names : Names) (symbols : List (String × Nat)) : Prop :=
  ∀ a x, names.find? a = some x ↔ ∃ n : Nat, a = n ∧ (x, n) ∈ symbols

/-- The symbols of a program are added as its names, in whatever order they are listed. -/
theorem Names.lists_addSymbols (h : IsSymbolList tokens symbols)
    {listed : List (String × Nat)} (hlisted : listed.Perm symbols) :
    Names.Lists (Names.addSymbols .empty (listed.map fun s => (s.1, (s.2 : Int)))) symbols := by
  have hmem : ∀ {x : String} {a : Int}, (x, a) ∈ listed.map (fun s => (s.1, (s.2 : Int))) ↔
      ∃ n : Nat, a = n ∧ (x, n) ∈ symbols := by
    intro x a
    simp only [List.mem_map, hlisted.mem_iff, Prod.exists, Prod.mk.injEq]
    grind
  intro a x
  rw [find?_addSymbols, hmem]
  · simp
  · intro x y a hx hy
    obtain ⟨m, hm, hxm⟩ := hmem.mp hx
    obtain ⟨n, hn, hyn⟩ := hmem.mp hy
    obtain rfl : m = n := by omega
    exact h.eq_of_address_eq hxm hyn

/-- The symbols of a source text are proper names. -/
theorem Names.Lists.proper (hnames : names.Lists symbols) (h : IsSymbolList tokens symbols)
    (hreadable : Readable tokens) : names.Proper := by
  intro a x hx
  obtain ⟨n, -, hx⟩ := (hnames a x).mp hx
  exact (h.isName hreadable hx).1

/-- The name of a mailbox with a symbol. -/
theorem Names.Lists.labelFor_eq (hnames : names.Lists symbols) {x : String} {n : Nat}
    (hx : (x, n) ∈ symbols) : names.labelFor n = x := by
  rw [labelFor, (hnames n x).mpr ⟨n, rfl, hx⟩]
  rfl

/-! ## Words of a program -/

/-- The branch that a word is read back as names a symbol. -/
theorem ReadsBack.exists_branch {i : Located Instruction} {word : Int}
    (h : ReadsBack tokens i word) {op : BranchOp} {target : Address}
    (hword : Order.ofWord? word = some (.branch op target)) :
    ∃ x, i.value = .branch op x ∧ Binds tokens x target.val := by
  obtain ⟨address, order, haddresses, hread, hopcode, haddress⟩ := h
  obtain rfl := Option.some.inj (hword.symm.trans hread)
  generalize i.value = value at haddresses hopcode
  cases haddresses with
  | plain op remark => contradiction
  | access op h => contradiction
  | branch op' hbinds h =>
    cases hopcode
    cases haddress
    exact ⟨_, rfl, hbinds⟩

/-- A word of a program shows an instruction, and a branch shows a symbol. -/
theorem ReadsBack.exists_restates {i : Located Instruction} {word : Int}
    (h : ReadsBack tokens i word) (hi : i ∈ instructionsOf tokens)
    (hsymbols : IsSymbolList tokens symbols) (hreadable : Readable tokens)
    (hnames : names.Lists symbols) : ∃ i', Restates (.ofWord names word) i' := by
  obtain ⟨-, order, -, hread, -, -⟩ := id h
  rw [Content.ofWord, hread]
  cases order with
  | plain op => exact ⟨_, .plain op⟩
  | access op a => exact ⟨_, .access op a⟩
  | branch op target =>
    obtain ⟨x, hx, hbinds⟩ := h.exists_branch hread
    have hmem : (x, target.val) ∈ symbols := (hsymbols.2 x _).mpr hbinds
    simp only [hnames.labelFor_eq hmem]
    exact ⟨_, .branch op target (hsymbols.isName hreadable hmem).1
      (hreadable.no_comma i op x (mem_instructionsOf_iff.mp hi) hx)⟩

/-- An instruction that restates a word is encoded as this word, if the name that a branch
shows stands on its target. -/
theorem Restates.encodes {i : Located Instruction} {word : Int}
    (h : Restates (.ofWord names word) i.value)
    (hbinds : ∀ op target, Order.ofWord? word = some (.branch op target) →
      Binds tokens (names.labelFor target.val) target.val) : Encodes tokens i word := by
  generalize hvalue : i.value = value at h
  unfold Content.ofWord at h
  unfold Encodes
  rw [hvalue]
  cases hword : Order.ofWord? word with
  | none =>
    rw [hword] at h
    cases h
  | some order =>
    rw [hword] at h
    rw [← Order.word_of_ofWord? hword]
    cases order with
    | plain op =>
      cases h
      exact ⟨0, .plain op none, rfl⟩
    | access op a =>
      cases h
      exact ⟨a.val, .access op (by omega), rfl⟩
    | branch op target =>
      cases h
      exact ⟨target.val, .branch op (hbinds op target hword) (by omega), rfl⟩

/-- The target of a word is the mailbox that a branch word names. -/
theorem target_disassembleWord_eq_some_iff {word address : Int} {target : Address} :
    (disassembleWord names word address).target = some target ↔
      ∃ op, Order.ofWord? word = some (.branch op target) := by
  unfold disassembleWord Disassembled.target Content.ofWord
  cases Order.ofWord? word with
  | none => simp
  | some order => cases order <;> simp

/-- The targets of a program are the mailboxes that its branch words name. -/
theorem mem_branchTargets_iff {start a : Int} :
    a ∈ branchTargets (disassembleFrom names start words) ↔
      ∃ word ∈ words, ∃ op target, Order.ofWord? word = some (.branch op target) ∧
        a = target.val := by
  simp only [branchTargets, List.mem_map, List.mem_eraseDups, List.mem_filterMap,
    mem_disassembleFrom_iff]
  constructor
  · rintro ⟨target, ⟨d, ⟨n, word, hword, rfl⟩, htarget⟩, rfl⟩
    obtain ⟨op, hread⟩ := target_disassembleWord_eq_some_iff.mp htarget
    exact ⟨word, List.mem_of_getElem? hword, op, target, hread, rfl⟩
  · rintro ⟨word, hword, op, target, hread, rfl⟩
    obtain ⟨n, hn⟩ := List.mem_iff_getElem?.mp hword
    exact ⟨target, ⟨_, ⟨n, word, hn, rfl⟩,
      target_disassembleWord_eq_some_iff.mpr ⟨op, hread⟩⟩, rfl⟩

/-- Every element of the second list is related to one of the first list. -/
theorem exists_mem_of_forall₂ {α β : Type} {R : α → β → Prop} {first : List α}
    {second : List β} (h : List.Forall₂ R first second) {b : β} (hb : b ∈ second) :
    ∃ a ∈ first, R a b := by
  induction h with
  | nil => exact absurd hb List.not_mem_nil
  | cons hab _ ih =>
    rcases List.mem_cons.mp hb with rfl | hb
    · exact ⟨_, List.mem_cons_self, hab⟩
    · obtain ⟨a, ha, hrel⟩ := ih hb
      exact ⟨a, List.mem_cons_of_mem _ ha, hrel⟩

/-- Every branch of a program leads to a mailbox with a symbol. -/
theorem exists_symbol_of_branch (hsymbols : IsSymbolList tokens symbols)
    (hwords : List.Forall₂ (ReadsBack tokens) (instructionsOf tokens) words) {word : Int}
    (hword : word ∈ words) {op : BranchOp} {target : Address}
    (hread : Order.ofWord? word = some (.branch op target)) :
    ∃ x, (x, target.val) ∈ symbols := by
  obtain ⟨i, -, hback⟩ := exists_mem_of_forall₂ hwords hword
  obtain ⟨x, -, hbinds⟩ := hback.exists_branch hread
  exact ⟨x, (hsymbols.2 x _).mpr hbinds⟩

/-- Label lines are shown for mailboxes with symbols only. -/
theorem exists_symbol_of_isLabelled (hsymbols : IsSymbolList tokens symbols)
    (hnames : names.Lists symbols)
    (hwords : List.Forall₂ (ReadsBack tokens) (instructionsOf tokens) words) {n : Nat}
    (h : isLabelled names (branchTargets (disassembleFrom names 0 words)) n = true) :
    ∃ x, (x, n) ∈ symbols := by
  rcases Bool.or_eq_true _ _ ▸ h with htarget | hknown
  · rw [List.contains_iff_mem, mem_branchTargets_iff] at htarget
    obtain ⟨word, hword, op, target, hread, hn⟩ := htarget
    obtain rfl : n = target.val := by omega
    exact exists_symbol_of_branch hsymbols hwords hword hread
  · obtain ⟨x, hx⟩ := Option.isSome_iff_exists.mp hknown
    obtain ⟨m, hm, hmem⟩ := (hnames n x).mp hx
    obtain rfl : n = m := by omega
    exact ⟨x, hmem⟩

/-- In tokens that restate a program with its symbols, the labels stand where the symbols
say. -/
theorem standsOn_iff_symbol (hsymbols : IsSymbolList tokens symbols)
    (hreadable : Readable tokens) (hnames : names.Lists symbols)
    (hwords : List.Forall₂ (ReadsBack tokens) (instructionsOf tokens) words)
    (hslots : List.Forall₂
      (Restated names (branchTargets (disassembleFrom names 0 words)))
      (disassembleFrom names 0 words) (Slot.ofTokens again)) (x : String) (n : Nat) :
    StandsOn again x n ↔ (x, n) ∈ symbols := by
  rw [standsOn_iff_of_restated hslots]
  constructor
  · rintro ⟨-, hn, hx⟩
    obtain ⟨y, hy⟩ := exists_symbol_of_isLabelled hsymbols hnames hwords hn
    rw [hnames.labelFor_eq hy, (hsymbols.isName hreadable hy).2] at hx
    rwa [← hx]
  · intro hx
    refine ⟨?_, ?_, ?_⟩
    · rw [← hwords.length_eq]
      exact hsymbols.lt_length hx
    · simp [isLabelled, (hnames n x).mpr ⟨n, rfl, hx⟩]
    · rw [hnames.labelFor_eq hx, (hsymbols.isName hreadable hx).2]

/-- Tokens that restate a program with its symbols have these symbols, no duplicates among
them, and the words of the program. -/
theorem distinctLabels_and_generates_of_restated (hsymbols : IsSymbolList tokens symbols)
    (hreadable : Readable tokens) (hnames : names.Lists symbols)
    (hwords : List.Forall₂ (ReadsBack tokens) (instructionsOf tokens) words)
    (hslots : List.Forall₂
      (Restated names (branchTargets (disassembleFrom names 0 words)))
      (disassembleFrom names 0 words) (Slot.ofTokens again)) (strict : Bool) :
    DistinctLabels again ∧ Generates strict again (.ok words) symbols := by
  have hstands := standsOn_iff_symbol hsymbols hreadable hnames hwords hslots
  have hdistinct : DistinctLabels again := by
    intro x m n hm hn
    rw [hstands] at hm hn
    exact Binds.unique ((hsymbols.2 x m).mp hm) ((hsymbols.2 x n).mp hn)
  have hbinds : ∀ x n, (x, n) ∈ symbols ↔ Binds again x n := by
    intro x n
    rw [← hstands, hdistinct.binds_iff]
  have hencodes : List.Forall₂ (Encodes again) (instructionsOf again) words := by
    have hbranch : ∀ word ∈ words, ∀ op target,
        Order.ofWord? word = some (.branch op target) → ∃ x, (x, target.val) ∈ symbols :=
      fun _ hword _ _ hread => exists_symbol_of_branch hsymbols hwords hword hread
    have hshown := (List.forall₂_and_left _ _).mpr
      ⟨hbranch, (restates_instructionsOf hslots).flip⟩
    refine hshown.flip.imp fun i word hword => hword.2.encodes fun op target hread => ?_
    obtain ⟨x, hx⟩ := hword.1 op target hread
    rw [hnames.labelFor_eq hx]
    exact (hbinds x _).mp hx
  exact ⟨hdistinct, .words (fun _ => hdistinct) ⟨hsymbols.1, hbinds⟩ hencodes⟩

/-! ## The second assembly -/

namespace Assembler

/-- A text that is assembled is read to its end, and its tokens are readable. -/
theorem exists_reading_of_assemble {a : Assembler} {file source : String}
    (h : (a.assemble file source).2.outcome = .ok words) :
    ∃ tokens, Reading.ofSource file 1 source = ⟨tokens, none⟩ ∧ Readable tokens := by
  refine ⟨(Reading.ofSource file 1 source).tokens, ?_, Reading.readable_ofSource file 1 source⟩
  cases hrefusal : (Reading.ofSource file 1 source).refusal with
  | none => rw [← hrefusal]
  | some e =>
    simp only [assemble, Reading.toExcept, hrefusal] at h
    contradiction

/-- A program that is assembled, disassembled with its symbols and assembled again has the
same words and the same symbols, even with strict labels, and gives no warnings.  The
symbols may be added in any order. -/
theorem assemble_disassembled {a : Assembler} {file source : String} {words : List Int}
    (h : (a.assemble file source).2.outcome = .ok words) {listed : List (String × Nat)}
    (hlisted : listed.Perm (a.assemble file source).1.build.symbols.indices)
    (strict : Bool) (again : String) :
    let names := Names.addSymbols .empty (listed.map fun s => (s.1, (s.2 : Int)))
    let second := (Assembler.new strict).assemble again
      (sourceForm (disassemblyText names words 0 none))
    second.2.outcome = .ok words ∧
      second.1.build.symbols.indices = (a.assemble file source).1.build.symbols.indices ∧
      warnings second.2.notices = [] := by
  intro names second
  obtain ⟨tokens, hread, hreadable⟩ := exists_reading_of_assemble h
  rw [assemble_of_reading a hread] at h hlisted ⊢
  have hsymbols : IsSymbolList tokens (a.generate tokens).1.build.symbols.indices := by
    have hgenerates := generates_generate a tokens
    rw [show (a.generate tokens).2.outcome = .ok words from h] at hgenerates
    cases hgenerates with
    | words _ hsymbols _ => exact hsymbols
  have hwords := readsBack_of_generate h
  have hnames : names.Lists (a.generate tokens).1.build.symbols.indices :=
    Names.lists_addSymbols hsymbols hlisted
  have hshown : ∀ word ∈ words, ∃ i, Restates (.ofWord names word) i := by
    intro word hword
    obtain ⟨i, hi, hback⟩ := exists_mem_of_forall₂ hwords hword
    exact hback.exists_restates hi hsymbols hreadable hnames
  obtain ⟨restated, hreread, hslots⟩ :=
    exists_tokens_restated (hnames.proper hsymbols hreadable) hshown 0 again 1
  obtain ⟨hdistinct, hgenerates⟩ :=
    distinctLabels_and_generates_of_restated hsymbols hreadable hnames hwords hslots strict
  have hsecond : second = _ := assemble_of_reading (new strict) hreread
  have hgenerate := generate_of_generates (a := new strict) hgenerates
  rw [hsecond]
  exact ⟨hgenerate.1, hgenerate.2, warnings_generate_of_distinct (new strict) hdistinct⟩

/-- A text with a label on two instructions, labels before labels and at the end, a comma and
a period in names, and a capital sigma in two forms. -/
def manyLabels : String :=
  ".ΟΣ\nread\n.end\n.a,b\nsub 7\n.Σ.x\nbz ος\n.ΟΣ\nb ος\n.end"

/-- The second assembly of this text, with strict labels. -/
theorem assemble_disassembled_manyLabels :
    ((new false).assemble "labels" manyLabels).2.outcome = .ok [901, 207, 703, 603] ∧
      [("ος", 3), ("a,b", 1), ("σ.x", 2)].Perm
        ((new false).assemble "labels" manyLabels).1.build.symbols.indices ∧
      let names := Names.addSymbols .empty
        ([("ος", 3), ("a,b", 1), ("σ.x", 2)].map fun s => (s.1, ((s.2 : Nat) : Int)))
      let second := (new true).assemble "again"
        (sourceForm (disassemblyText names [901, 207, 703, 603] 0 none))
      second.2.outcome = .ok [901, 207, 703, 603] ∧
        second.1.build.symbols.indices =
          ((new false).assemble "labels" manyLabels).1.build.symbols.indices ∧
        warnings second.2.notices = [] := by
  have hfirst : ((new false).assemble "labels" manyLabels).2.outcome =
      .ok [901, 207, 703, 603] := by decide +kernel
  have hlisted : [("ος", 3), ("a,b", 1), ("σ.x", 2)].Perm
      ((new false).assemble "labels" manyLabels).1.build.symbols.indices := by
    decide +kernel
  exact ⟨hfirst, hlisted, assemble_disassembled hfirst hlisted true "again"⟩

end Assembler

end Mailroom
