import Mailroom.Proofs.Labels
import Mailroom.Proofs.Statements
import Mathlib.Data.List.Forall2

/-!
# Reading a disassembly

What the source form of a disassembly is read as: every statement as the instruction that
its word stands for, and every label line as the name of the mailbox in lower case.

Main definitions:

- `Restates` gives the instruction that the content of a word is read as.
- `Restated` says this of a slot and its label.

Main results:

- Theorem `SourceLine.token?_statement`: the statement of a word is read as its instruction.
- Theorem `exists_tokens_restated`: the source form of a disassembly is read to its end,
  and its slots restate the words.
-/

namespace Mailroom

open Text

/-! ## Single lines -/

/-- The instruction that the content of a word is read as. -/
inductive Restates : Content → Instruction → Prop
  | plain (op : PlainOp) : Restates (.plain op) (.plain op none)
  | access (op : MailboxOp) (a : Address) : Restates (.access op a) (.access op a.val)
  | branch (op : BranchOp) (target : Address) {label : String} (hname : IsName label)
      (hcomma : ',' ∉ label.toList) : Restates (.branch op target label) (.branch op label)

/-- The statement of a word says the instruction that the word stands for. -/
theorem Restates.statement {d : Disassembled} {i : Instruction} (h : Restates d.content i) :
    d.statement = i.text ∧ i.Sayable := by
  generalize hcontent : d.content = content at h
  have happlied : ∀ {op : Opcode} {operand : String}, operand.toList ≠ [] →
      d.mnemonic = op.mnemonic → d.operand = operand →
      d.statement = op.mnemonic ++ " " ++ operand := by
    rintro op operand hne hmnemonic rfl
    rw [Disassembled.statement, if_neg (fun h => hne (by rw [h]; rfl)), hmnemonic]
  cases h with
  | plain op =>
    refine ⟨?_, .plain op⟩
    simp only [Disassembled.statement, Disassembled.operand, Disassembled.mnemonic, hcontent]
    rfl
  | access op a =>
    refine ⟨happlied (decimal_ne_nil _) ?_ ?_, .access op (a.isLt.le.trans (by decide))⟩
    · rw [Disassembled.mnemonic, hcontent]
      rfl
    · rw [Disassembled.operand, hcontent]
  | @branch op target label hname hcomma =>
    have hcode : ';' ∉ label.toList := fun hmem => (hname.field _ hmem).2 rfl
    refine ⟨happlied hname.ne_nil ?_ ?_,
      .branch op (hname.isOperand hcomma) hcode hname.inline.not_mem.1⟩
    · rw [Disassembled.mnemonic, hcontent]
      rfl
    · rw [Disassembled.operand, hcontent]

/-- The statement of a word is read as the instruction that the word stands for. -/
theorem SourceLine.token?_statement {l : SourceLine} {d : Disassembled} {i : Instruction}
    (h : Restates d.content i) (hl : l.chars = d.statement.toList) :
    l.token? = .ok (some (.instruction (l.locate i))) := by
  obtain ⟨htext, hsayable⟩ := h.statement
  exact token?_instructionLine hsayable (htext ▸ hl)

/-- A text whose only blanks are spaces is its own line. -/
theorem Inline.isLine {cs : List Char} (h : Inline cs) : IsLine cs cs := by
  refine ⟨⟨[], List.forall_mem_nil _, (List.append_nil cs).symm⟩, ?_⟩
  rintro c hc rfl
  exact h.not_mem.2 (List.mem_of_getLast? hc)

/-! ## Texts -/

/-- A slot restates a word: it holds the instruction that the word is read as, and the
name from its label line. -/
structure Restated (names : Names) (targets : List Int) (d : Disassembled) (slot : Slot) :
    Prop where
  instruction : Restates d.content slot.instruction.value
  label : slot.label.map (·.value) =
    if isLabelled names targets d.address then some (foldedName (names.labelFor d.address))
    else none

variable {names : Names}

/-- The source lines of words are read to their end, and the slots restate the words. -/
theorem exists_tokens_of_sourceLines (hnames : names.Proper) (targets : List Int)
    (file : String) {shown : List Disassembled}
    (hshown : ∀ d ∈ shown, Inline d.statement.toList ∧ ∃ i, Restates d.content i)
    (number : Int) :
    ∃ tokens, Reading.ofLines (linesFrom file number
        ((shown.flatMap (sourceLines names targets)).map String.toList)) = ⟨tokens, none⟩ ∧
      List.Forall₂ (Restated names targets) shown (Slot.ofTokens tokens) := by
  induction shown generalizing number with
  | nil => exact ⟨[], rfl, .nil⟩
  | cons d rest ih =>
    obtain ⟨hstatement, i, hi⟩ := hshown d List.mem_cons_self
    have hrest := fun e he => hshown e (List.mem_cons_of_mem _ he)
    rw [List.flatMap_cons, List.map_append, sourceLines]
    by_cases hlabelled : isLabelled names targets d.address = true
    · obtain ⟨tokens, hread, hslots⟩ := ih hrest (number + 1 + 1)
      let first : SourceLine := ⟨file, number, ("." ++ names.labelFor d.address).toList⟩
      let second : SourceLine := ⟨file, number + 1, d.statement.toList⟩
      have hfirst := first.token?_labelLine (hnames.isName_labelFor d.address) rfl
      have hsecond := second.token?_statement hi rfl
      refine ⟨.label (first.locate (foldedName (names.labelFor d.address))) ::
        .instruction (second.locate i) :: tokens, ?_, .cons ⟨hi, ?_⟩ hslots⟩
      · rw [if_pos hlabelled, List.map_cons, List.map_cons, List.map_nil, List.cons_append,
          List.cons_append, List.nil_append,
          linesFrom_cons_of_isLine file number (inline_labelLine hnames d.address).isLine,
          linesFrom_cons_of_isLine file (number + 1) hstatement.isLine]
        simp only [Reading.ofLines, first, second, hfirst, hsecond, hread]
      · rw [if_pos hlabelled]
        rfl
    · obtain ⟨tokens, hread, hslots⟩ := ih hrest (number + 1)
      let line : SourceLine := ⟨file, number, d.statement.toList⟩
      have hline := line.token?_statement hi rfl
      refine ⟨.instruction (line.locate i) :: tokens, ?_, .cons ⟨hi, ?_⟩ hslots⟩
      · rw [if_neg hlabelled, List.map_cons, List.map_nil, List.cons_append, List.nil_append,
          linesFrom_cons_of_isLine file number hstatement.isLine]
        simp only [Reading.ofLines, line, hline, hread]
      · rw [if_neg hlabelled]
        rfl

/-- The source form of a disassembly is read to its end, and its slots restate the words,
when every word can be read as an instruction. -/
theorem exists_tokens_restated (hnames : names.Proper) {words : List Int}
    (hwords : ∀ word ∈ words, ∃ i, Restates (.ofWord names word) i) (start : Int)
    (file : String) (first : Int) :
    ∃ tokens, Reading.ofSource file first
        (sourceForm (disassemblyText names words start none)) = ⟨tokens, none⟩ ∧
      List.Forall₂ (Restated names (branchTargets (disassembleFrom names start words)))
        (disassembleFrom names start words) (Slot.ofTokens tokens) := by
  have hshown : ∀ d ∈ disassembleFrom names start words,
      Inline d.statement.toList ∧ ∃ i, Restates d.content i := by
    intro d hd
    obtain ⟨n, word, hword, rfl⟩ := mem_disassembleFrom_iff.mp hd
    exact ⟨inline_statement hnames rfl, hwords word (List.mem_of_getElem? hword)⟩
  have hlines : ∀ line ∈ (disassemble names words start none).flatMap
      (sourceLines names (branchTargets (disassemble names words start none))),
      '\n' ∉ line.toList := by
    intro line hline
    obtain ⟨d, hd, hline⟩ := List.mem_flatMap.mp hline
    exact (inline_lines hnames (content_of_mem_disassemble hd) (.inr hline)).not_mem.1
  rw [sourceForm_disassemblyText hnames, Reading.ofSource_intercalate hlines]
  exact exists_tokens_of_sourceLines hnames _ file hshown first

/-! ## Restated words -/

variable {targets : List Int} {words : List Int} {tokens : List Token}

/-- Slots that restate words hold the instructions that these words are read as. -/
theorem restates_of_restated {address : Int} {slots : List Slot}
    (h : List.Forall₂ (Restated names targets) (disassembleFrom names address words) slots) :
    List.Forall₂ (fun i word => Restates (.ofWord names word) i.value)
      (slots.map (·.instruction)) words := by
  induction words generalizing address slots with
  | nil =>
    cases h
    exact .nil
  | cons word rest ih =>
    cases h with
    | cons hfirst hrest => exact .cons hfirst.instruction (ih hrest)

/-- Slots that restate words carry the names from their label lines. -/
theorem labelAt_of_restated {address : Int} {slots : List Slot}
    (h : List.Forall₂ (Restated names targets) (disassembleFrom names address words) slots)
    (n : Nat) :
    (Slot.labelAt slots n).map (·.value) =
      if n < words.length ∧ isLabelled names targets (address + n) = true then
        some (foldedName (names.labelFor (address + n)))
      else none := by
  induction words generalizing address slots n with
  | nil =>
    cases h
    simp
  | cons word rest ih =>
    cases h with
    | cons hfirst hrest =>
      cases n with
      | zero =>
        rw [Slot.labelAt_cons_zero, hfirst.label]
        by_cases hlabelled : isLabelled names targets address = true <;>
          simp [disassembleWord, hlabelled]
      | succ n =>
        have haddress : address + ((n + 1 : Nat) : Int) = address + 1 + n := by omega
        rw [Slot.labelAt_cons_succ, ih hrest, haddress]
        simp

/-- The instructions of tokens that restate words are those that the words are read as. -/
theorem restates_instructionsOf {address : Int}
    (h : List.Forall₂ (Restated names targets) (disassembleFrom names address words)
      (Slot.ofTokens tokens)) :
    List.Forall₂ (fun i word => Restates (.ofWord names word) i.value)
      (instructionsOf tokens) words := by
  rw [← Slot.map_instruction_ofTokens]
  exact restates_of_restated h

/-- In tokens that restate words the names of the labelled mailboxes stand on their
instructions. -/
theorem standsOn_iff_of_restated
    (h : List.Forall₂ (Restated names targets) (disassembleFrom names 0 words)
      (Slot.ofTokens tokens)) {x : String} {n : Nat} :
    StandsOn tokens x n ↔
      n < words.length ∧ isLabelled names targets n = true ∧
        foldedName (names.labelFor n) = x := by
  have hlabel := labelAt_of_restated h n
  rw [Int.zero_add] at hlabel
  calc
    StandsOn tokens x n ↔
        (Slot.labelAt (Slot.ofTokens tokens) n).map (·.value) = some x := by
      simp [StandsOn, Slot.labelAt_ofTokens_iff]
    _ ↔ _ := by simp [hlabel, and_assoc]

end Mailroom
