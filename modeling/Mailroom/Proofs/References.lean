import Mailroom.Proofs.Continuation
import Mailroom.Proofs.Reassembly
import Mailroom.Proofs.SameLabels

/-!
# References to labels

A label is written as the first field of a line and a branch target as an operand.  An operand
ends at a comma and a field does not, so a label can be named by a branch when there is no comma
in it.

Main results:

- Theorem `Reading.ofSource_branchLine_iff`: the line of a branch to a name is read as this
  branch when there is no comma in the name.
- Theorem `Reading.ofSource_append_feed`: a text is read up to its end before the text after it.
- Theorem `sameLabels_append_instruction`: one more instruction leaves the labels where they are.
- Theorems `Assembler.outcome_append_branch` and `Assembler.no_comma_of_outcome_append`: what is
  assembled after a program when there is no comma in a label, and only then.
- Theorem `Assembler.assemble_append_branch`: a branch to a label is assembled after a program
  when there is no comma in the label.
-/

namespace Mailroom

open Text

/-! ## The line of a branch -/

/-- A text within a line is read as one line. -/
theorem Reading.ofSource_of_inline {line : String} (h : Inline line.toList) (file : String)
    (number : Int) :
    ofSource file number line = ofLines [⟨file, number, line.toList⟩] := by
  rw [ofSource, linesOf_eq_linesFrom, List.splitOn_eq_singleton h.not_mem.1,
    linesFrom_cons_of_isLine file number h.isLine, linesFrom]

/-- The line of a branch to a name stands within a line. -/
theorem inline_branchLine {x : String} (hx : IsName x) : Inline ("b " ++ x).toList := by
  rw [String.toList_append]
  refine Inline.append (fun c hc => ?_) hx.inline
  rcases (by simpa using hc : c = 'b' ∨ c = ' ') with rfl | rfl
  · exact .inr (by decide)
  · exact .inl rfl

/-- The line of a branch to a name is read as some instruction, or it is refused. -/
theorem SourceLine.token?_branchLine {l : SourceLine} {x : String} (hx : IsName x)
    (hl : l.chars = ("b " ++ x).toList) :
    (∃ i, l.token? = .ok (some (.instruction i))) ∨ ∃ e, l.token? = .error e := by
  have hcode : ';' ∉ ' ' :: x.toList := by
    rw [List.mem_cons, not_or]
    exact ⟨by decide, fun hmem => (hx.field _ hmem).2 rfl⟩
  have hspells : Spells ['b'] (.branch .always) := by decide
  have hlayout : Layout l.chars [] ['b'] (' ' :: x.toList) [] := by
    refine ⟨by simp [hl], List.forall_mem_nil _, hspells.field.1, hspells.field.2, ?_, hcode,
      by simp [Comment]⟩
    rintro c ⟨⟩
    decide
  rw [token?_of_spells hlayout hspells]
  cases l.instruction (.branch .always) (operandsOf (' ' :: x.toList)) with
  | error e => exact .inr ⟨e, rfl⟩
  | ok i => exact .inl ⟨l.locate i, rfl⟩

/-- A branch to a name is read from its line as some instruction, or the line is refused. -/
theorem Reading.ofSource_branchLine {x : String} (hx : IsName x) (file : String)
    (number : Int) :
    (∃ i, ofSource file number ("b " ++ x) = ⟨[.instruction i], none⟩) ∨
      ∃ e, ofSource file number ("b " ++ x) = ⟨[], some e⟩ := by
  rw [ofSource_of_inline (inline_branchLine hx), ofLines]
  rcases SourceLine.token?_branchLine (l := ⟨file, number, ("b " ++ x).toList⟩) hx rfl with
    ⟨i, hline⟩ | ⟨e, hline⟩
  · rw [hline]
    exact .inl ⟨i, rfl⟩
  · rw [hline]
    exact .inr ⟨e, rfl⟩

/-- The line of a branch is read as the branch exactly when there is no comma in its target. -/
theorem Reading.ofSource_branchLine_iff {x : String} (hx : IsName x) (file : String)
    (number : Int) :
    ofSource file number ("b " ++ x) =
        ⟨[.instruction ⟨.branch .always x, ⟨file, number, 1⟩, "b " ++ x⟩], none⟩ ↔
      ',' ∉ x.toList := by
  constructor
  · intro hread
    have hmem : Token.instruction ⟨.branch .always x, ⟨file, number, 1⟩, "b " ++ x⟩ ∈
        (ofSource file number ("b " ++ x)).tokens := by
      rw [hread]
      exact List.mem_singleton_self _
    exact (readable_ofSource file number _).no_comma _ _ _ hmem rfl
  · intro hcomma
    have hcode : ';' ∉ x.toList := fun hmem => (hx.field _ hmem).2 rfl
    have hsayable : Statement.Sayable (.instruction (.branch .always x)) :=
      .instruction (.branch .always (hx.isOperand hcomma) hcode hx.inline.not_mem.1)
    have htext : "b " ++ x = (Statement.instruction (.branch .always x)).text :=
      String.toList_inj.mp (by simp [Statement.text, Instruction.text, Instruction.operandText,
        Instruction.opcode, Opcode.mnemonic, BranchOp.mnemonic])
    have hline := SourceLine.token?_statementLine (l := ⟨file, number, ("b " ++ x).toList⟩)
      hsayable (congrArg String.toList htext)
    rw [ofSource_of_inline (inline_branchLine hx), ofLines, hline, htext]
    rfl

/-! ## Texts one after the other -/

/-- A text that is read to its end is read before what follows it on the next line. -/
theorem Reading.ofSource_append_feed {file source : String} {first : Int} {tokens : List Token}
    (h : ofSource file first source = ⟨tokens, none⟩) (more : String) :
    ∃ number, ofSource file first (source ++ "\n" ++ more) =
      ⟨tokens ++ (ofSource file number more).tokens, (ofSource file number more).refusal⟩ := by
  refine ⟨lineAfter first source, ?_⟩
  rw [ofSource_append, h, followedBy]

/-! ## One more instruction -/

variable {tokens : List Token} {symbols : List (String × Nat)} {words : List Int}

/-- An instruction after tokens that do not end in a label has no label. -/
theorem heads_append_instruction_iff {last i : Located Instruction}
    (hlast : tokens.getLast? = some (.instruction last)) {label : Located String} {n : Nat} :
    Heads (tokens ++ [.instruction i]) label n ↔ Heads tokens label n := by
  constructor
  · rintro ⟨before, j, after, htokens, hn⟩
    rcases List.eq_nil_or_concat after with rfl | ⟨rest, t, rfl⟩
    · -- the label would be the last of the tokens
      rw [List.append_cons before] at htokens
      obtain ⟨rfl, -⟩ := List.append_inj' htokens rfl
      simp at hlast
    · rw [List.concat_eq_append, ← List.cons_append, ← List.cons_append,
        ← List.append_assoc] at htokens
      exact ⟨before, j, rest, (List.append_inj' htokens rfl).1, hn⟩
  · rintro ⟨before, j, after, rfl, hn⟩
    exact ⟨before, j, after ++ [.instruction i], by simp, hn⟩

/-- One more instruction leaves the labels where they are. -/
theorem sameLabels_append_instruction {last : Located Instruction}
    (hlast : tokens.getLast? = some (.instruction last)) (i : Located Instruction) :
    SameLabels tokens (tokens ++ [.instruction i]) := by
  intro x n
  simp only [StandsOn, heads_append_instruction_iff hlast]

/-- A branch to a symbol is encoded after the words of its program. -/
theorem Generates.append_branch {strict : Bool} (h : Generates strict tokens (.ok words) symbols)
    {last : Located Instruction} (hlast : tokens.getLast? = some (.instruction last))
    {x : String} {n : Nat} (hx : (x, n) ∈ symbols) (hn : n ≤ 99) {i : Located Instruction}
    (hi : i.value = .branch .always x) :
    Generates strict (tokens ++ [.instruction i]) (.ok (words ++ [600 + (n : Int)])) symbols := by
  cases h with
  | words hstrict hsymbols hwords =>
    have hsame := sameLabels_append_instruction hlast i
    have hbranch : Encodes (tokens ++ [.instruction i]) i (600 + n) := by
      rw [Encodes, hi]
      exact ⟨n, .branch .always (hsame.binds_iff.mp ((hsymbols.2 x n).mp hx)) hn, rfl⟩
    have hbefore := hsame.forall₂_encodes rfl hwords
    refine .words (fun hs => hsame.distinctLabels (hstrict hs)) (hsame.isSymbolList hsymbols) ?_
    rw [instructionsOf, List.filterMap_append]
    exact List.rel_append hbefore (.cons hbranch .nil)

namespace Assembler

variable {a : Assembler} {file source x : String} {n : Nat} {last : Located Instruction}

/-- A text that is assembled is read to its end, and its tokens call for its words and
symbols. -/
theorem exists_generates_of_assemble (h : (a.assemble file source).2.outcome = .ok words) :
    ∃ tokens, Reading.ofSource file 1 source = ⟨tokens, none⟩ ∧
      Generates a.strict tokens (.ok words) (a.assemble file source).1.build.symbols.indices := by
  obtain ⟨tokens, hread, -⟩ := exists_reading_of_assemble h
  refine ⟨tokens, hread, ?_⟩
  rw [outcome_of_reading a hread] at h
  rw [left_of_reading a hread, ← h]
  exact generates_generate a tokens

/-- A program with a branch to a symbol has no comma in the name of the symbol. -/
theorem no_comma_of_branch_mem (hreadable : Readable tokens)
    (hsymbols : IsSymbolList tokens symbols)
    (hwords : List.Forall₂ (ReadsBack tokens) (instructionsOf tokens) words) {op : BranchOp}
    {target : Address} (hmem : (Order.branch op target).word ∈ words)
    (hx : (x, target.val) ∈ symbols) : ',' ∉ x.toList := by
  obtain ⟨i, hi, hback⟩ := exists_mem_of_forall₂ hwords hmem
  obtain ⟨y, hy, hbinds⟩ := hback.exists_branch (Order.ofWord?_word _)
  obtain rfl := hsymbols.eq_of_address_eq hx ((hsymbols.2 y _).mpr hbinds)
  exact hreadable.no_comma i op x (mem_instructionsOf_iff.mp hi) hy

/-- With a branch to a symbol after it, a program is assembled to the branch after its words, if
there is no comma in the name of the symbol. -/
theorem outcome_append_branch (hread : Reading.ofSource file 1 source = ⟨tokens, none⟩)
    (hgenerates : Generates a.strict tokens (.ok words) symbols)
    (hlast : tokens.getLast? = some (.instruction last)) (hx : (x, n) ∈ symbols) (hn : n ≤ 99)
    (hname : IsName x) (hcomma : ',' ∉ x.toList) :
    (a.assemble file (source ++ "\n" ++ ("b " ++ x))).2.outcome =
      .ok (words ++ [600 + (n : Int)]) := by
  obtain ⟨number, happend⟩ := Reading.ofSource_append_feed hread ("b " ++ x)
  have hline := (Reading.ofSource_branchLine_iff hname file number).mpr hcomma
  have hreread : Reading.ofSource file 1 (source ++ "\n" ++ ("b " ++ x)) =
      ⟨tokens ++ [.instruction ⟨.branch .always x, ⟨file, number, 1⟩, "b " ++ x⟩], none⟩ := by
    rw [happend, hline]
  rw [outcome_of_reading a hreread]
  exact (generate_of_generates (hgenerates.append_branch hlast hx hn rfl)).1

/-- If a program with a branch to a symbol after it is assembled to such words, there is no comma
in the name of the symbol. -/
theorem no_comma_of_outcome_append (hread : Reading.ofSource file 1 source = ⟨tokens, none⟩)
    (hsymbols : IsSymbolList tokens symbols)
    (hlast : tokens.getLast? = some (.instruction last)) (hx : (x, n) ∈ symbols) (hn : n ≤ 99)
    (hname : IsName x)
    (houtcome : (a.assemble file (source ++ "\n" ++ ("b " ++ x))).2.outcome =
      .ok (words ++ [600 + (n : Int)])) :
    ',' ∉ x.toList := by
  obtain ⟨number, happend⟩ := Reading.ofSource_append_feed hread ("b " ++ x)
  have hreadable := Reading.readable_ofSource file 1 (source ++ "\n" ++ ("b " ++ x))
  rcases Reading.ofSource_branchLine hname file number with ⟨i, hline⟩ | ⟨e, hline⟩
  · have hreread : Reading.ofSource file 1 (source ++ "\n" ++ ("b " ++ x)) =
        ⟨tokens ++ [.instruction i], none⟩ := by rw [happend, hline]
    have hbranch : (Order.branch .always ⟨n, Nat.lt_succ_of_le hn⟩).word ∈
        words ++ [600 + (n : Int)] :=
      List.mem_append_right _ (List.mem_singleton_self _)
    have hsame := sameLabels_append_instruction hlast i
    rw [outcome_of_reading a hreread] at houtcome
    rw [hreread] at hreadable
    exact no_comma_of_branch_mem hreadable (hsame.isSymbolList hsymbols)
      (readsBack_of_generate houtcome) hbranch hx
  · have hrefused : Reading.ofSource file 1 (source ++ "\n" ++ ("b " ++ x)) =
        ⟨tokens, some e⟩ := by rw [happend, hline, List.append_nil]
    rw [assemble_of_refused_line a hrefused] at houtcome
    contradiction

/-- A label can be named by a branch exactly when there is no comma in it.  Then the line of the
branch is read as the branch, and after a program that ends in an instruction it is assembled to
the branch to the instruction of the label. -/
theorem assemble_append_branch (a : Assembler) (file source : String) :
    let tokens := (Reading.ofSource file 1 source).tokens
    (∀ name, Token.label name ∈ tokens → ∀ again number,
      Reading.ofSource again number ("b " ++ name.value) =
          ⟨[.instruction ⟨.branch .always name.value, ⟨again, number, 1⟩, "b " ++ name.value⟩],
            none⟩ ↔
        ',' ∉ name.value.toList) ∧
    ∀ words last x n, (a.assemble file source).2.outcome = .ok words →
      tokens.getLast? = some (.instruction last) →
      (x, n) ∈ (a.assemble file source).1.build.symbols.indices → n ≤ 99 →
      ((a.assemble file (source ++ "\n" ++ ("b " ++ x))).2.outcome =
          .ok (words ++ [600 + (n : Int)]) ↔
        ',' ∉ x.toList) := by
  intro tokens
  have hreadable : Readable tokens := Reading.readable_ofSource file 1 source
  refine ⟨fun name hname again number =>
    Reading.ofSource_branchLine_iff (hreadable.isName name hname) again number, ?_⟩
  intro words last x n hassemble hlast hx hn
  obtain ⟨_, hread, hgenerates⟩ := exists_generates_of_assemble hassemble
  obtain rfl : tokens = _ := congrArg Reading.tokens hread
  clear_value tokens
  have hsymbols := hgenerates.isSymbolList
  have hname := (hsymbols.isName hreadable hx).1
  exact ⟨no_comma_of_outcome_append hread hsymbols hlast hx hn hname,
    outcome_append_branch hread hgenerates hlast hx hn hname⟩

/-- A text whose first and last labels have one name, with a capital sigma in two forms. -/
def twiceLabelled : String :=
  ".ΟΣ\nread\n..b.\nbz ος\n.ΟΣ\nadd +007"

/-- A branch to the name of these labels leads to the last instruction. -/
theorem assemble_append_branch_twiceLabelled :
    Token.label ⟨"ος", ⟨"labels", 1, 1⟩, ".ΟΣ"⟩ ∈
        (Reading.ofSource "labels" 1 twiceLabelled).tokens ∧
      Reading.ofSource "again" 7 "b ος" =
        ⟨[.instruction ⟨.branch .always "ος", ⟨"again", 7, 1⟩, "b ος"⟩], none⟩ ∧
      ((new false).assemble "labels" twiceLabelled).2.outcome = .ok [901, 702, 107] ∧
      (Reading.ofSource "labels" 1 twiceLabelled).tokens.getLast? =
        some (.instruction ⟨.access .add 7, ⟨"labels", 6, 1⟩, "add +007"⟩) ∧
      ("ος", 2) ∈ ((new false).assemble "labels" twiceLabelled).1.build.symbols.indices ∧
      2 ≤ 99 ∧
      ((new false).assemble "labels" (twiceLabelled ++ "\n" ++ ("b " ++ "ος"))).2.outcome =
        .ok ([901, 702, 107] ++ [600 + ((2 : Nat) : Int)]) := by
  have hlabel : Token.label ⟨"ος", ⟨"labels", 1, 1⟩, ".ΟΣ"⟩ ∈
      (Reading.ofSource "labels" 1 twiceLabelled).tokens := by decide +kernel
  have hassemble : ((new false).assemble "labels" twiceLabelled).2.outcome =
      .ok [901, 702, 107] := by decide +kernel
  have hlast : (Reading.ofSource "labels" 1 twiceLabelled).tokens.getLast? =
      some (.instruction ⟨.access .add 7, ⟨"labels", 6, 1⟩, "add +007"⟩) := by decide +kernel
  have hsymbol : ("ος", 2) ∈
      ((new false).assemble "labels" twiceLabelled).1.build.symbols.indices := by
    decide +kernel
  have hcomma : ',' ∉ "ος".toList := by decide
  obtain ⟨hline, hprogram⟩ := assemble_append_branch (new false) "labels" twiceLabelled
  exact ⟨hlabel, (hline _ hlabel "again" 7).mpr hcomma, hassemble, hlast, hsymbol, by decide,
    (hprogram _ _ _ _ hassemble hlast hsymbol (by decide)).mpr hcomma⟩

/-- A label with a comma cannot be named by a branch: two operands are read instead of one. -/
theorem not_assemble_branch_to_comma :
    Reading.ofSource "<input>" 1 ".a,b\nread" =
        ⟨[.label ⟨"a,b", ⟨"<input>", 1, 1⟩, ".a,b"⟩,
          .instruction ⟨.plain .read none, ⟨"<input>", 2, 1⟩, "read"⟩], none⟩ ∧
      ((new false).assemble "<input>" ".a,b\nread").2.outcome = .ok [901] ∧
      ((new false).assemble "<input>" ".a,b\nread").1.build.symbols.indices = [("a,b", 0)] ∧
      Reading.ofSource "<input>" 1 "b a,b" ≠
        ⟨[.instruction ⟨.branch .always "a,b", ⟨"<input>", 1, 1⟩, "b a,b"⟩], none⟩ ∧
      ((new false).assemble "<input>" (".a,b\nread" ++ "\n" ++ "b a,b")).2.outcome =
        .error (.report ⟨.invalidInstruction "b a,b", some ⟨"<input>", 3, 1⟩, some "b a,b",
          some (inQuotes "b" ++ " takes " ++ OperandKind.description .label)⟩) := by
  decide +kernel

end Assembler

end Mailroom
