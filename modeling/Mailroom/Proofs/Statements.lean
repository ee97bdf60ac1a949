import Mailroom.Proofs.Folded
import Mailroom.Proofs.SourceForm

/-!
# Statements

A token without its place is a statement.  Every statement of a source text can be written on
a line of its own, and the line is read back as the statement.

Main definitions:

- `Statement` is a label or an instruction, and `Statement.text` writes it on one line.
- `Statement.Sayable` says which statements are read back from their lines.
- `Statement.onLines` locates statements on lines that follow one another.

Main results:

- Theorem `SourceLine.token?_statementLine`: a line is read back as the statement on it.
- Theorem `Reading.sayable_ofSource`: source texts are made of such statements.
- Theorem `Reading.ofSource_texts`: lines of statements are read back as these statements.
-/

namespace Mailroom

open Text

/-! ## Statements and their lines -/

/-- What a token says, without its place. -/
inductive Statement
  | label (name : String)
  | instruction (instruction : Instruction)
  deriving DecidableEq, Repr

/-- The statement of a token. -/
def Token.statement : Token → Statement
  | label name => .label name.value
  | instruction i => .instruction i.value

/-- A statement on one line: a label behind its period, or an instruction as it is shown. -/
def Statement.text : Statement → String
  | label name => "." ++ name
  | instruction i => i.text

/-- A statement on a line of its own. -/
def Statement.onLine (file : String) (number : Int) (s : Statement) : Token :=
  match s with
  | label name => .label ⟨name, ⟨file, number, 1⟩, s.text⟩
  | instruction i => .instruction ⟨i, ⟨file, number, 1⟩, s.text⟩

/-- Statements on lines of their own, the first of which has the given number. -/
def Statement.onLines (file : String) (number : Int) : List Statement → List Token
  | [] => []
  | s :: rest => s.onLine file number :: onLines file (number + 1) rest

/-- The name that a label line is read as. -/
def foldedName (x : String) : String :=
  String.ofList (lowerFrom ['.'] x.toList)

/-- The instructions that a line can say.  Numbers go up to the greatest that can be written,
and a branch names an operand that stands before the comment of a line. -/
inductive Instruction.Sayable : Instruction → Prop
  | plain (op : PlainOp) : Sayable (.plain op none)
  | access (op : MailboxOp) {n : Nat} (hvalue : n ≤ maxOperand) : Sayable (.access op n)
  | branch (op : BranchOp) {x : String} (hoperand : IsOperand x.toList)
      (hcode : ';' ∉ x.toList) (hfeed : '\n' ∉ x.toList) : Sayable (.branch op x)

/-- The statements that a line can say.  The name of a label is in lower case. -/
inductive Statement.Sayable : Statement → Prop
  | label {x : String} (hname : IsName x) (hfolded : foldedName x = x) : Sayable (.label x)
  | instruction {i : Instruction} (h : i.Sayable) : Sayable (.instruction i)

/-! ## Words of a line -/

/-- A mnemonic spells its operation. -/
theorem spells_mnemonic (op : Opcode) : Spells op.mnemonic.toList op := by
  rcases op with op | op | op <;> cases op <;> decide

/-- A text without blanks has none at its ends. -/
theorem trimmed_of_no_blank {cs : List Char} (h : ∀ c ∈ cs, isBlank c = false) : Trimmed cs :=
  ⟨fun c hc => h c (List.mem_of_mem_head? hc), fun c hc => h c (List.mem_of_getLast? hc)⟩

/-- Between texts without blanks at their ends there may be some. -/
theorem Text.Trimmed.append {first second : List Char} (hfirst : Trimmed first)
    (hsecond : Trimmed second) (hne : first ≠ []) (hne' : second ≠ []) (between : List Char) :
    Trimmed (first ++ between ++ second) := by
  constructor
  · rw [List.append_assoc, List.head?_append_of_ne_nil _ hne]
    exact hfirst.1
  · rw [List.getLast?_append_of_ne_nil _ hne']
    exact hsecond.2

/-- A mnemonic has no blanks in it. -/
theorem Opcode.trimmed_mnemonic (op : Opcode) : Trimmed op.mnemonic.toList :=
  trimmed_of_no_blank fun c hc => ((spells_mnemonic op).field.2 c hc).1

/-- No line ends within a mnemonic. -/
theorem Opcode.feed_not_mem_mnemonic (op : Opcode) : '\n' ∉ op.mnemonic.toList := by
  intro hmem
  exact absurd (op.mnemonic_isLower _ hmem) (by decide)

/-- A name without commas is an operand. -/
theorem IsName.isOperand {x : String} (h : IsName x) (hcomma : ',' ∉ x.toList) :
    IsOperand x.toList :=
  ⟨h.ne_nil, hcomma, trimmed_of_no_blank fun c hc => (h.field c hc).1⟩

/-- A number is an operand. -/
theorem isOperand_decimal (n : Int) : IsOperand (decimal n).toList :=
  (isName_decimal n).isOperand fun hmem => (numeric_field (mem_decimal hmem)).2.2.2 rfl

/-- A number is a numeral with its own value, and one that can be written is not too long. -/
theorem isNumeral_decimal (n : Nat) :
    IsNumeral (decimal n).toList (decimal n).toList ∧
      numeralValue (decimal n).toList = n ∧
      (n ≤ maxOperand → WithinLimit (some digitLimit) (decimal n).toList.length) := by
  rw [toList_decimal]
  refine ⟨⟨.inl rfl, Nat.toDigits_ne_nil, ?_⟩, Nat.ofDigitChars_ten_toDigits, ?_⟩
  · apply all_isDigit_iff.mp
    rw [List.all_eq_true]
    exact fun c hc => Nat.isDigit_of_mem_toDigits (by decide) (by decide) hc
  · intro hn most hmost
    have hlt : n < 10 ^ 3 := hn.trans_lt (by decide)
    have hlength : (Nat.toDigits 10 n).length ≤ 3 :=
      (Nat.length_toDigits_le_iff (by decide) (by decide)).mpr hlt
    rw [← Option.mem_some.mp hmost]
    exact hlength.trans (by decide)

/-- A natural number in two digits has its own value. -/
theorem numeralValue_twoDigits (n : Nat) : numeralValue (twoDigits n).toList = n := by
  have hdecimal : numeralValue (decimal n).toList = n := (isNumeral_decimal n).2.1
  unfold twoDigits
  split
  · rw [String.toList_append]
    exact hdecimal
  · exact hdecimal

/-- An operation and its operand, with a space between them, derive the operation on this
operand. -/
theorem derives_applied {op : Opcode} {operand : String} (harity : op.kind.arity = 1)
    (hoperand : IsOperand operand.toList) (hcode : ';' ∉ operand.toList) :
    Derives (op.mnemonic ++ " " ++ operand).toList (.applied op operand.toList) := by
  have hline : (op.mnemonic ++ " " ++ operand).toList =
      [] ++ op.mnemonic.toList ++ (' ' :: [] ++ operand.toList ++ []) ++ [] := by
    simp
  exact .applied (List.forall_mem_nil _) harity (spells_mnemonic op) (by decide)
    (List.forall_mem_nil _) hoperand hcode (List.forall_mem_nil _) (by simp [Comment]) hline

/-! ## The lines of statements -/

/-- The line of an instruction has no blanks at its ends. -/
theorem Instruction.Sayable.trimmed_text {i : Instruction} (h : i.Sayable) :
    Trimmed i.text.toList := by
  have hoperand : ∀ (op : Opcode) {x : String}, IsOperand x.toList →
      Trimmed (op.mnemonic ++ " " ++ x).toList := by
    intro op x hx
    rw [String.toList_append, String.toList_append]
    exact op.trimmed_mnemonic.append hx.trimmed (spells_mnemonic op).field.1 hx.ne_nil _
  cases h with
  | plain op => exact Opcode.trimmed_mnemonic (.plain op)
  | access op hvalue => exact hoperand (.mailbox op) (isOperand_decimal _)
  | branch op hx hcode hfeed => exact hoperand (.branch op) hx

/-- An instruction is written on one line. -/
theorem Instruction.Sayable.feed_not_mem_text {i : Instruction} (h : i.Sayable) :
    '\n' ∉ i.text.toList := by
  have hoperand : ∀ (op : Opcode) {x : String}, '\n' ∉ x.toList →
      '\n' ∉ (op.mnemonic ++ " " ++ x).toList := by
    intro op x hx
    simp [op.feed_not_mem_mnemonic, hx]
  cases h with
  | plain op => exact Opcode.feed_not_mem_mnemonic (.plain op)
  | @access op n hvalue => exact hoperand (.mailbox op) (isName_decimal n).inline.not_mem.1
  | branch op hx hcode hfeed => exact hoperand (.branch op) hfeed

/-- The line of a statement has no blanks at its ends. -/
theorem Statement.Sayable.trimmed_text {s : Statement} (h : s.Sayable) :
    Trimmed s.text.toList := by
  cases h with
  | @label x hname hfolded =>
    refine trimmed_of_no_blank fun c hc => ?_
    rw [Statement.text, String.toList_append] at hc
    rcases List.mem_append.mp hc with hc | hc
    · obtain rfl : c = '.' := by simpa using hc
      decide
    · exact (hname.field c hc).1
  | instruction h => exact h.trimmed_text

/-- A statement is written on one line. -/
theorem Statement.Sayable.feed_not_mem_text {s : Statement} (h : s.Sayable) :
    '\n' ∉ s.text.toList := by
  cases h with
  | label hname hfolded => simp [Statement.text, hname.inline.not_mem.1]
  | instruction h => exact h.feed_not_mem_text

/-! ## Reading statements -/

namespace SourceLine

variable {l : SourceLine}

/-- The place of a line that does not begin with a blank is its first column. -/
theorem location_of_trimmed (h : Trimmed l.chars) : l.location = ⟨l.file, l.number, 1⟩ := by
  have hindent : l.chars.takeWhile isBlank = [] :=
    takeWhile_append_of_head (List.forall_mem_nil _) h.1
  rw [location, column, hindent]
  rfl

/-- A label line is read as its name in lower case. -/
theorem token?_labelLine {x : String} (hx : IsName x) (hl : l.chars = ("." ++ x).toList) :
    l.token? = .ok (some (.label (l.locate (foldedName x)))) := by
  have hline : l.chars = [] ++ '.' :: x.toList ++ [] ++ [] := by simp [hl]
  have hderives : Derives l.chars (.label x.toList) :=
    .label (List.forall_mem_nil _) hx.field ⟨List.forall_mem_nil _, by simp⟩
      (by simp [Comment]) hline
  exact token?_of_means hderives (.label hx.ne_nil (lower_period_cons _))

/-- The line of an instruction is read as the instruction. -/
theorem token?_instructionLine {i : Instruction} (h : i.Sayable) (hl : l.chars = i.text.toList) :
    l.token? = .ok (some (.instruction (l.locate i))) := by
  cases h with
  | plain op =>
    have hline : l.chars = [] ++ (Opcode.plain op).mnemonic.toList ++ [] ++ [] := by
      rw [hl, List.append_nil, List.append_nil]
      rfl
    have hderives : Derives l.chars (.alone (.plain op)) :=
      .alone (List.forall_mem_nil _) rfl (spells_mnemonic _) ⟨List.forall_mem_nil _, by simp⟩
        (by simp [Comment]) hline
    exact token?_of_means hderives (.plain op)
  | @access op n hvalue =>
    have hcode : ';' ∉ (decimal n).toList := fun hmem =>
      (numeric_field (mem_decimal hmem)).1.2 rfl
    have hderives : Derives l.chars (.applied (.mailbox op) (decimal n).toList) := by
      rw [hl]
      exact derives_applied rfl (isOperand_decimal n) hcode
    obtain ⟨hnumeral, hn, hlimit⟩ := isNumeral_decimal n
    have hmeans := Means.access (l := l) op hnumeral (hlimit hvalue) (hn.le.trans hvalue)
    rw [hn] at hmeans
    exact token?_of_means hderives hmeans
  | @branch op x hoperand hcode hfeed =>
    have hderives : Derives l.chars (.applied (.branch op) x.toList) := by
      rw [hl]
      exact derives_applied rfl hoperand hcode
    have hmeans : Means (some digitLimit) l _ _ := .branch op x.toList
    rw [String.ofList_toList] at hmeans
    exact token?_of_means hderives hmeans

/-- The line of a statement is read back as the statement. -/
theorem token?_statementLine {s : Statement} (h : s.Sayable) (hl : l.chars = s.text.toList) :
    l.token? = .ok (some (s.onLine l.file l.number)) := by
  have hlocate : ∀ {α : Type} (value : α),
      l.locate value = ⟨value, ⟨l.file, l.number, 1⟩, s.text⟩ := by
    intro α value
    rw [locate, location_of_trimmed (hl ▸ h.trimmed_text), SourceLine.text, hl,
      String.ofList_toList]
  cases h with
  | label hname hfolded =>
    rw [token?_labelLine hname hl, hfolded, hlocate]
    rfl
  | instruction hi =>
    rw [token?_instructionLine hi hl, hlocate]
    rfl

end SourceLine

/-! ## Texts of statements -/

/-- A line that does not end in a carriage return is its own line. -/
theorem linesFrom_cons_of_isLine (file : String) (number : Int) {raw : List Char}
    (h : IsLine raw raw) (rest : List (List Char)) :
    linesFrom file number (raw :: rest) =
      ⟨file, number, raw⟩ :: linesFrom file (number + 1) rest := by
  rw [linesFrom, isLine_iff.mp h]

/-- A text without blanks at its end is its own line. -/
theorem Text.Trimmed.isLine {cs : List Char} (h : Trimmed cs) : IsLine cs cs := by
  refine ⟨⟨[], List.forall_mem_nil _, (List.append_nil cs).symm⟩, ?_⟩
  rintro c hc rfl
  exact absurd (h.2 _ hc) (by decide)

/-- A text of lines is read line by line. -/
theorem Reading.ofSource_intercalate {file : String} {first : Int} {lines : List String}
    (h : ∀ line ∈ lines, '\n' ∉ line.toList) :
    ofSource file first ("\n".intercalate lines) =
      ofLines (linesFrom file first (lines.map String.toList)) := by
  rw [ofSource, linesOf_eq_linesFrom]
  by_cases hnone : lines = []
  · -- the empty text is one blank line
    subst hnone
    rfl
  · rw [splitOn_intercalate_lines hnone h]

/-- Lines of statements are read back as these statements. -/
theorem Reading.ofLines_texts (file : String) (number : Int) {statements : List Statement}
    (h : ∀ s ∈ statements, s.Sayable) :
    ofLines (linesFrom file number (statements.map fun s => s.text.toList)) =
      ⟨Statement.onLines file number statements, none⟩ := by
  induction statements generalizing number with
  | nil => rfl
  | cons s rest ih =>
    have hs := h s List.mem_cons_self
    have hline : (⟨file, number, s.text.toList⟩ : SourceLine).token? =
        .ok (some (s.onLine file number)) := SourceLine.token?_statementLine hs rfl
    have hrest := ih (number + 1) fun t ht => h t (List.mem_cons_of_mem _ ht)
    rw [List.map_cons, linesFrom_cons_of_isLine file number hs.trimmed_text.isLine, ofLines]
    simp only [hline, hrest, Statement.onLines]

/-- A text of statements is read back as these statements. -/
theorem Reading.ofSource_texts (file : String) (first : Int) {statements : List Statement}
    (h : ∀ s ∈ statements, s.Sayable) :
    ofSource file first ("\n".intercalate (statements.map Statement.text)) =
      ⟨Statement.onLines file first statements, none⟩ := by
  have hlines : ∀ line ∈ statements.map Statement.text, '\n' ∉ line.toList := by
    intro line hline
    obtain ⟨s, hs, rfl⟩ := List.mem_map.mp hline
    exact (h s hs).feed_not_mem_text
  rw [ofSource_intercalate hlines, List.map_map]
  exact ofLines_texts file first h

/-! ## Statements of source texts -/

/-- No line ends within a line of a text. -/
theorem feed_not_mem_of_mem_linesOf {file source : String} {first : Int} {l : SourceLine}
    (h : l ∈ linesOf file first source) : '\n' ∉ l.chars := by
  obtain ⟨⟨raw, n⟩, hraw, rfl⟩ := List.mem_map.mp h
  obtain ⟨⟨tail, -, htail⟩, -⟩ := exists_dropTrailing (· = '\r') raw
  intro hmem
  refine not_mem_of_mem_splitOn (List.fst_mem_of_mem_zipIdx hraw) ?_
  rw [htail]
  exact List.mem_append_left _ hmem

/-- A name in lower case is left as it is. -/
theorem foldedName_of_isFolded {x : String} (h : ∀ c ∈ x.toList, IsFolded c) :
    foldedName x = x := by
  rw [foldedName, lowerFrom_of_isFolded h, String.ofList_toList]

/-- What is read on a line can be said on a line. -/
theorem Reads.sayable {limit : Option Nat} {l : SourceLine} {t : Token}
    (h : Reads limit l (.ok (some t))) (hl : '\n' ∉ l.chars) : t.statement.Sayable := by
  cases h with
  | sentence hs hr =>
    cases hr with
    | @label name folded hname hfolded =>
      rw [lower_period_cons] at hfolded
      obtain rfl := (List.cons.inj hfolded).2
      cases hs with
      | label _ hfield _ _ _ =>
        refine .label ⟨?_, ?_⟩ (foldedName_of_isFolded ?_)
        · simpa [SourceLine.locate] using hname
        · simpa [SourceLine.locate] using field_of_mem_lowerFrom hfield ['.']
        · simpa [SourceLine.locate] using isFolded_of_mem_lowerFrom ['.'] name
    | plain op => exact .instruction (.plain op)
    | access op _ _ hvalue => exact .instruction (.access op hvalue)
    | branch op target =>
      cases hs with
      | applied _ _ _ _ _ hoperand hcode _ _ hline =>
        have hfeed : '\n' ∉ target := by
          intro hmem
          apply hl
          rw [hline]
          simp [hmem]
        rw [← String.toList_ofList (l := target)] at hoperand hcode hfeed
        exact .instruction (.branch op hoperand hcode hfeed)

/-- The statements of a source text can be said on lines of their own. -/
theorem Reading.sayable_ofSource {file source : String} {first : Int} {t : Token}
    (h : t ∈ (ofSource file first source).tokens) : t.statement.Sayable := by
  obtain ⟨l, hl, hline⟩ := exists_line_of_mem h
  exact (SourceLine.token?_eq_iff_reads.mp hline).sayable (feed_not_mem_of_mem_linesOf hl)

end Mailroom
