import Mailroom.Proofs.Fields
import Mailroom.Proofs.Folding

/-!
# The grammar of a line

The sentences of the assembly language, as a grammar that builds lines, and what a line
is read as.  Numerals may be limited to a number of digits: the language knows no such
limit, and reading has one.

Main definitions:

- `Sentence` lists what a line can say, and `Derives` derives lines from sentences.
- `Means` gives what a sentence is read as, and `Advises` the hint for a line that no
  sentence derives.
- `Reads` joins them.

Main results:

- Theorem `SourceLine.token?_eq_iff_reads`: a line is read as the grammar says, and as
  nothing else.
- Theorem `SourceLine.token?_eq_iff_reads_unlimited`: unless it holds a mailbox number of
  too many digits, a line is read as the grammar without a limit says.
-/

namespace Mailroom

open Text

/-! ## Sentences -/

/-- What a line can say. -/
inductive Sentence
  | silence
  | label (name : List Char)
  | alone (op : Opcode)
  | applied (op : Opcode) (operand : List Char)
  deriving DecidableEq, Repr

/-- A field spells a mnemonic in ASCII letters of either case. -/
def Spells (field : List Char) (op : Opcode) : Prop :=
  field.map Char.toLower = op.mnemonic.toList
  deriving Decidable

/-- Nothing, or a blank and then blanks and commas. -/
def Gap (cs : List Char) : Prop :=
  Separators cs ∧ ∀ c ∈ cs.head?, isBlank c = true

/-- The lines that say a sentence.  Blanks and commas may stand on both sides of an
operand. -/
inductive Derives (cs : List Char) : Sentence → Prop
  | silence {indent comment : List Char} (hindent : Blanks indent)
      (hcomment : Comment comment) (hline : cs = indent ++ comment) : Derives cs .silence
  | label {indent name gap comment : List Char} (hindent : Blanks indent)
      (hname : ∀ c ∈ name, isBlank c = false ∧ c ≠ ';') (hgap : Gap gap)
      (hcomment : Comment comment) (hline : cs = indent ++ '.' :: name ++ gap ++ comment) :
      Derives cs (.label name)
  | alone {op : Opcode} {indent mnemonic gap comment : List Char} (hindent : Blanks indent)
      (harity : op.kind.arity = 0) (hspells : Spells mnemonic op) (hgap : Gap gap)
      (hcomment : Comment comment) (hline : cs = indent ++ mnemonic ++ gap ++ comment) :
      Derives cs (.alone op)
  | applied {op : Opcode} {indent mnemonic before operand after comment : List Char}
      {blank : Char} (hindent : Blanks indent) (harity : op.kind.arity = 1)
      (hspells : Spells mnemonic op) (hblank : isBlank blank = true)
      (hbefore : Separators before) (hoperand : IsOperand operand) (hcode : ';' ∉ operand)
      (hafter : Separators after) (hcomment : Comment comment)
      (hline : cs = indent ++ mnemonic ++ (blank :: before ++ operand ++ after) ++ comment) :
      Derives cs (.applied op operand)

/-! ## Numerals -/

/-- A numeral is an optional plus sign and one or more ASCII digits. -/
structure IsNumeral (operand digits : List Char) : Prop where
  sign : operand = digits ∨ operand = '+' :: digits
  ne_nil : digits ≠ []
  digit : ∀ c ∈ digits, '0' ≤ c ∧ c ≤ '9'

/-- The value of some digits. -/
def numeralValue (digits : List Char) : Nat :=
  Nat.ofDigitChars 10 digits 0

/-- A number of digits keeps to a limit, if there is one. -/
def WithinLimit (limit : Option Nat) (digits : Nat) : Prop :=
  ∀ most ∈ limit, digits ≤ most

/-! ## Meanings -/

/-- What the sentence of a line is read as. -/
inductive Means (limit : Option Nat) (l : SourceLine) :
    Sentence → Except Refusal (Option Token) → Prop
  | silence : Means limit l .silence (.ok none)
  | unnamed : Means limit l (.label []) (.ok none)
  | label {name folded : List Char} (hname : name ≠ [])
      (hfolded : lower ('.' :: name) = '.' :: folded) :
      Means limit l (.label name) (.ok (some (.label (l.locate (String.ofList folded)))))
  | plain (op : PlainOp) :
      Means limit l (.alone (.plain op))
        (.ok (some (.instruction (l.locate (.plain op none)))))
  | branch (op : BranchOp) (target : List Char) :
      Means limit l (.applied (.branch op) target)
        (.ok (some (.instruction (l.locate (.branch op (String.ofList target))))))
  | access (op : MailboxOp) {operand digits : List Char} (hnumeral : IsNumeral operand digits)
      (hlimit : WithinLimit limit digits.length) (hvalue : numeralValue digits ≤ maxOperand) :
      Means limit l (.applied (.mailbox op) operand)
        (.ok (some (.instruction (l.locate (.access op (numeralValue digits))))))
  | badNumber (op : MailboxOp) {operand : List Char}
      (h : ∀ digits, IsNumeral operand digits →
        WithinLimit limit digits.length ∧ maxOperand < numeralValue digits) :
      Means limit l (.applied (.mailbox op) operand) (.error (l.badNumber operand))
  | longNumeral (op : MailboxOp) {operand digits : List Char}
      (hnumeral : IsNumeral operand digits) (hlimit : ¬ WithinLimit limit digits.length) :
      Means limit l (.applied (.mailbox op) operand)
        (.error (.longNumeral ⟨digits.length⟩))

/-- The hint for a line that says nothing in the language, from its first field. -/
inductive Advises (head : List Char) : Option String → Prop
  | operands {op : Opcode} (h : Spells head op) :
      Advises head (some (inQuotes op.mnemonic ++ " takes " ++ op.kind.description))
  | label {name : List Char} (h : head = '.' :: name) :
      Advises head (some "a label must be on a line of its own")
  | unknown (hmnemonic : ∀ op, ¬ Spells head op) (hlabel : ∀ name, head ≠ '.' :: name) :
      Advises head (didYouMean " or " (closeMatches (lower head) Opcode.sortedMnemonics))

/-- What a line is read as: the answer to its sentence, or a complaint when no sentence
derives it. -/
inductive Reads (limit : Option Nat) (l : SourceLine) :
    Except Refusal (Option Token) → Prop
  | sentence {s : Sentence} {r : Except Refusal (Option Token)} (hs : Derives l.chars s)
      (hr : Means limit l s r) : Reads limit l r
  | invalid {indent head rest comment : List Char} {advice : Option String}
      (hnone : ∀ s, ¬ Derives l.chars s) (hlayout : Layout l.chars indent head rest comment)
      (hadvice : Advises head advice) : Reads limit l (.error (l.invalid advice))

/-! ## Reading numerals -/

/-- The digits that are read are the ASCII digits. -/
theorem all_isDigit_iff {digits : List Char} :
    digits.all Char.isDigit = true ↔ ∀ c ∈ digits, '0' ≤ c ∧ c ≤ '9' := by
  simp only [List.all_eq_true, Char.isDigit, Bool.and_eq_true, decide_eq_true_eq]
  rfl

/-- Digits within the limit are read as their value. -/
theorem readUnsigned_of_isNumeral {operand digits : List Char} (h : IsNumeral operand digits) :
    readUnsigned operand =
      if digits.length ≤ digitLimit then .ok (numeralValue digits)
      else .error (.tooLong ⟨digits.length⟩) := by
  have hall : digits.all Char.isDigit = true := all_isDigit_iff.mpr h.digit
  have hdigits : readDigits digits =
      if digits.length ≤ digitLimit then .ok (numeralValue digits)
      else .error (.tooLong ⟨digits.length⟩) := by
    rw [readDigits, if_neg (by simp [h.ne_nil, hall])]
    by_cases hlimit : digits.length ≤ digitLimit
    · rw [if_neg (Nat.not_lt.mpr hlimit), if_pos hlimit]
      rfl
    · rw [if_pos (Nat.not_le.mp hlimit), if_neg hlimit]
  rcases h.sign with heq | heq
  · subst heq
    unfold readUnsigned
    split
    next ds =>
      have hplus := (h.digit '+' List.mem_cons_self).1
      exact absurd hplus (by decide)
    next => exact hdigits
  · rw [heq]
    exact hdigits

/-- A text that is no numeral is not read as one. -/
theorem readUnsigned_of_not_isNumeral {operand : List Char}
    (h : ∀ digits, ¬ IsNumeral operand digits) : readUnsigned operand = .error .malformed := by
  have hmalformed : ∀ digits, operand = digits ∨ operand = '+' :: digits →
      readDigits digits = .error .malformed := by
    intro digits hsign
    rw [readDigits, if_pos]
    by_contra hdigits
    simp only [not_or, Bool.not_eq_false] at hdigits
    exact h digits ⟨hsign, hdigits.1, all_isDigit_iff.mp hdigits.2⟩
  unfold readUnsigned
  split
  next ds => exact hmalformed ds (.inr rfl)
  next => exact hmalformed operand (.inl rfl)

/-! ## Sentences and layouts -/

/-- An operation takes one operand or none. -/
theorem Opcode.arity_eq_zero_or_one (op : Opcode) : op.kind.arity = 0 ∨ op.kind.arity = 1 := by
  cases op with
  | plain op => exact .inl rfl
  | mailbox op => exact .inr rfl
  | branch op => exact .inr rfl

/-- A field that spells a mnemonic is made of ASCII letters. -/
theorem Spells.field {field : List Char} {op : Opcode} (h : Spells field op) :
    field ≠ [] ∧ ∀ c ∈ field, isBlank c = false ∧ c ≠ ';' := by
  constructor
  · rintro rfl
    exact op.mnemonic_ne_nil h.symm
  · intro c hc
    have hletter : c.toLower ∈ op.mnemonic.toList := by
      rw [← h]
      exact List.mem_map_of_mem hc
    have hascii : c.toNat < 0x80 :=
      (toNat_toLower_lt_iff c).mp (op.mnemonic_ascii _ hletter).1
    exact forall_ascii (P := fun c => c.toLower.isLower → isBlank c = false ∧ c ≠ ';')
      (by decide +kernel) c hascii (op.mnemonic_isLower _ hletter)

/-- A field that begins with a period spells no mnemonic. -/
theorem not_spells_period_cons (name : List Char) (op : Opcode) : ¬ Spells ('.' :: name) op := by
  intro h
  have hmem : '.' ∈ op.mnemonic.toList := by
    rw [← h]
    exact List.mem_cons_self
  exact absurd (op.mnemonic_isLower _ hmem) (by decide)

/-- What the first field and the rest of a statement say. -/
inductive Makes (head rest : List Char) : Sentence → Prop
  | label {name : List Char} (hhead : head = '.' :: name) (hrest : operandsOf rest = []) :
      Makes head rest (.label name)
  | alone {op : Opcode} (harity : op.kind.arity = 0) (hspells : Spells head op)
      (hrest : operandsOf rest = []) : Makes head rest (.alone op)
  | applied {op : Opcode} {operand : List Char} (harity : op.kind.arity = 1)
      (hspells : Spells head op) (hrest : operandsOf rest = [operand]) :
      Makes head rest (.applied op operand)

/-- A line derives the sentence that its layout says. -/
theorem derives_of_makes {cs indent head rest comment : List Char} {s : Sentence}
    (hlayout : Layout cs indent head rest comment) (hs : Makes head rest s) : Derives cs s := by
  cases hs with
  | label hhead hrest =>
    subst hhead
    have hgap : Gap rest := ⟨operandsOf_eq_nil_iff.mp hrest, hlayout.rest_apart⟩
    have hname := fun c hc => hlayout.head_field c (List.mem_cons_of_mem _ hc)
    exact .label hlayout.indent_blank hname hgap hlayout.comment hlayout.line
  | alone harity hspells hrest =>
    have hgap : Gap rest := ⟨operandsOf_eq_nil_iff.mp hrest, hlayout.rest_apart⟩
    exact .alone hlayout.indent_blank harity hspells hgap hlayout.comment hlayout.line
  | applied harity hspells hrest =>
    rcases operandsOf_eq_singleton_iff.mp hrest with
      ⟨hoperand, before, after, hbefore, hafter, heq⟩
    -- the rest begins with a blank, so what stands before the operand is not empty
    cases before with
    | nil =>
      rcases List.exists_cons_of_ne_nil hoperand.ne_nil with ⟨c, more, hc⟩
      have hblank : isBlank c = true := hlayout.rest_apart c (by rw [heq, hc]; rfl)
      have hnot : isBlank c = false := hoperand.trimmed.1 c (by rw [hc]; rfl)
      rw [hblank] at hnot
      exact absurd hnot (by decide)
    | cons blank before =>
      have hblank : isBlank blank = true := hlayout.rest_apart blank (by rw [heq]; rfl)
      have hbefore' : Separators before := fun c hc => hbefore c (List.mem_cons_of_mem _ hc)
      have hcode := hlayout.rest_code
      rw [heq] at hcode
      simp only [List.mem_append, not_or] at hcode
      have hline := hlayout.line
      rw [heq] at hline
      exact .applied hlayout.indent_blank harity hspells hblank hbefore' hoperand hcode.1.2
        hafter hlayout.comment hline

/-- A line that derives a sentence is blank up to its comment, or its layout says the
sentence. -/
theorem Derives.makes {cs : List Char} {s : Sentence} (h : Derives cs s) :
    (s = .silence ∧ ∃ indent comment, Blanks indent ∧ Comment comment ∧
        cs = indent ++ comment) ∨
      ∃ indent head rest comment, Layout cs indent head rest comment ∧ Makes head rest s := by
  have hcode : ∀ {gap : List Char}, Separators gap → ';' ∉ gap := by
    intro gap hgap hmem
    rcases hgap _ hmem with hblank | hcomma
    · exact (ne_of_isBlank hblank).2 rfl
    · exact absurd hcomma (by decide)
  cases h with
  | @silence indent comment hindent hcomment hline =>
    exact .inl ⟨rfl, indent, comment, hindent, hcomment, hline⟩
  | @label indent name gap comment hindent hname hgap hcomment hline =>
    right
    have hfield : ∀ c ∈ '.' :: name, isBlank c = false ∧ c ≠ ';' := by
      intro c hc
      rcases List.mem_cons.mp hc with rfl | hc
      · decide
      · exact hname c hc
    exact ⟨indent, '.' :: name, gap, comment,
      ⟨hline, hindent, List.cons_ne_nil _ _, hfield, hgap.2, hcode hgap.1, hcomment⟩,
      .label rfl (operandsOf_eq_nil_iff.mpr hgap.1)⟩
  | @alone op indent mnemonic gap comment hindent harity hspells hgap hcomment hline =>
    right
    exact ⟨indent, mnemonic, gap, comment,
      ⟨hline, hindent, hspells.field.1, hspells.field.2, hgap.2, hcode hgap.1, hcomment⟩,
      .alone harity hspells (operandsOf_eq_nil_iff.mpr hgap.1)⟩
  | @applied op indent mnemonic before operand after comment blank hindent harity hspells
      hblank hbefore hoperand hfree hafter hcomment hline =>
    right
    have hbefore' : Separators (blank :: before) := by
      intro c hc
      rcases List.mem_cons.mp hc with rfl | hc
      · exact .inl hblank
      · exact hbefore c hc
    have hapart : ∀ c ∈ (blank :: before ++ operand ++ after).head?, isBlank c = true := by
      intro c hc
      cases hc
      exact hblank
    have hrest : ';' ∉ blank :: before ++ operand ++ after := by
      simp only [List.mem_append, not_or]
      exact ⟨⟨hcode hbefore', hfree⟩, hcode hafter⟩
    exact ⟨indent, mnemonic, blank :: before ++ operand ++ after, comment,
      ⟨hline, hindent, hspells.field.1, hspells.field.2, hapart, hrest, hcomment⟩,
      .applied harity hspells
        (operandsOf_eq_singleton_iff.mpr
          ⟨hoperand, blank :: before, after, hbefore', hafter, rfl⟩)⟩

/-! ## Reading a line -/

namespace SourceLine

variable {l : SourceLine}

/-- A blank line is read as silence. -/
theorem token?_of_blank {indent comment : List Char} (hindent : Blanks indent)
    (hcomment : Comment comment) (hl : l.chars = indent ++ comment) :
    l.token? = .ok none := by
  rw [token?, if_pos (statement_of_blank hindent hcomment hl)]

section Layouts

variable {indent head rest comment : List Char}

/-- A first field that spells a mnemonic makes an instruction. -/
theorem token?_of_spells (hlayout : Layout l.chars indent head rest comment) {op : Opcode}
    (hspells : Spells head op) :
    l.token? =
      (l.instruction op (operandsOf rest)).map fun i => some (.instruction (l.locate i)) := by
  have hop : Opcode.ofMnemonic? (String.ofList (lower head)) = some op :=
    Opcode.ofMnemonic?_lower_eq_some_iff.mpr hspells
  simp only [token?, if_neg hlayout.statement_ne_nil, hlayout.fields, hop]

/-- A first field that spells no mnemonic is read as a label. -/
theorem token?_of_not_spells (hlayout : Layout l.chars indent head rest comment)
    (hspells : ∀ op, ¬ Spells head op) :
    l.token? = l.label? ⟨lower head, operandsOf rest⟩ := by
  have hop : Opcode.ofMnemonic? (String.ofList (lower head)) = none := by
    rw [Option.eq_none_iff_forall_ne_some]
    intro op hop
    exact hspells op (Opcode.ofMnemonic?_lower_eq_some_iff.mp hop)
  simp only [token?, if_neg hlayout.statement_ne_nil, hlayout.fields, hop]

end Layouts

/-- The instruction on a numeral depends on the number of its digits and on its value. -/
theorem instruction_of_isNumeral (op : MailboxOp) {operand digits : List Char}
    (h : IsNumeral operand digits) :
    l.instruction (.mailbox op) [operand] =
      if digits.length ≤ digitLimit then
        if numeralValue digits ≤ maxOperand then .ok (.access op (numeralValue digits))
        else .error (l.badNumber operand)
      else .error (.longNumeral ⟨digits.length⟩) := by
  rw [instruction, readUnsigned_of_isNumeral h]
  by_cases hlimit : digits.length ≤ digitLimit
  · rw [if_pos hlimit, if_pos hlimit]
  · rw [if_neg hlimit, if_neg hlimit]

/-- There is no instruction on an operand that is no numeral. -/
theorem instruction_of_not_isNumeral (op : MailboxOp) {operand : List Char}
    (h : ∀ digits, ¬ IsNumeral operand digits) :
    l.instruction (.mailbox op) [operand] = .error (l.badNumber operand) := by
  rw [instruction, readUnsigned_of_not_isNumeral h]

/-- A line is read as the answer to the sentence that derives it. -/
theorem token?_of_means {s : Sentence} {r : Except Refusal (Option Token)}
    (hs : Derives l.chars s) (hr : Means (some digitLimit) l s r) : l.token? = r := by
  have hwithin : ∀ n, WithinLimit (some digitLimit) n ↔ n ≤ digitLimit := by
    intro n
    simp [WithinLimit]
  rcases hs.makes with ⟨rfl, indent, comment, hindent, hcomment, hline⟩ |
    ⟨indent, head, rest, comment, hlayout, hmakes⟩
  · cases hr
    exact token?_of_blank hindent hcomment hline
  cases hmakes with
  | @label name hhead hrest =>
    subst hhead
    rw [token?_of_not_spells hlayout (not_spells_period_cons name), hrest,
      lower_period_cons]
    cases hr with
    | unnamed => rfl
    | @label _ folded hname hfolded =>
      rw [lower_period_cons] at hfolded
      have hne : lowerFrom ['.'] name ≠ [] := fun h => hname (lowerFrom_eq_nil_iff.mp h)
      rw [(List.cons.inj hfolded).2] at hne ⊢
      rcases List.exists_cons_of_ne_nil hne with ⟨c, more, rfl⟩
      rfl
  | @alone op harity hspells hrest =>
    rw [token?_of_spells hlayout hspells, hrest]
    cases hr
    rfl
  | @applied op operand harity hspells hrest =>
    rw [token?_of_spells hlayout hspells, hrest]
    cases hr with
    | branch op target => rfl
    | @access op _ digits hnumeral hlimit hvalue =>
      rw [instruction_of_isNumeral op hnumeral, if_pos ((hwithin _).mp hlimit), if_pos hvalue]
      rfl
    | @longNumeral op _ digits hnumeral hlimit =>
      rw [instruction_of_isNumeral op hnumeral,
        if_neg (fun h => hlimit ((hwithin _).mpr h))]
      rfl
    | @badNumber op _ h =>
      by_cases hnumeral : ∃ digits, IsNumeral operand digits
      · rcases hnumeral with ⟨digits, hnumeral⟩
        rcases h digits hnumeral with ⟨hlimit, hvalue⟩
        rw [instruction_of_isNumeral op hnumeral, if_pos ((hwithin _).mp hlimit),
          if_neg (Nat.not_le.mpr hvalue)]
        rfl
      · rw [instruction_of_not_isNumeral op (not_exists.mp hnumeral)]
        rfl

/-- An instruction with a wrong number of operands is refused. -/
theorem instruction_of_length_ne {op : Opcode} {operands : List (List Char)}
    (h : operands.length ≠ op.kind.arity) :
    l.instruction op operands =
      .error (l.invalid
        (some (inQuotes op.mnemonic ++ " takes " ++ op.kind.description))) := by
  match op, operands with
  | .plain op, [] => exact absurd rfl h
  | .plain op, _ :: _ => rfl
  | .mailbox op, [] => rfl
  | .mailbox op, [_] => exact absurd rfl h
  | .mailbox op, _ :: _ :: _ => rfl
  | .branch op, [] => rfl
  | .branch op, [_] => exact absurd rfl h
  | .branch op, _ :: _ :: _ => rfl

/-- A label with operands is refused. -/
theorem label?_of_operands {name : List Char} {operands : List (List Char)}
    (h : operands ≠ []) :
    l.label? ⟨'.' :: name, operands⟩ =
      .error (l.invalid (some "a label must be on a line of its own")) := by
  rcases List.exists_cons_of_ne_nil h with ⟨operand, more, rfl⟩
  cases name <;> rfl

/-- A first field that is neither a mnemonic nor a label is refused. -/
theorem label?_of_ne_period {fields : Fields} (h : ∀ name, fields.head ≠ '.' :: name) :
    l.label? fields =
      .error (l.invalid
        (didYouMean " or " (closeMatches fields.head Opcode.sortedMnemonics))) := by
  unfold label?
  split
  next heq _ => exact absurd heq (h _)
  next heq _ => exact absurd heq (h _)
  next heq _ _ => exact absurd heq (h _)
  next => rfl

/-- A line that no sentence derives is refused with the hint that its first field calls
for. -/
theorem token?_of_invalid {indent head rest comment : List Char} {advice : Option String}
    (hnone : ∀ s, ¬ Derives l.chars s) (hlayout : Layout l.chars indent head rest comment)
    (hadvice : Advises head advice) : l.token? = .error (l.invalid advice) := by
  have hmakes : ∀ s, ¬ Makes head rest s := fun s hs => hnone s (derives_of_makes hlayout hs)
  cases hadvice with
  | @operands op hspells =>
    have hlength : (operandsOf rest).length ≠ op.kind.arity := by
      intro heq
      rcases op.arity_eq_zero_or_one with harity | harity
      · rw [harity, List.length_eq_zero_iff] at heq
        exact hmakes (.alone op) (.alone harity hspells heq)
      · rw [harity, List.length_eq_one_iff] at heq
        rcases heq with ⟨operand, hrest⟩
        exact hmakes (.applied op operand) (.applied harity hspells hrest)
    rw [token?_of_spells hlayout hspells, instruction_of_length_ne hlength]
    rfl
  | @label name hhead =>
    subst hhead
    have hoperands : operandsOf rest ≠ [] := fun hrest =>
      hmakes (.label name) (.label rfl hrest)
    rw [token?_of_not_spells hlayout (not_spells_period_cons name), lower_period_cons,
      label?_of_operands hoperands]
  | unknown hmnemonic hlabel =>
    have hperiod : ∀ name, lower head ≠ '.' :: name := by
      intro name hlower
      rcases exists_of_lower_eq_period_cons hlower with ⟨rest, hhead, -⟩
      exact hlabel rest hhead
    rw [token?_of_not_spells hlayout hmnemonic, label?_of_ne_period hperiod]

end SourceLine

/-! ## Every line has a reading -/

/-- The sentence of a line has an answer. -/
theorem Derives.exists_means {l : SourceLine} {s : Sentence} (h : Derives l.chars s)
    (limit : Option Nat) : ∃ r, Means limit l s r := by
  cases h with
  | silence => exact ⟨_, .silence⟩
  | @label indent name =>
    by_cases hname : name = []
    · subst hname
      exact ⟨_, .unnamed⟩
    · exact ⟨_, .label hname (lower_period_cons name)⟩
  | @alone op indent mnemonic gap comment hindent harity =>
    cases op with
    | plain op => exact ⟨_, .plain op⟩
    | mailbox op => exact absurd harity Nat.one_ne_zero
    | branch op => exact absurd harity Nat.one_ne_zero
  | @applied op indent mnemonic before operand after comment blank hindent harity =>
    cases op with
    | plain op => exact absurd harity Nat.zero_ne_one
    | branch op => exact ⟨_, .branch op operand⟩
    | mailbox op =>
      by_cases hbad : ∀ digits, IsNumeral operand digits →
          WithinLimit limit digits.length ∧ maxOperand < numeralValue digits
      · exact ⟨_, .badNumber op hbad⟩
      · simp only [not_forall] at hbad
        rcases hbad with ⟨digits, hnumeral, hgood⟩
        by_cases hlimit : WithinLimit limit digits.length
        · have hvalue : numeralValue digits ≤ maxOperand :=
            Nat.le_of_not_lt (fun hlt => hgood ⟨hlimit, hlt⟩)
          exact ⟨_, .access op hnumeral hlimit hvalue⟩
        · exact ⟨_, .longNumeral op hnumeral hlimit⟩

/-- There is a hint for every first field. -/
theorem exists_advises (head : List Char) : ∃ advice, Advises head advice := by
  by_cases hmnemonic : ∃ op, Spells head op
  · rcases hmnemonic with ⟨op, hspells⟩
    exact ⟨_, .operands hspells⟩
  · by_cases hlabel : ∃ name, head = '.' :: name
    · rcases hlabel with ⟨name, hhead⟩
      exact ⟨_, .label hhead⟩
    · exact ⟨_, .unknown (not_exists.mp hmnemonic) (not_exists.mp hlabel)⟩

/-- Every line has a reading. -/
theorem exists_reads (limit : Option Nat) (l : SourceLine) : ∃ r, Reads limit l r := by
  by_cases hs : ∃ s, Derives l.chars s
  · rcases hs with ⟨s, hs⟩
    rcases hs.exists_means limit with ⟨r, hr⟩
    exact ⟨r, .sentence hs hr⟩
  · rcases blank_or_layout l.chars with ⟨indent, comment, hindent, hcomment, hline⟩ |
      ⟨indent, head, rest, comment, hlayout⟩
    · exact absurd ⟨.silence, .silence hindent hcomment hline⟩ hs
    · rcases exists_advises head with ⟨advice, hadvice⟩
      exact ⟨_, .invalid (not_exists.mp hs) hlayout hadvice⟩

/-- A line is read as the grammar with the limit on digits says, and as nothing else. -/
theorem SourceLine.token?_eq_iff_reads {l : SourceLine} {r : Except Refusal (Option Token)} :
    l.token? = r ↔ Reads (some digitLimit) l r := by
  have hsound : ∀ {r}, Reads (some digitLimit) l r → l.token? = r := by
    intro r h
    cases h with
    | sentence hs hr => exact token?_of_means hs hr
    | invalid hnone hlayout hadvice => exact token?_of_invalid hnone hlayout hadvice
  constructor
  · rintro rfl
    rcases exists_reads (some digitLimit) l with ⟨r, hr⟩
    rwa [hsound hr]
  · exact hsound

/-! ## Lines without long numerals -/

/-- A line says a mailbox operation on a numeral of more digits than are read. -/
def Overlong (cs : List Char) : Prop :=
  ∃ op operand digits, Derives cs (.applied (.mailbox op) operand) ∧
    IsNumeral operand digits ∧ digitLimit < digits.length

/-- Without a limit on digits no numeral is too long. -/
theorem Reads.ne_longNumeral {l : SourceLine} {r : Except Refusal (Option Token)}
    (h : Reads none l r) (cause : NumeralTooLong) : r ≠ .error (.longNumeral cause) := by
  intro hr
  subst hr
  cases h with
  | sentence _ hmeans =>
    cases hmeans with
    | longNumeral op _ hlimit =>
      apply hlimit
      intro most hmost
      exact absurd hmost (Option.not_mem_none most)

/-- An overlong line is refused for its numeral. -/
theorem SourceLine.token?_of_overlong {l : SourceLine} (h : Overlong l.chars) :
    ∃ cause, l.token? = .error (.longNumeral cause) := by
  rcases h with ⟨op, operand, digits, hs, hnumeral, hlong⟩
  have hlimit : ¬ WithinLimit (some digitLimit) digits.length := fun h =>
    absurd (h digitLimit rfl) (Nat.not_le.mpr hlong)
  exact ⟨_, token?_of_means hs (.longNumeral op hnumeral hlimit)⟩

/-- The limit on digits matters to overlong lines only. -/
theorem Means.change_limit {first second : Option Nat} {l : SourceLine} {s : Sentence}
    {r : Except Refusal (Option Token)}
    (h : ∀ op operand digits, s = .applied (.mailbox op) operand → IsNumeral operand digits →
      WithinLimit first digits.length ∧ WithinLimit second digits.length)
    (hr : Means first l s r) : Means second l s r := by
  cases hr with
  | silence => exact .silence
  | unnamed => exact .unnamed
  | label hname hfolded => exact .label hname hfolded
  | plain op => exact .plain op
  | branch op target => exact .branch op target
  | @access op operand digits hnumeral _ hvalue =>
    exact .access op hnumeral (h op operand digits rfl hnumeral).2 hvalue
  | @badNumber op operand hbad =>
    apply Means.badNumber
    intro digits hnumeral
    exact ⟨(h op operand digits rfl hnumeral).2, (hbad digits hnumeral).2⟩
  | @longNumeral op operand digits hnumeral hlimit =>
    exact absurd (h op operand digits rfl hnumeral).1 hlimit

/-- A line that is not overlong is read as the grammar without a limit on digits says. -/
theorem SourceLine.token?_eq_iff_reads_unlimited {l : SourceLine}
    {r : Except Refusal (Option Token)} (hshort : ¬ Overlong l.chars) :
    l.token? = r ↔ Reads none l r := by
  have hwithin : ∀ {s}, Derives l.chars s → ∀ op operand digits,
      s = .applied (.mailbox op) operand → IsNumeral operand digits →
        WithinLimit none digits.length ∧ WithinLimit (some digitLimit) digits.length := by
    intro s hs op operand digits hsentence hnumeral
    subst hsentence
    constructor
    · exact fun most hmost => absurd hmost (Option.not_mem_none most)
    · intro most hmost
      rw [← Option.mem_some.mp hmost]
      exact Nat.le_of_not_lt fun hlong => hshort ⟨op, operand, digits, hs, hnumeral, hlong⟩
  rw [token?_eq_iff_reads]
  constructor
  · intro h
    cases h with
    | sentence hs hr =>
      have hswap := fun op operand digits heq hn => (hwithin hs op operand digits heq hn).symm
      exact .sentence hs (hr.change_limit hswap)
    | invalid hnone hlayout hadvice => exact .invalid hnone hlayout hadvice
  · intro h
    cases h with
    | sentence hs hr => exact .sentence hs (hr.change_limit (hwithin hs))
    | invalid hnone hlayout hadvice => exact .invalid hnone hlayout hadvice

/-- The limit on digits does not matter to a line that is not overlong. -/
theorem reads_unlimited_iff {l : SourceLine} {r : Except Refusal (Option Token)}
    (hshort : ¬ Overlong l.chars) : Reads none l r ↔ Reads (some digitLimit) l r := by
  rw [← SourceLine.token?_eq_iff_reads, SourceLine.token?_eq_iff_reads_unlimited hshort]

end Mailroom
