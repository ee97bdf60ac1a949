import Mailroom.Proofs.Refusals
import Mailroom.Proofs.SameLabels
import Mailroom.Proofs.Statements

/-!
# Texts with the same statements

What an assembler makes of a text depends on its statements.  Lines that say nothing can be left
out, and so can everything about a line that is not in its statement.  If a text is refused, then
because of one of its statements.

Main definitions:

- `SourceLine.said` is what a line says, or why it is refused, without its place.
- `statementLines` are the lines of a text that say something.
- `Refusal.IsAbout` says that a refusal is about a line.

Main results:

- Theorem `sameLabels_of_statements`: tokens with the same statements have the same labels.
- Theorem `Assembler.generate_of_statements`: they have the same words and symbols, or they are
  refused for the same reason.
- Theorem `Assembler.exists_refused_of_statements`: then the reason is the same one of their
  statements.
- Theorem `Assembler.assemble_of_statementLines`: so it is with texts that say the same.
-/

namespace Mailroom

open Text

/-! ## Tokens with the same statements -/

/-- The instruction in a statement. -/
def Statement.instruction? : Statement → Option Instruction
  | label _ => none
  | instruction i => some i

variable {tokens again : List Token}

/-- What the instructions of some tokens say is told by their statements. -/
theorem map_value_instructionsOf (tokens : List Token) :
    (instructionsOf tokens).map (·.value) =
      (tokens.map Token.statement).filterMap Statement.instruction? := by
  induction tokens with
  | nil => rfl
  | cons t rest ih =>
    cases t with
    | label name => exact ih
    | instruction i =>
      rw [instructionsOf_instruction, List.map_cons, ih]
      rfl

/-- Tokens with the same statements have instructions that say the same. -/
theorem map_value_of_statements (h : again.map Token.statement = tokens.map Token.statement) :
    (instructionsOf again).map (·.value) = (instructionsOf tokens).map (·.value) := by
  rw [map_value_instructionsOf, h, map_value_instructionsOf]

/-- A label on an instruction is one of the tokens, and in tokens with the same statements the
label in its place stands on the same instruction. -/
theorem exists_heads_of_statements
    (h : again.map Token.statement = tokens.map Token.statement) {label : Located String} {n : Nat}
    (hheads : Heads tokens label n) :
    ∃ (k : Nat) (label' : Located String), tokens[k]? = some (.label label) ∧
      again[k]? = some (.label label') ∧ Heads again label' n ∧ label'.value = label.value := by
  obtain ⟨before, i, after, rfl, rfl⟩ := hheads
  rw [List.map_append, List.map_cons, List.map_cons, List.map_eq_append_iff] at h
  obtain ⟨before', rest, rfl, hbefore, hrest⟩ := h
  obtain ⟨t, rest', rfl, ht, hrest'⟩ := List.map_eq_cons_iff.mp hrest
  obtain ⟨t', after', rfl, ht', -⟩ := List.map_eq_cons_iff.mp hrest'
  have hlength : before'.length = before.length := by
    simpa using congrArg List.length hbefore
  have hcount : (instructionsOf before').length = (instructionsOf before).length := by
    simpa using congrArg List.length (map_value_of_statements hbefore)
  cases t with
  | instruction => contradiction
  | label other =>
    cases t' with
    | label => contradiction
    | instruction j =>
      refine ⟨before.length, other, by simp, ?_, ⟨before', j, after', rfl, hcount⟩,
        Statement.label.inj ht⟩
      rw [← hlength]
      simp

/-- A name stands on the same instruction of tokens with the same statements. -/
theorem standsOn_of_statements (h : again.map Token.statement = tokens.map Token.statement)
    {x : String} {n : Nat} (hstands : StandsOn tokens x n) : StandsOn again x n := by
  obtain ⟨label, hheads, rfl⟩ := hstands
  obtain ⟨k, label', -, -, hheads', hvalue⟩ := exists_heads_of_statements h hheads
  exact ⟨label', hheads', hvalue⟩

/-- An instruction is one of the tokens, and in tokens with the same statements the token in its
place is an instruction that says the same, after others that say the same. -/
theorem exists_instruction_of_statements
    (h : again.map Token.statement = tokens.map Token.statement)
    {before after : List (Located Instruction)} {i : Located Instruction}
    (hsplit : instructionsOf tokens = before ++ i :: after) :
    ∃ (k : Nat) (j : Located Instruction) (before' after' : List (Located Instruction)),
      tokens[k]? = some (.instruction i) ∧ again[k]? = some (.instruction j) ∧
        instructionsOf again = before' ++ j :: after' ∧
        before'.map (·.value) = before.map (·.value) ∧ j.value = i.value := by
  obtain ⟨first, rest, rfl, hfirst, hrest⟩ := List.filterMap_eq_append_iff.mp hsplit
  obtain ⟨labels, t, last, rfl, hlabels, ht, -⟩ := List.filterMap_eq_cons_iff.mp hrest
  have hbefore : instructionsOf (first ++ labels) = before := by
    rw [instructionsOf, List.filterMap_append, hfirst, List.filterMap_eq_nil_iff.mpr hlabels,
      List.append_nil]
  rw [← List.append_assoc] at h ⊢
  rw [List.map_append, List.map_cons, List.map_eq_append_iff] at h
  obtain ⟨first', rest', rfl, hfirst', hrest'⟩ := h
  obtain ⟨t', last', rfl, ht', -⟩ := List.map_eq_cons_iff.mp hrest'
  have hlength : first'.length = (first ++ labels).length := by
    simpa using congrArg List.length hfirst'
  cases t with
  | label => contradiction
  | instruction =>
    obtain rfl := Option.some.inj ht
    cases t' with
    | label => contradiction
    | instruction j =>
      refine ⟨(first ++ labels).length, j, instructionsOf first', instructionsOf last',
        by simp, ?_, ?_, ?_, Statement.instruction.inj ht'⟩
      · rw [← hlength]
        simp
      · rw [instructionsOf, List.filterMap_append]
        rfl
      · rw [map_value_of_statements hfirst', hbefore]

/-- Tokens with the same statements have the same labels. -/
theorem sameLabels_of_statements (h : again.map Token.statement = tokens.map Token.statement) :
    SameLabels tokens again :=
  fun _ _ => ⟨standsOn_of_statements h, standsOn_of_statements h.symm⟩

/-- Tokens with the same statements have the same words and symbols, or they are refused for the
same reason. -/
theorem Assembler.generate_of_statements (a : Assembler)
    (h : again.map Token.statement = tokens.map Token.statement) :
    (a.generate again).2.outcome.mapError Refusal.placeless =
        (a.generate tokens).2.outcome.mapError Refusal.placeless ∧
      (a.generate again).1.build.symbols.indices =
        (a.generate tokens).1.build.symbols.indices := by
  obtain ⟨r, hgenerates, hr⟩ := (sameLabels_of_statements h).generates
    (map_value_of_statements h) (generates_generate a tokens)
  obtain ⟨houtcome, hsymbols⟩ := generate_of_generates hgenerates
  exact ⟨by rw [houtcome, hr], hsymbols⟩

/-- Of tokens with the same statements, without negative mailbox numbers, the same ones are
refused. -/
theorem Assembler.exists_refused_of_statements (a : Assembler)
    (h : again.map Token.statement = tokens.map Token.statement)
    (hnonneg : ∀ i op address, .instruction i ∈ tokens → i.value = .access op address →
      0 ≤ address)
    {e : Refusal} (hrefused : (a.generate tokens).2.outcome = .error e) :
    ∃ (k : Nat) (t t' : Token) (d d' : Diagnostic), tokens[k]? = some t ∧ again[k]? = some t' ∧
      e = .report d ∧ d.IsAt t ∧ (a.generate again).2.outcome = .error (.report d') ∧
      d'.IsAt t' ∧ d'.placeless = d.placeless := by
  have hsame := sameLabels_of_statements h
  have hgenerates := generates_generate a tokens
  rw [hrefused] at hgenerates
  generalize (a.generate tokens).1.build.symbols.indices = symbols at hgenerates
  cases hgenerates with
  | refused hstrict hsymbols hsplit hbefore hrefuses =>
    obtain ⟨k, j, before', after', hi, hj, hsplit', hvalues, hvalue⟩ :=
      exists_instruction_of_statements h hsplit
    obtain ⟨e', hrefuses', hagain, he⟩ :=
      hsame.refused hstrict hsymbols hbefore hrefuses hsplit' hvalues hvalue
    have hmem := List.mem_of_getElem? hi
    obtain ⟨d, rfl, -, hd⟩ := hrefuses.exists_isAt fun op address hi' =>
      hnonneg _ op address hmem hi'
    obtain ⟨d', rfl, -, hd'⟩ := hrefuses'.exists_isAt fun op address hj' =>
      hnonneg _ op address hmem (hvalue.symm.trans hj')
    exact ⟨k, _, _, d, d', hi, hj, rfl, hd, (generate_of_generates hagain).1, hd',
      Refusal.report.inj he⟩
  | duplicate hstrict hfirst =>
    obtain ⟨earlier', label', hfirst', hname⟩ := hsame.firstDuplicate hfirst
    obtain ⟨k, other, hlabel, hother, hheads, -⟩ := exists_heads_of_statements h hfirst.2.1
    obtain rfl := hheads.unique hfirst'.2.1
    refine ⟨k, _, _, _, _, hlabel, hother, rfl, ⟨rfl, rfl⟩,
      (generate_of_generates (.duplicate hstrict hfirst')).1, ⟨rfl, rfl⟩, ?_⟩
    simp only [Diagnostic.placeless, Mailroom.duplicate, hname]

/-! ## What lines say -/

/-- A complaint in which an invalid statement has its ASCII letters in lower case. -/
def Complaint.caseless : Complaint → Complaint
  | invalidInstruction text => .invalidInstruction (String.ofList (text.toList.map Char.toLower))
  | other => other

/-- A refusal in which an invalid statement has its ASCII letters in lower case. -/
def Refusal.caseless : Refusal → Refusal
  | report d => .report { d with complaint := d.complaint.caseless }
  | longNumeral cause => .longNumeral cause
  | badAddress cause => .badAddress cause

/-- A refusal without what depends on the layout of a text. -/
def Refusal.layoutless (e : Refusal) : Refusal :=
  e.placeless.caseless

/-- What a line says, or why it is refused, wherever it stands. -/
def SourceLine.said (l : SourceLine) : Except Refusal (Option Statement) :=
  (l.token?.map (Option.map Token.statement)).mapError Refusal.layoutless

/-- The lines of a text that say something. -/
def statementLines (file source : String) : List SourceLine :=
  (linesOf file 1 source).filter (·.said ≠ .ok none)

namespace SourceLine

variable {l l' : SourceLine}

/-- The statements of two lines are divided into the same fields, and they differ in the ASCII
case of letters only. -/
structure Resembles (l l' : SourceLine) : Prop where
  fields : Fields.ofStatement l'.statement = Fields.ofStatement l.statement
  letters : l'.statement.map Char.toLower = l.statement.map Char.toLower

/-- An invalid line is refused like one that resembles it. -/
theorem Resembles.invalid (h : l.Resembles l') (advice : Option String) :
    (l'.invalid advice).layoutless = (l.invalid advice).layoutless := by
  simp only [SourceLine.invalid, complain, Refusal.layoutless, Refusal.placeless,
    Diagnostic.placeless, Refusal.caseless, Complaint.caseless, String.toList_ofList, h.letters]

/-- The operands of an instruction are read alike on lines that resemble each other. -/
theorem Resembles.instruction (h : l.Resembles l') (op : Opcode) (operands : List (List Char)) :
    (l'.instruction op operands).mapError Refusal.layoutless =
      (l.instruction op operands).mapError Refusal.layoutless := by
  unfold SourceLine.instruction
  split
  next => rfl
  next => rfl
  next op number =>
    cases readUnsigned number with
    | error cause => cases cause <;> rfl
    | ok n =>
      by_cases hn : n ≤ maxOperand
      · simp only [if_pos hn]
      · simp only [if_neg hn]
        rfl
  next => exact congrArg Except.error (h.invalid _)

/-- A label is read alike on lines that resemble each other. -/
theorem Resembles.label? (h : l.Resembles l') (fields : Fields) :
    ((l'.label? fields).map (Option.map Token.statement)).mapError Refusal.layoutless =
      ((l.label? fields).map (Option.map Token.statement)).mapError Refusal.layoutless := by
  unfold SourceLine.label?
  split
  next => rfl
  next => rfl
  next => exact congrArg Except.error (h.invalid _)
  next => exact congrArg Except.error (h.invalid _)

/-- Lines that resemble each other say the same. -/
theorem Resembles.said (h : l.Resembles l') : l'.said = l.said := by
  have hblank : l'.statement = [] ↔ l.statement = [] := by
    rw [← List.map_eq_nil_iff (f := Char.toLower), h.letters, List.map_eq_nil_iff]
  unfold SourceLine.said token?
  by_cases hnone : l.statement = []
  · rw [if_pos hnone, if_pos (hblank.mpr hnone)]
  · rw [if_neg hnone, if_neg (mt hblank.mp hnone), h.fields]
    simp only
    cases Opcode.ofMnemonic? (String.ofList (Fields.ofStatement l.statement).head) with
    | none => exact h.label? _
    | some op =>
      rcases exists_of_mapError_eq (h.instruction op (Fields.ofStatement l.statement).operands) with
        ⟨i, hi, hi'⟩ | ⟨e, e', he, he', hsame⟩
      · simp only [hi, hi']
        rfl
      · simp only [he, he']
        exact congrArg Except.error hsame

/-- A line says nothing if and only if it is read as no token. -/
theorem said_eq_silence_iff : l.said = .ok none ↔ l.token? = .ok none := by
  unfold said
  cases l.token? with
  | error e => exact ⟨nofun, nofun⟩
  | ok found =>
    cases found with
    | none => exact ⟨fun _ => rfl, fun _ => rfl⟩
    | some t => exact ⟨nofun, nofun⟩

/-- A line says a statement if and only if it is read as a token with this statement. -/
theorem said_eq_statement_iff {s : Statement} :
    l.said = .ok (some s) ↔ ∃ t, l.token? = .ok (some t) ∧ t.statement = s := by
  unfold said
  cases l.token? with
  | error e => exact ⟨nofun, nofun⟩
  | ok found =>
    cases found with
    | none => exact ⟨nofun, nofun⟩
    | some t =>
      constructor
      · exact fun h => ⟨t, rfl, Option.some.inj (Except.ok.inj h)⟩
      · rintro ⟨_, ht, rfl⟩
        cases ht
        rfl

/-- A line says nothing that can be read if and only if it is refused. -/
theorem said_eq_error_iff {e : Refusal} :
    l.said = .error e ↔ ∃ cause, l.token? = .error cause ∧ cause.layoutless = e := by
  unfold said
  cases l.token? with
  | ok found => exact ⟨nofun, nofun⟩
  | error cause =>
    constructor
    · exact fun h => ⟨cause, rfl, Except.error.inj h⟩
    · rintro ⟨_, hcause, rfl⟩
      cases hcause
      rfl

end SourceLine

/-! ## Reading what lines say -/

/-- Lines are read as tokens, one for each line. -/
def ReadAs (lines : List SourceLine) (tokens : List Token) : Prop :=
  List.Forall₂ (fun l t => l.token? = .ok (some t)) lines tokens

section Lines

variable {lines lines' : List SourceLine} {tokens : List Token}

/-- Lines that say nothing can be left out. -/
theorem Reading.ofLines_filter_said (lines : List SourceLine) :
    ofLines (lines.filter (·.said ≠ .ok none)) = ofLines lines := by
  induction lines with
  | nil => rfl
  | cons l rest ih =>
    by_cases hsilent : l.said = .ok none
    · rw [List.filter_cons_of_neg (by simpa using hsilent), ih, ofLines,
        SourceLine.said_eq_silence_iff.mp hsilent]
    · rw [List.filter_cons_of_pos (by simpa using hsilent), ofLines, ofLines, ih]

/-- Lines that are read as tokens make up a reading of these tokens. -/
theorem ReadAs.ofLines (h : ReadAs lines tokens) : Reading.ofLines lines = ⟨tokens, none⟩ := by
  induction h with
  | nil => rfl
  | cons hline _ ih => rw [Reading.ofLines, hline, ih]

/-- Behind lines that are read as tokens, a line that is refused ends the reading. -/
theorem ReadAs.ofLines_of_refused (h : ReadAs lines tokens) {l : SourceLine} {e : Refusal}
    (hline : l.token? = .error e) (rest : List SourceLine) :
    Reading.ofLines (lines ++ l :: rest) = ⟨tokens, some e⟩ := by
  rw [Reading.ofLines_append (by rw [h.ofLines]), h.ofLines, Reading.ofLines, hline]
  simp

/-- Lines that all say something are read as tokens, or there is a first one that is refused. -/
theorem exists_readAs_or_refused (hspeak : ∀ l ∈ lines, l.said ≠ .ok none) :
    (∃ tokens, ReadAs lines tokens) ∨
      ∃ before l after tokens e, lines = before ++ l :: after ∧ ReadAs before tokens ∧
        l.token? = .error e := by
  induction lines with
  | nil => exact .inl ⟨[], .nil⟩
  | cons l rest ih =>
    have hl := hspeak l List.mem_cons_self
    rw [ne_eq, SourceLine.said_eq_silence_iff] at hl
    cases hline : l.token? with
    | error e => exact .inr ⟨[], l, rest, [], e, rfl, .nil, hline⟩
    | ok found =>
      cases found with
      | none => exact absurd hline hl
      | some t =>
        rcases ih fun k hk => hspeak k (List.mem_cons_of_mem _ hk) with
          ⟨tokens, hread⟩ | ⟨before, k, after, tokens, e, rfl, hread, hk⟩
        · exact .inl ⟨t :: tokens, .cons hline hread⟩
        · exact .inr ⟨l :: before, k, after, t :: tokens, e, rfl, .cons hline hread, hk⟩

/-- Lines that say the same as lines that are read as tokens are read as tokens with the same
statements. -/
theorem ReadAs.exists_of_said (h : ReadAs lines tokens)
    (hsaid : lines'.map SourceLine.said = lines.map SourceLine.said) :
    ∃ again, ReadAs lines' again ∧ again.map Token.statement = tokens.map Token.statement := by
  induction h generalizing lines' with
  | nil =>
    rw [List.map_nil, List.map_eq_nil_iff] at hsaid
    subst hsaid
    exact ⟨[], .nil, rfl⟩
  | @cons l t lines tokens hline _ ih =>
    obtain ⟨l', rest', rfl, hl', hrest'⟩ := List.map_eq_cons_iff.mp hsaid
    rw [SourceLine.said_eq_statement_iff.mpr ⟨t, hline, rfl⟩] at hl'
    obtain ⟨t', hline', ht'⟩ := SourceLine.said_eq_statement_iff.mp hl'
    obtain ⟨again, hread, hagain⟩ := ih hrest'
    exact ⟨t' :: again, .cons hline' hread, by rw [List.map_cons, List.map_cons, ht', hagain]⟩

/-- A token stands on the line that it is read from. -/
theorem ReadAs.getElem? (h : ReadAs lines tokens) {k : Nat} {t : Token}
    (ht : tokens[k]? = some t) : ∃ l, lines[k]? = some l ∧ l.token? = .ok (some t) := by
  induction h generalizing k with
  | nil => simp at ht
  | @cons l s _ _ hline _ ih =>
    cases k with
    | zero =>
      obtain rfl := Option.some.inj ht
      exact ⟨l, rfl, hline⟩
    | succ k => exact ih ht

/-- No mailbox number that is read from a line is negative. -/
theorem ReadAs.nonneg (h : ReadAs lines tokens) {i : Located Instruction} {op : MailboxOp}
    {address : Int} (hi : .instruction i ∈ tokens) (hvalue : i.value = .access op address) :
    0 ≤ address := by
  obtain ⟨k, hk⟩ := List.mem_iff_getElem?.mp hi
  obtain ⟨l, -, hline⟩ := h.getElem? hk
  exact (SourceLine.token?_eq_iff_reads.mp hline).nonneg_of_access hvalue

end Lines

/-! ## Assembling what lines say -/

/-- A refusal is about a line: the line is refused for it, or its report points at the line. -/
def Refusal.IsAbout (e : Refusal) (l : SourceLine) : Prop :=
  l.token? = .error e ∨ ∃ d, e = .report d ∧ d.PointsAt l

/-- What is said about a token is about the line that the token is read from. -/
theorem Diagnostic.IsAt.isAbout {d : Diagnostic} {t : Token} (h : d.IsAt t) {l : SourceLine}
    (hline : l.token? = .ok (some t)) : (Refusal.report d).IsAbout l :=
  .inr ⟨d, rfl, (SourceLine.token?_eq_iff_reads.mp hline).pointsAt_of_token h⟩

/-- A text is read from the lines that say something. -/
theorem Reading.ofSource_eq_statementLines (file source : String) :
    ofSource file 1 source = ofLines (statementLines file source) := by
  rw [ofSource, statementLines, ofLines_filter_said]

/-- Refusals of two texts with these lines are for the same reason, and about the same one of the
statements. -/
def SameCause (lines lines' : List SourceLine) (e e' : Refusal) : Prop :=
  e'.layoutless = e.layoutless ∧ ∃ (k : Nat) (l l' : SourceLine), lines[k]? = some l ∧
    lines'[k]? = some l' ∧ l'.said = l.said ∧ e.IsAbout l ∧ e'.IsAbout l'

section Lines

variable {lines lines' : List SourceLine} {tokens again : List Token}

/-- Lines that are read as tokens with the same statements are refused for the same one of them. -/
theorem ReadAs.sameCause (hread : ReadAs lines tokens) (hread' : ReadAs lines' again)
    (hagain : again.map Token.statement = tokens.map Token.statement) (a : Assembler) {e : Refusal}
    (hrefused : (a.generate tokens).2.outcome = .error e) :
    ∃ e', (a.generate again).2.outcome = .error e' ∧ SameCause lines lines' e e' := by
  obtain ⟨k, t, t', d, d', ht, ht', rfl, hd, hrefused', hd', hsame⟩ :=
    a.exists_refused_of_statements hagain (fun _ _ _ => hread.nonneg) hrefused
  obtain ⟨l, hl, hline⟩ := hread.getElem? ht
  obtain ⟨l', hl', hline'⟩ := hread'.getElem? ht'
  have hstatement : t'.statement = t.statement := by
    have hget := congrArg (·[k]?) hagain
    simpa [ht, ht'] using hget
  refine ⟨_, hrefused', congrArg (Refusal.caseless ∘ Refusal.report) hsame, k, l, l', hl, hl', ?_,
    hd.isAbout hline, hd'.isAbout hline'⟩
  rw [SourceLine.said_eq_statement_iff.mpr ⟨t, hline, rfl⟩]
  exact SourceLine.said_eq_statement_iff.mpr ⟨t', hline', hstatement⟩

/-- Lines that say the same as lines of which one is refused are refused for the same one. -/
theorem ReadAs.exists_refused {before after : List SourceLine} {l : SourceLine} {e : Refusal}
    (hread : ReadAs before tokens) (hline : l.token? = .error e)
    (hsaid : lines'.map SourceLine.said = (before ++ l :: after).map SourceLine.said) :
    ∃ again e', Reading.ofLines lines' = ⟨again, some e'⟩ ∧
      SameCause (before ++ l :: after) lines' e e' := by
  rw [List.map_append, List.map_cons, List.map_eq_append_iff] at hsaid
  obtain ⟨before', rest', rfl, hbefore, hrest⟩ := hsaid
  obtain ⟨l', after', rfl, hl', -⟩ := List.map_eq_cons_iff.mp hrest
  obtain ⟨again, hread', -⟩ := hread.exists_of_said hbefore
  have hlength : before'.length = before.length := by
    simpa using congrArg List.length hbefore
  have hrefused : l'.said = .error e.layoutless :=
    hl'.trans (SourceLine.said_eq_error_iff.mpr ⟨e, hline, rfl⟩)
  obtain ⟨e', hline', he'⟩ := SourceLine.said_eq_error_iff.mp hrefused
  refine ⟨again, e', hread'.ofLines_of_refused hline' after', he', before.length, l, l', by simp,
    ?_, hl', .inl hline, .inl hline'⟩
  rw [← hlength]
  simp

end Lines

/-- Texts that say the same are assembled alike, under whatever names.  They have the same words and
the same symbols, or they are refused for the same reason, and this is about the same statement. -/
theorem Assembler.assemble_of_statementLines (a : Assembler) {file other source edited : String}
    (hsaid : (statementLines other edited).map SourceLine.said =
      (statementLines file source).map SourceLine.said) :
    (∀ words, (a.assemble other edited).2.outcome = .ok words ↔
        (a.assemble file source).2.outcome = .ok words) ∧
      (a.assemble other edited).1.build.symbols.indices =
        (a.assemble file source).1.build.symbols.indices ∧
      ∀ e, (a.assemble file source).2.outcome = .error e →
        ∃ e', (a.assemble other edited).2.outcome = .error e' ∧
          SameCause (statementLines file source) (statementLines other edited) e e' := by
  have hspeak : ∀ l ∈ statementLines file source, l.said ≠ .ok none := by
    intro l hl
    simpa using (List.mem_filter.mp hl).2
  have hsource := Reading.ofSource_eq_statementLines file source
  have hedited := Reading.ofSource_eq_statementLines other edited
  generalize statementLines file source = lines at *
  generalize statementLines other edited = lines' at *
  rcases exists_readAs_or_refused hspeak with
    ⟨tokens, hread⟩ | ⟨before, l, after, tokens, e, rfl, hread, hline⟩
  · obtain ⟨again, hread', hagain⟩ := hread.exists_of_said hsaid
    rw [hread.ofLines] at hsource
    rw [hread'.ofLines] at hedited
    rw [a.outcome_of_reading hsource, a.outcome_of_reading hedited, a.left_of_reading hsource,
      a.left_of_reading hedited]
    obtain ⟨houtcome, hsymbols⟩ := a.generate_of_statements hagain
    exact ⟨ok_iff_of_mapError_eq houtcome, hsymbols, fun e => hread.sameCause hread' hagain a⟩
  · obtain ⟨again, e', hagain, hcause⟩ := hread.exists_refused hline hsaid
    rw [hread.ofLines_of_refused hline] at hsource
    rw [hagain] at hedited
    rw [a.assemble_of_refused_line hsource, a.assemble_of_refused_line hedited]
    refine ⟨fun _ => ⟨nofun, nofun⟩, rfl, fun cause hrefused => ?_⟩
    cases hrefused
    exact ⟨e', rfl, hcause⟩

end Mailroom
