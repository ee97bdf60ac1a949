import Mailroom.Proofs.Refusals

/-!
# A text after another

A source text is read line by line, and no line knows of the others.  So a text can be read up
to its end before the text after it, and the number of its first line only shows in the line
numbers of tokens and complaints.

Main definitions:

- `Reading.followedBy` goes on from one reading to the next.
- `Reading.down` moves a reading down by some lines.
- `lineAfter` is the number of the line after a text.

Main results:

- Theorem `Reading.ofLines_followedBy`: lines are read before the lines after them.
- Theorem `Reading.ofSource_append`: a text is read before the text after it, whose first line
  has the next number.
- Theorem `SourceLine.token?_down`: a line with another number is read as the same statement.
- Theorem `Reading.ofSource_down`: so is a text whose first line has another number.
- Theorem `Reading.ofSource_continued` joins them, and tells where a report shows the number.
-/

namespace Mailroom

open Text

/-! ## Further down -/

/-- The place some lines further down. -/
def SourceLocation.down (place : SourceLocation) (lines : Int) : SourceLocation :=
  ⟨place.file, place.line + lines, place.column⟩

/-- A value some lines further down. -/
def Located.down {α : Type} (x : Located α) (lines : Int) : Located α :=
  ⟨x.value, x.location.down lines, x.sourceLine⟩

/-- A token some lines further down. -/
def Token.down (t : Token) (lines : Int) : Token :=
  match t with
  | label name => .label (name.down lines)
  | instruction i => .instruction (i.down lines)

/-- A complaint in which all places are some lines further down. -/
def Complaint.down (c : Complaint) (lines : Int) : Complaint :=
  match c with
  | duplicateLabel label earlier => .duplicateLabel label (earlier.map (·.down lines))
  | other => other

/-- A diagnostic some lines further down. -/
def Diagnostic.down (d : Diagnostic) (lines : Int) : Diagnostic :=
  ⟨d.complaint.down lines, d.location.map (·.down lines), d.sourceLine, d.advice⟩

/-- A refusal some lines further down. -/
def Refusal.down (e : Refusal) (lines : Int) : Refusal :=
  match e with
  | report d => .report (d.down lines)
  | longNumeral cause => .longNumeral cause
  | badAddress cause => .badAddress cause

/-- A line that has more lines before it. -/
def SourceLine.down (l : SourceLine) (lines : Int) : SourceLine :=
  ⟨l.file, l.number + lines, l.chars⟩

namespace Reading

/-- A reading some lines further down. -/
def down (r : Reading) (lines : Int) : Reading :=
  ⟨r.tokens.map (·.down lines), r.refusal.map (·.down lines)⟩

/-- Go on from a reading to the next; a refusal ends them both. -/
def followedBy (r next : Reading) : Reading :=
  match r.refusal with
  | some _ => r
  | none => ⟨r.tokens ++ next.tokens, next.refusal⟩

end Reading

/-! ## Lines after lines -/

/-- The number of the line after a text whose first line has the given number. -/
def lineAfter (first : Int) (source : String) : Int :=
  first + 1 + source.toList.count '\n'

/-- Lines are read before the lines after them. -/
theorem Reading.ofLines_followedBy (first second : List SourceLine) :
    ofLines (first ++ second) = (ofLines first).followedBy (ofLines second) := by
  cases hrefusal : (ofLines first).refusal with
  | none => rw [ofLines_append hrefusal, followedBy, hrefusal]
  | some e => rw [ofLines_append_of_refusal hrefusal, followedBy, hrefusal]

/-- Lines have ascending numbers throughout. -/
theorem linesFrom_append (file : String) (number : Int) (first second : List (List Char)) :
    linesFrom file number (first ++ second) =
      linesFrom file number first ++ linesFrom file (number + first.length) second := by
  induction first generalizing number with
  | nil => simp [linesFrom]
  | cons raw rest ih =>
    have hnumber : number + ((rest.length + 1 : Nat) : Int) = number + 1 + rest.length := by
      omega
    rw [List.cons_append, linesFrom, ih, linesFrom, List.length_cons, hnumber, List.cons_append]

/-- There is one part more than there are places to divide at. -/
theorem length_splitOn (a : Char) (cs : List Char) : (cs.splitOn a).length = cs.count a + 1 := by
  induction cs with
  | nil => simp
  | cons c rest ih =>
    rw [List.splitOn_cons_eq_if_modifyHead, List.count_cons]
    by_cases hc : (c == a) = true
    · rw [if_pos hc, if_pos hc, List.length_cons, ih]
    · rw [if_neg hc, if_neg hc, List.length_modifyHead, ih, Nat.add_zero]

/-- The lines of two texts with a line feed between them are those of the one and then those of
the other. -/
theorem linesOf_append_feed (file : String) (first : Int) (source more : String) :
    linesOf file first (source ++ "\n" ++ more) =
      linesOf file first source ++
        linesOf file (lineAfter first source) more := by
  have hsplit : (source ++ "\n" ++ more).toList.splitOn '\n' =
      source.toList.splitOn '\n' ++ more.toList.splitOn '\n' := by
    rw [String.toList_append, String.toList_append, List.append_assoc]
    exact List.splitOn_append_cons_self _ _
  have hnumber : first + ((source.toList.count '\n' + 1 : Nat) : Int) =
      lineAfter first source := by
    rw [lineAfter]
    omega
  simp only [linesOf_eq_linesFrom, hsplit, linesFrom_append, length_splitOn, hnumber]

/-- A text is read before the text after it, whose first line has the next number. -/
theorem Reading.ofSource_append (file : String) (first : Int) (source more : String) :
    ofSource file first (source ++ "\n" ++ more) =
      (ofSource file first source).followedBy
        (ofSource file (lineAfter first source) more) := by
  rw [ofSource, linesOf_append_feed, ofLines_followedBy]
  rfl

/-! ## Lines further down -/

namespace SourceLine

/-- The operands of an instruction are read alike further down. -/
theorem instruction_down (l : SourceLine) (lines : Int) (op : Opcode)
    (operands : List (List Char)) :
    (l.down lines).instruction op operands =
      (l.instruction op operands).mapError (·.down lines) := by
  unfold instruction
  split
  next => rfl
  next => rfl
  next op number =>
    cases readUnsigned number with
    | error cause => cases cause <;> rfl
    | ok n =>
      by_cases hn : n ≤ maxOperand
      · simp only [if_pos hn, Except.mapError]
      · simp only [if_neg hn, Except.mapError]
        rfl
  next => rfl

/-- A label is read alike further down. -/
theorem label?_down (l : SourceLine) (lines : Int) (fields : Fields) :
    (l.down lines).label? fields =
      ((l.label? fields).map (Option.map (·.down lines))).mapError (·.down lines) := by
  unfold label?
  split <;> rfl

/-- A line is read as the same statement further down, or it is refused for the same reason. -/
theorem token?_down (l : SourceLine) (lines : Int) :
    (l.down lines).token? =
      (l.token?.map (Option.map (·.down lines))).mapError (·.down lines) := by
  have hstatement : (l.down lines).statement = l.statement := rfl
  unfold token?
  rw [hstatement]
  by_cases hnone : l.statement = []
  · rw [if_pos hnone, if_pos hnone]
    rfl
  · rw [if_neg hnone, if_neg hnone]
    simp only
    cases Opcode.ofMnemonic? (String.ofList (Fields.ofStatement l.statement).head) with
    | none => exact l.label?_down lines _
    | some op =>
      simp only [instruction_down]
      cases l.instruction op (Fields.ofStatement l.statement).operands <;> rfl

end SourceLine

/-- Lines are read alike further down. -/
theorem Reading.ofLines_down (lines : List SourceLine) (n : Int) :
    ofLines (lines.map (·.down n)) = (ofLines lines).down n := by
  induction lines with
  | nil => rfl
  | cons l rest ih =>
    rw [List.map_cons, ofLines, ofLines, l.token?_down n, ih]
    cases l.token? with
    | error e => rfl
    | ok found => cases found <;> rfl

/-- The lines of a text whose first line has another number are further down. -/
theorem linesOf_down (file : String) (first n : Int) (source : String) :
    linesOf file (first + n) source = (linesOf file first source).map (·.down n) := by
  simp only [linesOf, List.map_map]
  refine List.map_congr_left fun line _ => ?_
  have hnumber : first + n + (line.2 : Int) = first + line.2 + n := by omega
  simp only [Function.comp_apply, SourceLine.down, hnumber]

/-- A text is read alike further down. -/
theorem Reading.ofSource_down (file : String) (first n : Int) (source : String) :
    ofSource file (first + n) source = (ofSource file first source).down n := by
  rw [ofSource, linesOf_down, ofLines_down, ofSource]

/-! ## Reports further down -/

/-- A reading that is refused is refused for one of its lines. -/
theorem Reading.exists_line_of_refusal {lines : List SourceLine} {e : Refusal}
    (h : (ofLines lines).refusal = some e) : ∃ l ∈ lines, l.token? = .error e := by
  induction lines with
  | nil => contradiction
  | cons l rest ih =>
    have hlater : (ofLines rest).refusal = some e → ∃ k ∈ l :: rest, k.token? = .error e := by
      intro hrest
      obtain ⟨k, hk, hread⟩ := ih hrest
      exact ⟨k, List.mem_cons_of_mem _ hk, hread⟩
    unfold ofLines at h
    split at h
    next e' hline =>
      cases h
      exact ⟨l, List.mem_cons_self, hline⟩
    next => exact hlater h
    next => exact hlater h

/-- Further down, the report about a line differs in its heading only. -/
theorem Diagnostic.report_down {d : Diagnostic} {place : SourceLocation}
    (hplace : d.location = some place) (hform : d.complaint.IsSyntax) (lines : Int) :
    (d.down lines).report =
      ((place.down lines).text ++ ": error: " ++ d.complaint.message) :: d.report.tail := by
  obtain ⟨complaint, location, sourceLine, advice⟩ := d
  subst hplace
  cases complaint with
  | invalidInstruction text => rfl
  | badNumber text => rfl
  | mailboxOutOfRange => exact hform.elim
  | labelOutOfRange => exact hform.elim
  | undefinedLabel => exact hform.elim
  | duplicateLabel => exact hform.elim
  | remark => exact hform.elim

/-- What a text is refused for when it is read is a complaint about the form of a line, or a
numeral that is too long. -/
theorem Reading.refusal_ofSource {file source : String} {first : Int} {e : Refusal}
    (h : (ofSource file first source).refusal = some e) :
    (∃ d place, e = .report d ∧ d.location = some place ∧ d.complaint.IsSyntax) ∨
      ∃ cause, e = .longNumeral cause := by
  obtain ⟨l, -, hline⟩ := exists_line_of_refusal h
  obtain ⟨hform, hpoints⟩ := (SourceLine.token?_eq_iff_reads.mp hline).pointsAt_of_error
  rcases hpoints with ⟨d, rfl, -, -, indent, c, rest, -, -, -, hplace, -⟩ | hlong
  · exact .inl ⟨d, _, rfl, hplace, hform⟩
  · exact .inr hlong

/-- A text is read up to its end before the text after it, and a refusal of the first one ends the
reading.  The second text is read like anywhere else, with its line numbers counted on: tokens
keep their values, columns and source lines, and a complaint is the same one.  Its report differs
in the place in the heading only; a numeral that is too long is told without a place. -/
theorem Reading.ofSource_continued (file : String) (first : Int) (source more : String) :
    ofSource file first (source ++ "\n" ++ more) =
        (ofSource file first source).followedBy
          (ofSource file (lineAfter first source) more) ∧
      (∀ other, ofSource file (lineAfter first source) more =
        (ofSource file other more).down (lineAfter first source - other)) ∧
      ∀ other e, (ofSource file other more).refusal = some e →
        (∃ d place, e = .report d ∧ d.location = some place ∧
          ∀ lines, (d.down lines).location = some (place.down lines) ∧
            (d.down lines).report =
              ((place.down lines).text ++ ": error: " ++ d.complaint.message) ::
                d.report.tail) ∨
        ∃ cause, e = .longNumeral cause := by
  refine ⟨ofSource_append file first source more, fun other => ?_, fun other e he => ?_⟩
  · rw [← ofSource_down, Int.add_comm, Int.sub_add_cancel]
  · rcases refusal_ofSource he with ⟨d, place, rfl, hplace, hform⟩ | hlong
    · refine .inl ⟨d, place, rfl, hplace, fun lines => ⟨?_, d.report_down hplace hform lines⟩⟩
      rw [Diagnostic.down, hplace]
      rfl
    · exact .inr hlong

/-- After a text of two lines, of which the last one ends in a carriage return, a text is read
from the third line on. -/
theorem Reading.ofSource_continued_refused :
    ofSource "two" 7 (".A\r\nread\r" ++ "\n" ++ "\n add 256") =
      ⟨[.label ⟨"a", ⟨"two", 7, 1⟩, ".A"⟩,
        .instruction ⟨.plain .read none, ⟨"two", 8, 1⟩, "read"⟩],
        some (.report ⟨.badNumber "256", some ⟨"two", 10, 2⟩, some " add 256", none⟩)⟩ := by
  rw [(ofSource_continued "two" 7 ".A\r\nread\r" "\n add 256").1]
  decide +kernel

end Mailroom
