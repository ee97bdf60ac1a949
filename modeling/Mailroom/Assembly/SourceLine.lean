import Mailroom.Assembly.Refusal
import Mailroom.Assembly.Token
import Mailroom.Text.Blank
import Mailroom.Text.Lowercase
import Mailroom.Text.Similarity

/-!
# Source lines

The assembly language is read line by line.  A line holds one statement or none:

- everything from the first semicolon on is a comment;
- a first field that is a mnemonic makes an instruction, whose operands follow, separated
  by commas;
- a first field that begins with a period makes a label.

The first field is lower-cased; branch targets stay as they are written.

Main definitions:

- `SourceLine.token?` reads a line.
- `linesOf` divides a text into lines, and `Reading.ofSource` reads them all up to the
  first line that is refused.
-/

namespace Mailroom

open Text

/-- A line of a named source text, without its line end. -/
structure SourceLine where
  file : String
  number : Int
  chars : List Char
  deriving DecidableEq, Repr

/-- The statement part of a line, divided into fields. -/
structure Fields where
  head : List Char
  operands : List (List Char)
  deriving DecidableEq, Repr

/-- The greatest number that can be written as an operand. -/
def maxOperand : Nat :=
  255

namespace SourceLine

/-- The line as text. -/
def text (l : SourceLine) : String :=
  String.ofList l.chars

/-- The statement part of a line: what stands before the comment, without blanks at its
ends. -/
def statement (l : SourceLine) : List Char :=
  trim (l.chars.takeWhile (· ≠ ';'))

/-- The column of the first character that is no blank. -/
def column (l : SourceLine) : Nat :=
  (l.chars.takeWhile isBlank).length + 1

/-- The place of the statement. -/
def location (l : SourceLine) : SourceLocation :=
  ⟨l.file, l.number, l.column⟩

/-- Locate a value on a line. -/
def locate {α : Type} (l : SourceLine) (value : α) : Located α :=
  ⟨value, l.location, l.text⟩

/-- A complaint about a line. -/
def complain (l : SourceLine) (complaint : Complaint) (advice : Option String) : Refusal :=
  .report ⟨complaint, some l.location, some l.text, advice⟩

/-- A line that is neither an instruction nor a label. -/
def invalid (l : SourceLine) (advice : Option String) : Refusal :=
  l.complain (.invalidInstruction (String.ofList l.statement)) advice

/-- An operand that is no number from 0 to 255. -/
def badNumber (l : SourceLine) (operand : List Char) : Refusal :=
  l.complain (.badNumber (String.ofList operand)) none

end SourceLine

/-! ## Fields -/

/-- The operands in a text: its parts between commas, without blanks at their ends; empty
parts do not count. -/
def operandsOf (cs : List Char) : List (List Char) :=
  ((cs.splitOn ',').map trim).filter (· ≠ [])

/-- Divide a statement after its first field, which is lower-cased. -/
def Fields.ofStatement (statement : List Char) : Fields :=
  ⟨lower (statement.takeWhile (!isBlank ·)), operandsOf (statement.dropWhile (!isBlank ·))⟩

/-! ## Statements -/

namespace SourceLine

/-- Read the operands of an instruction. -/
def instruction (l : SourceLine) (op : Opcode) (operands : List (List Char)) :
    Except Refusal Instruction :=
  match op, operands with
  | .plain op, [] => .ok (.plain op none)
  | .branch op, [label] => .ok (.branch op (String.ofList label))
  | .mailbox op, [number] =>
    match readUnsigned number with
    | .error (.tooLong cause) => .error (.longNumeral cause)
    | .error .malformed => .error (l.badNumber number)
    | .ok n => if n ≤ maxOperand then .ok (.access op n) else .error (l.badNumber number)
  | op, _ =>
    .error (l.invalid (some (inQuotes op.mnemonic ++ " takes " ++ op.kind.description)))

/-- Read a first field that is no mnemonic, and the operands after it.  A period alone is
a label without a name, and makes no token. -/
def label? (l : SourceLine) (fields : Fields) : Except Refusal (Option Token) :=
  match fields.head, fields.operands with
  | '.' :: [], [] => .ok none
  | '.' :: name, [] => .ok (some (.label (l.locate (String.ofList name))))
  | '.' :: _, _ => .error (l.invalid (some "a label must be on a line of its own"))
  | head, _ =>
    .error (l.invalid (didYouMean " or " (closeMatches head Opcode.sortedMnemonics)))

/-- Read one line.  A blank line, a comment and a label without a name give no token. -/
def token? (l : SourceLine) : Except Refusal (Option Token) :=
  if l.statement = [] then .ok none
  else
    let fields := Fields.ofStatement l.statement
    match Opcode.ofMnemonic? (String.ofList fields.head) with
    | some op =>
      (l.instruction op fields.operands).map fun i => some (.instruction (l.locate i))
    | none => l.label? fields

end SourceLine

/-! ## Whole texts -/

/-- The lines of a text: it is divided at line feeds, and carriage returns at the end of a
line are dropped. -/
def linesOf (file : String) (first : Int) (source : String) : List SourceLine :=
  (source.toList.splitOn '\n').zipIdx.map fun line =>
    ⟨file, first + line.2, dropTrailing (· = '\r') line.1⟩

/-- The tokens before the first line that is refused, and what is wrong with that line. -/
structure Reading where
  tokens : List Token
  refusal : Option Refusal
  deriving DecidableEq, Repr

namespace Reading

/-- Read lines up to the first one that is refused. -/
def ofLines : List SourceLine → Reading
  | [] => ⟨[], none⟩
  | l :: rest =>
    match l.token? with
    | .error e => ⟨[], some e⟩
    | .ok none => ofLines rest
    | .ok (some t) =>
      let r := ofLines rest
      ⟨t :: r.tokens, r.refusal⟩

/-- Lines that are read to their end do not change how the lines after them are read. -/
theorem ofLines_append {first second : List SourceLine}
    (h : (ofLines first).refusal = none) :
    ofLines (first ++ second) =
      ⟨(ofLines first).tokens ++ (ofLines second).tokens, (ofLines second).refusal⟩ := by
  induction first with
  | nil => rfl
  | cons l rest ih =>
    cases ht : l.token? with
    | error e => simp [ofLines, ht] at h
    | ok found =>
      cases found with
      | none =>
        simp only [ofLines, ht] at h
        simp only [List.cons_append, ofLines, ht, ih h]
      | some t =>
        simp only [ofLines, ht] at h
        simp only [List.cons_append, ofLines, ht, ih h]

/-- Nothing after a line that is refused is read. -/
theorem ofLines_append_of_refusal {first : List SourceLine} {e : Refusal}
    (h : (ofLines first).refusal = some e) (second : List SourceLine) :
    ofLines (first ++ second) = ofLines first := by
  induction first with
  | nil => simp [ofLines] at h
  | cons l rest ih =>
    cases ht : l.token? with
    | error e => simp only [List.cons_append, ofLines, ht]
    | ok found =>
      cases found with
      | none =>
        simp only [ofLines, ht] at h
        simp only [List.cons_append, ofLines, ht, ih h]
      | some t =>
        simp only [ofLines, ht] at h
        simp only [List.cons_append, ofLines, ht, ih h]

/-- Read a text whose first line has the given number. -/
def ofSource (file : String) (first : Int) (source : String) : Reading :=
  ofLines (linesOf file first source)

/-- The tokens of a text that is read to its end. -/
def toExcept (r : Reading) : Except Refusal (List Token) :=
  match r.refusal with
  | some e => .error e
  | none => .ok r.tokens

end Reading

end Mailroom
