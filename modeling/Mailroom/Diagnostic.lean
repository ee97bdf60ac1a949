import Mailroom.Text.Numeral

/-!
# Diagnostics

What the assembler says about a source text that it refuses: the cause, the place, the
source line with a caret under the place, and a hint.

Main definitions:

- `SourceLocation` is a place in a named text, and `SourceLocation.excerpt` quotes a line
  with a caret.
- `Complaint` lists the causes, and `Complaint.message` words them.
- `Diagnostic` joins a complaint with its place; `Diagnostic.report` is the whole report.
-/

namespace Mailroom

open Text

/-! ## Places -/

/-- A place in a source text.  Lines and columns are counted from 1. -/
structure SourceLocation where
  file : String
  line : Int
  column : Int
  deriving DecidableEq, Repr

namespace SourceLocation

/-- The written form of a place. -/
def text (l : SourceLocation) : String :=
  l.file ++ ":" ++ decimal l.line ++ ":" ++ decimal l.column

/-- A source line, indented, above a caret in the column of the place.  Columns below 1
count as 1. -/
def excerpt (l : SourceLocation) (sourceLine : String) (indent : Nat) : List String :=
  let margin := String.ofList (List.replicate indent ' ')
  [margin ++ sourceLine,
    margin ++ String.ofList (List.replicate (l.column - 1).toNat ' ') ++ "^"]

end SourceLocation

/-- The indentation of quoted source lines in reports. -/
def reportIndent : Nat :=
  4

/-! ## Causes -/

/-- The part of the assembler that makes a general remark. -/
inductive Phase
  | reading
  | encoding
  deriving DecidableEq, Repr

/-- Why a source text is refused. -/
inductive Complaint
  /-- A line is neither an instruction nor a label. -/
  | invalidInstruction (text : String)
  /-- An operand is not a number from 0 to 255. -/
  | badNumber (text : String)
  /-- An operand names no mailbox. -/
  | mailboxOutOfRange (index : Int)
  /-- A label stands on an instruction that no branch can reach. -/
  | labelOutOfRange (label : String) (index : Int)
  /-- A branch names a label that stands on no instruction. -/
  | undefinedLabel (label : String) (similar : List String)
  /-- A label stands on two instructions. -/
  | duplicateLabel (label : String) (earlier : Option SourceLocation)
  /-- A general remark, of one phase or of the assembler as a whole. -/
  | remark (phase : Option Phase) (message : String)
  deriving DecidableEq, Repr

/-- A name between single quotes, as it stands. -/
def inQuotes (text : String) : String :=
  "'" ++ text ++ "'"

namespace Complaint

/-- The wording of a cause. -/
def message : Complaint → String
  | invalidInstruction text => "invalid instruction " ++ inQuotes text
  | badNumber text => "cannot parse operand " ++ inQuotes text ++ " as a number in 0-255"
  | mailboxOutOfRange index => "mailbox index " ++ decimal index ++ " is out of range (0-99)"
  | labelOutOfRange label index =>
    "label " ++ inQuotes label ++ " resolves to index " ++ decimal index ++
      ", beyond mailbox 99"
  | undefinedLabel label _ => "undefined label " ++ inQuotes label
  | duplicateLabel label _ => "duplicate label " ++ inQuotes label
  | remark _ message => message

end Complaint

/-- The question whether one of some names was meant, with the names joined by the given
text; nothing when there are no names. -/
def didYouMean (joint : String) : List String → Option String
  | [] => none
  | names => some ("did you mean " ++ joint.intercalate (names.map inQuotes) ++ "?")

/-! ## Reports -/

/-- A cause together with the place, the source line and the advice that are known. -/
structure Diagnostic where
  complaint : Complaint
  location : Option SourceLocation
  sourceLine : Option String
  advice : Option String
  deriving DecidableEq, Repr

namespace Diagnostic

/-- The hint of a diagnostic.  The complaints about labels have hints of their own: up to
three similar labels unless other advice was given, and the place of the
earlier definition. -/
def hint (d : Diagnostic) : Option String :=
  match d.complaint with
  | .undefinedLabel _ similar =>
    if d.advice.getD "" = "" then (didYouMean ", " (similar.take 3)).or d.advice else d.advice
  | .duplicateLabel label earlier =>
    earlier.map fun l => inQuotes label ++ " was first defined at " ++ l.text
  | _ => d.advice

/-- The line for the hint; an empty hint gives none. -/
def hintLines (d : Diagnostic) : List String :=
  match d.hint with
  | none => []
  | some hint => if hint = "" then [] else ["hint: " ++ hint]

/-- The lines of the report.  The source line is quoted only below a place. -/
def report (d : Diagnostic) : List String :=
  match d.location with
  | none => ("error: " ++ d.complaint.message) :: d.hintLines
  | some l =>
    let quotation :=
      match d.sourceLine with
      | none => []
      | some line => l.excerpt line reportIndent
    (l.text ++ ": error: " ++ d.complaint.message) :: quotation ++ d.hintLines

/-- The report as one text. -/
def text (d : Diagnostic) : String :=
  "\n".intercalate d.report

end Diagnostic

end Mailroom
