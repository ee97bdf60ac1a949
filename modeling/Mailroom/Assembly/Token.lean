import Mailroom.Diagnostic
import Mailroom.Opcode
import Mailroom.Text.Quoted

/-!
# Tokens

The statements of the assembly language.  A token is a label or an instruction, together
with the place and the source line that it was read from.

Main definitions:

- `Instruction` is an operation with the operand that its family takes.
- `Token` is a located label or instruction.
- `Instruction.text` and `Token.display` show them.
-/

namespace Mailroom

open Text

/-- An instruction in source form.  A plain operation may carry a remark where others have
their operand; it is shown and has no effect. -/
inductive Instruction
  | plain (op : PlainOp) (remark : Option String)
  | access (op : MailboxOp) (address : Int)
  | branch (op : BranchOp) (label : String)
  deriving DecidableEq, Repr

namespace Instruction

/-- The operation of an instruction. -/
def opcode : Instruction → Opcode
  | plain op _ => .plain op
  | access op _ => .mailbox op
  | branch op _ => .branch op

/-- The operand as it is shown. -/
def operandText : Instruction → Option String
  | plain _ remark => remark
  | access _ address => some (decimal address)
  | branch _ label => some label

/-- An instruction on one line: the mnemonic and the operand. -/
def text (i : Instruction) : String :=
  match i.operandText with
  | none => i.opcode.mnemonic
  | some operand => i.opcode.mnemonic ++ " " ++ operand

end Instruction

/-- A value read from a source line. -/
structure Located (α : Type) where
  value : α
  location : SourceLocation
  sourceLine : String
  deriving DecidableEq, Repr

/-- One statement of a source text. -/
inductive Token
  | label (name : Located String)
  | instruction (instruction : Located Instruction)
  deriving DecidableEq, Repr

namespace Token

/-- The place of a token. -/
def location : Token → SourceLocation
  | label name => name.location
  | instruction i => i.location

/-- The source line of a token. -/
def sourceLine : Token → String
  | label name => name.sourceLine
  | instruction i => i.sourceLine

/-- A token in one line: its kind, its value, and its line and column. -/
def display (t : Token) : String :=
  let value :=
    match t with
    | label name => "LABEL, " ++ quoted name.value
    | instruction i => "INSTRUCTION, " ++ i.value.text
  "Token(" ++ value ++ ", " ++ decimal t.location.line ++ ":" ++ decimal t.location.column ++
    ")"

end Token

end Mailroom
