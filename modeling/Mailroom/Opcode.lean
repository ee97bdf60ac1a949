/-!
# Operation codes

The eleven operations of the decimal machine.  They come in three families: plain
operations stand alone, mailbox operations name one of the hundred mailboxes, and
branch operations name the place where execution goes on.

Main definitions:

- `Opcode` joins the three families, and `Opcode.all` lists them in table order.
- `Opcode.mnemonic`, `Opcode.base` and `Opcode.kind` are the columns of the table.
- `Opcode.ofMnemonic?` finds an operation by its mnemonic.
-/

namespace Mailroom

/-! ## The three families -/

/-- Operations that take no operand. -/
inductive PlainOp
  | stop
  | read
  | print
  deriving DecidableEq, Repr

/-- Operations on one mailbox. -/
inductive MailboxOp
  | add
  | sub
  | store
  | storeAddress
  | load
  deriving DecidableEq, Repr

/-- Operations that may move the instruction counter. -/
inductive BranchOp
  | always
  | ifZero
  | ifPositive
  deriving DecidableEq, Repr

/-- One operation of the machine. -/
inductive Opcode
  | plain (op : PlainOp)
  | mailbox (op : MailboxOp)
  | branch (op : BranchOp)
  deriving DecidableEq, Repr

/-- What an operation takes as its operand in source text. -/
inductive OperandKind
  | none
  | mailbox
  | label
  deriving DecidableEq, Repr

/-- The wording for an operand kind in hints. -/
def OperandKind.description : OperandKind → String
  | .none => "no operand"
  | .mailbox => "a mailbox number"
  | .label => "a label"

/-- The number of operands in source text. -/
def OperandKind.arity : OperandKind → Nat
  | .none => 0
  | .mailbox => 1
  | .label => 1

/-! ## The mnemonic and the base of each operation -/

/-- The mnemonic of a plain operation. -/
def PlainOp.mnemonic : PlainOp → String
  | .stop => "stop"
  | .read => "read"
  | .print => "print"

/-- The mnemonic of a mailbox operation. -/
def MailboxOp.mnemonic : MailboxOp → String
  | .add => "add"
  | .sub => "sub"
  | .store => "sto"
  | .storeAddress => "sta"
  | .load => "load"

/-- The mnemonic of a branch operation. -/
def BranchOp.mnemonic : BranchOp → String
  | .always => "b"
  | .ifZero => "bz"
  | .ifPositive => "bp"

/-- The word of a plain operation. -/
def PlainOp.base : PlainOp → Nat
  | .stop => 0
  | .read => 901
  | .print => 902

/-- The word of a mailbox operation on mailbox 0. -/
def MailboxOp.base : MailboxOp → Nat
  | .add => 100
  | .sub => 200
  | .store => 300
  | .storeAddress => 400
  | .load => 500

/-- The word of a branch operation to mailbox 0. -/
def BranchOp.base : BranchOp → Nat
  | .always => 600
  | .ifZero => 700
  | .ifPositive => 800

/-! ## The table -/

namespace Opcode

/-- The source mnemonic, in lower case. -/
def mnemonic : Opcode → String
  | plain op => op.mnemonic
  | mailbox op => op.mnemonic
  | branch op => op.mnemonic

/-- The word with operand 0. -/
def base : Opcode → Nat
  | plain op => op.base
  | mailbox op => op.base
  | branch op => op.base

/-- The kind of operand that the operation takes. -/
def kind : Opcode → OperandKind
  | plain _ => .none
  | mailbox _ => .mailbox
  | branch _ => .label

/-- The name of the operation in the execution trace. -/
def name : Opcode → String
  | plain .stop => "STOP"
  | mailbox .add => "ADD"
  | mailbox .sub => "SUB"
  | mailbox .store => "STORE"
  | mailbox .storeAddress => "STORE_ADDRESS"
  | mailbox .load => "LOAD"
  | branch .always => "BRANCH"
  | branch .ifZero => "BRANCH_IF_ZERO"
  | branch .ifPositive => "BRANCH_IF_POSITIVE"
  | plain .read => "READ"
  | plain .print => "PRINT"

/-- Every operation, in increasing order of base. -/
def all : List Opcode :=
  [plain .stop, mailbox .add, mailbox .sub, mailbox .store, mailbox .storeAddress,
    mailbox .load, branch .always, branch .ifZero, branch .ifPositive, plain .read,
    plain .print]

/-- The table lists every operation. -/
@[simp] theorem mem_all (op : Opcode) : op ∈ all := by
  rcases op with op | op | op <;> cases op <;> decide

/-- The operation with the given mnemonic. -/
def ofMnemonic? (text : String) : Option Opcode :=
  all.find? (·.mnemonic == text)

/-- The mnemonics in code point order. -/
def sortedMnemonics : List String :=
  (all.map mnemonic).mergeSort (fun a b => decide (a ≤ b))

end Opcode

end Mailroom
