import Mailroom.Order
import Mailroom.Slice
import Mailroom.Table
import Mailroom.Text.Numeral

/-!
# Disassembly

Words as text.  A word that is no order is shown as data, and a branch shows the name of
its target.

Main definitions:

- `Names` holds the known names of mailboxes; `Names.labelFor` names every mailbox.
- `Disassembled` is one word with its address, and `Disassembled.text` its line.
- `disassemble` takes a list of words apart, and `disassemblyText` adds label lines.
-/

namespace Mailroom

open Text

/-! ## Names of mailboxes -/

/-- The known names, by address. -/
abbrev Names :=
  Table Int String

namespace Names

/-- Add the labels of a program with their addresses. -/
def addSymbols (names : Names) (symbols : List (String × Int)) : Names :=
  symbols.foldl (fun t s => t.insert s.2 s.1) names

/-- The name of a mailbox: the known one, or one made from its number. -/
def labelFor (names : Names) (address : Int) : String :=
  (names.find? address).getD ("L" ++ twoDigits address)

end Names

/-! ## Single words -/

/-- What a word shows. -/
inductive Content
  | data
  | plain (op : PlainOp)
  | access (op : MailboxOp) (address : Address)
  | branch (op : BranchOp) (target : Address) (label : String)
  deriving DecidableEq, Repr

/-- A word at an address. -/
structure Disassembled where
  address : Int
  word : Int
  content : Content
  deriving DecidableEq, Repr

/-- The content of a word. -/
def Content.ofWord (names : Names) (word : Int) : Content :=
  match Order.ofWord? word with
  | none => .data
  | some (.plain op) => .plain op
  | some (.access op a) => .access op a
  | some (.branch op target) => .branch op target (names.labelFor target.val)

/-- Take one word apart. -/
def disassembleWord (names : Names) (word address : Int) : Disassembled :=
  ⟨address, word, .ofWord names word⟩

namespace Disassembled

/-- The word is no order. -/
def isData (d : Disassembled) : Bool :=
  d.content == .data

/-- The mnemonic, and `DAT` for data. -/
def mnemonic (d : Disassembled) : String :=
  match d.content with
  | .data => "DAT"
  | .plain op => op.mnemonic
  | .access op _ => op.mnemonic
  | .branch op _ _ => op.mnemonic

/-- The operand: the word itself for data, a mailbox, a label, or nothing. -/
def operand (d : Disassembled) : String :=
  match d.content with
  | .data => decimal d.word
  | .plain _ => ""
  | .access _ a => decimal a.val
  | .branch _ _ label => label

/-- The mailbox that a branch leads to. -/
def target (d : Disassembled) : Option Address :=
  match d.content with
  | .branch _ target _ => some target
  | _ => none

/-- The mnemonic and the operand; an empty operand is left out. -/
def statement (d : Disassembled) : String :=
  if d.operand = "" then d.mnemonic else d.mnemonic ++ " " ++ d.operand

/-- The line of a word: its address, its number and its statement. -/
def text (d : Disassembled) : String :=
  twoDigits d.address ++ ": " ++ padLeft 5 (decimal d.word) ++ "  " ++ d.statement

end Disassembled

/-! ## Lists of words -/

/-- Take words apart of which the first stands at the given address. -/
def disassembleFrom (names : Names) (address : Int) : List Int → List Disassembled
  | [] => []
  | word :: rest =>
    disassembleWord names word address :: disassembleFrom names (address + 1) rest

/-- Take words apart, all of them or those before the position `count`. -/
def disassemble (names : Names) (words : List Int) (start : Int) (count : Option Int) :
    List Disassembled :=
  disassembleFrom names start (match count with
    | none => words
    | some n => slice words 0 n)

/-- The mailboxes that the branches shown lead to, each of them once. -/
def branchTargets (shown : List Disassembled) : List Int :=
  ((shown.filterMap Disassembled.target).eraseDups).map fun t => t.val

/-- The lines of one word: a label line comes before a branch target and before a mailbox
with a name. -/
def linesWithLabel (names : Names) (targets : List Int) (d : Disassembled) : List String :=
  if targets.contains d.address || (names.find? d.address).isSome then
    ["." ++ names.labelFor d.address, d.text]
  else [d.text]

/-- The lines of words with their labels. -/
def disassemblyLines (names : Names) (words : List Int) (start : Int) (count : Option Int) :
    List String :=
  let shown := disassemble names words start count
  shown.flatMap (linesWithLabel names (branchTargets shown))

/-- The text of words with their labels. -/
def disassemblyText (names : Names) (words : List Int) (start : Int) (count : Option Int) :
    String :=
  "\n".intercalate (disassemblyLines names words start count)

end Mailroom
